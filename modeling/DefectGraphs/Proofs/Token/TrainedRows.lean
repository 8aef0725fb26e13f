import DefectGraphs.Proofs.Token.Ranking

/-!
The rows behind the vector of a descriptor. They are found by the vocabulary and the gram table that
a model keeps, and for a word of the vocabulary they are those that its training moved.
-/

namespace DefectGraphs.Token

section Rows

variable {vocabulary : Vocabulary} {grams : Option GramTable}

theorem length_wordRows (vocabulary : Vocabulary) (grams : Option GramTable) :
    (wordRows vocabulary grams).length = vocabulary.size := by
  simp [wordRows, Vocabulary.tokens, Vocabulary.size]

theorem getElem?_wordRows (distinct : vocabulary.tokens.Nodup) {index : Nat} {token : String}
    (named : vocabulary.token? index = some token) :
    (wordRows vocabulary grams)[index]? = some (inputRows vocabulary grams token) := by
  have placed : vocabulary.tokens[index]? = some token := by
    rwa [Vocabulary.tokens, List.getElem?_map]
  have found := (Vocabulary.indexOf?_eq_some_iff distinct).mpr named
  rw [wordRows, List.getElem?_map, List.getElem?_zipIdx, placed, inputRows, found, Nat.zero_add]
  rfl

theorem inputRows_of_notMem {descriptor : String} (missing : descriptor ∉ vocabulary.tokens) :
    inputRows vocabulary grams descriptor =
      (grams.map fun table => table.rows vocabulary.size descriptor).getD [] := by
  rw [inputRows, Vocabulary.indexOf?_eq, List.idxOf?_eq_none_iff.mpr missing]
  rfl

theorem GramTable.le_of_mem_rows {table : GramTable} (some : 0 < table.buckets) {offset : Nat}
    (fits : offset + table.buckets ≤ UInt32.size) {token : String} {row : Nat}
    (member : row ∈ table.rows offset token) : offset ≤ row := by
  obtain ⟨gram, -, same⟩ := List.mem_map.mp member
  subst same
  rw [row_eq_of_le some fits]
  exact Nat.le_add_right _ _

/-- Places in a vocabulary are words of 32 bits. -/
theorem Vocabulary.toNat_toUInt32_of_indexOf? (few : vocabulary.size ≤ maxSize) {token : String}
    {index : Nat} (found : vocabulary.indexOf? token = some index) :
    index.toUInt32.toNat = index :=
  Nat.mod_eq_of_lt (Nat.lt_of_lt_of_le (indexOf?_lt found) few)

end Rows

namespace Model

/-- The rows that a model reads for a descriptor, beside the rows of each word in its training. -/
structure ReadsRows (model : Model) (trained : List (List Nat)) (table : GramTable) : Prop where
  length : trained.length = model.vocabulary.size
  own : ∀ index token, model.vocabulary.token? index = some token →
    trained[index]? = some (inputRows model.vocabulary model.grams token)
  others : ∀ descriptor, descriptor ∉ model.vocabulary.tokens →
    inputRows model.vocabulary model.grams descriptor =
      table.rows model.vocabulary.size descriptor
  within : ∀ descriptor, ∀ row ∈ inputRows model.vocabulary model.grams descriptor,
    row < model.vocabulary.size + table.buckets
  vector : ∀ descriptor, model.vector descriptor =
    model.matrix.mean model.vectorSize (inputRows model.vocabulary model.grams descriptor)

/-- The rows of grams lie past those of the words, and all rows are words of 32 bits. -/
structure SetsGramsApart (model : Model) (table : GramTable) : Prop where
  past : ∀ descriptor, ∀ row ∈ table.rows model.vocabulary.size descriptor,
    model.vocabulary.size ≤ row
  words : ∀ descriptor, ∀ row ∈ inputRows model.vocabulary model.grams descriptor,
    row.toUInt32.toNat = row

theorem readsRows_of_grams {model : Model} {table : GramTable} (kept : model.grams = some table)
    (some : 0 < table.buckets) (distinct : model.vocabulary.tokens.Nodup) :
    model.ReadsRows (wordRows model.vocabulary model.grams) table where
  length := length_wordRows _ _
  own := fun _ _ => getElem?_wordRows distinct
  others := by
    intro descriptor missing
    rw [inputRows_of_notMem missing, kept]
    rfl
  within := by
    intro descriptor row member
    have within := inputRows_lt (by simpa [kept] using some) member
    rwa [rowCount, kept] at within
  vector := by
    intro descriptor
    rw [vector, kept]

theorem setsGramsApart_of_grams {model : Model} {table : GramTable}
    (kept : model.grams = some table) (some : 0 < table.buckets)
    (fits : model.vocabulary.size + table.buckets ≤ UInt32.size) :
    model.SetsGramsApart table where
  past := fun _ _ => GramTable.le_of_mem_rows some fits
  words := by
    intro descriptor row member
    rw [inputRows, List.mem_append, kept] at member
    rcases member with own | shared
    · have few : model.vocabulary.size ≤ Vocabulary.maxSize := Nat.le_of_add_right_le fits
      exact Vocabulary.toNat_toUInt32_of_indexOf? few (Option.mem_toList.mp own)
    · exact Nat.mod_eq_of_lt (Nat.lt_of_lt_of_le (GramTable.rows_lt some shared) fits)

theorem read_of_gives_write {model : Model} {path : Files.Path} {before after : Workspace}
    (gives : (model.write path).Gives before () after) :
    after.tree.read path = .ok model.toBytes := by
  obtain ⟨outcome, left, writes⟩ := exists_writes model path before.tree
  have ran := (run_of_writes writes before.notices).symm.trans gives
  obtain ⟨rfl, rfl⟩ := Prod.mk.inj ran
  exact read_of_writes writes

/-- As many buckets as there are words of 32 bits. -/
def wideTable : Training := ⟨1, 1, 1, 0, 0, 0, UInt32.size⟩

def gramTraining : Training := { tiedTraining with buckets := 8 }

def gramModel : Model :=
  trainRows tiedSentences tiedVocabulary (some (.standard 8)) gramTraining

theorem build_gramTraining :
    Vocabulary.build tiedSentences gramTraining.minCount = tiedVocabulary :=
  build_tiedSentences

theorem train_gramModel : train .subword tiedSentences gramTraining = .ok gramModel := by
  rw [train_eq_ok, build_gramTraining]
  exact ⟨by decide, by decide, rfl⟩

def bareWorkspace : Workspace := ⟨⟨.directory [], []⟩, []⟩

theorem exists_gives_write_gramModel :
    ∃ after, (gramModel.write "cache/grams.model").Gives bareWorkspace () after := by
  have succeeds :
      ((gramModel.write "cache/grams.model").run.run bareWorkspace).1.isOk = true := by
    decide +kernel
  obtain ⟨⟨⟩, written⟩ := exists_of_isOk succeeds
  exact ⟨_, Work.gives_of_fst_eq written⟩

end Model

end DefectGraphs.Token
