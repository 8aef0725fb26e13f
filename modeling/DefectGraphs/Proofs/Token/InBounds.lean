import DefectGraphs.Proofs.Token.Guarded
import DefectGraphs.Proofs.Token.TrainedRows

/-!
Token models whose training and whose lookups are guarded throughout. No random number and no
descriptor leads out of a matrix, and the matrix has all of its components.
-/

namespace DefectGraphs.Token

open DefectGraphs.Random

namespace Guarded

section Grams

def slice? (chars : List Char) (start stop : Nat) : Option (List Char) :=
  if start ≤ stop ∧ stop ≤ chars.length then some ((chars.drop start).take (stop - start))
  else none

/-- The grams that start at one place after the other, as long as they end in the text. -/
def grams? (table : GramTable) (token : String) : Option (List String) := do
  let chars := GramTable.bounded token
  let runs ← (List.range chars.length).mapM fun start =>
    ((List.range' table.least (table.most + 1 - table.least)).takeWhile
      (start + · ≤ chars.length)).mapM fun count => slice? chars start (start + count)
  some (runs.flatten.map String.ofList)

theorem takeWhile_range' (start first count bound : Nat) :
    (List.range' first count).takeWhile (start + · ≤ bound) =
      (List.range' first count).filter (start + · ≤ bound) := by
  induction count generalizing first with
  | zero => rfl
  | succ count induction =>
      rw [List.range'_succ]
      by_cases fits : start + first ≤ bound
      · rw [List.takeWhile_cons_of_pos (by simpa using fits),
          List.filter_cons_of_pos (by simpa using fits), induction]
      · rw [List.takeWhile_cons_of_neg (by simpa using fits),
          List.filter_eq_nil_iff.mpr]
        intro other member
        have := (List.mem_cons.mp member).imp id List.mem_range'_1.mp
        simp only [decide_eq_true_eq]
        omega

theorem gramsOf_eq_flatMap (table : GramTable) (chars : List Char) :
    table.gramsOf chars = (List.range chars.length).flatMap fun start =>
      ((List.range' table.least (table.most + 1 - table.least)).filter
        (start + · ≤ chars.length)).map ((chars.drop start).take ·) := by
  induction chars with
  | nil => rfl
  | cons c rest induction =>
      have first : table.gramsOf (c :: rest) =
          ((List.range' table.least (table.most + 1 - table.least)).filter
            (· ≤ (c :: rest).length)).map ((c :: rest).take ·) ++ table.gramsOf rest := rfl
      have later : ∀ start count,
          start.succ + count ≤ rest.length + 1 ↔ start + count ≤ rest.length := by
        intro start count
        omega
      rw [first, induction, List.length_cons, List.range_succ_eq_map, List.flatMap_cons,
        List.flatMap_map]
      simp only [Nat.zero_add, List.drop_zero, List.drop_succ_cons, later]

theorem grams?_eq (table : GramTable) (token : String) :
    grams? table token = some (table.grams token) := by
  have runs : (List.range (GramTable.bounded token).length).mapM (fun start =>
      ((List.range' table.least (table.most + 1 - table.least)).takeWhile
        (start + · ≤ (GramTable.bounded token).length)).mapM
          fun count => slice? (GramTable.bounded token) start (start + count)) =
      some ((List.range (GramTable.bounded token).length).map fun start =>
        ((List.range' table.least (table.most + 1 - table.least)).filter
          (start + · ≤ (GramTable.bounded token).length)).map
            (((GramTable.bounded token).drop start).take ·)) := by
    apply mapM_eq_some_map
    intro start _
    rw [takeWhile_range']
    apply mapM_eq_some_map
    intro count member
    have fits := (List.mem_filter.mp member).2
    rw [slice?, if_pos ⟨Nat.le_add_right _ _, by simpa using fits⟩, Nat.add_sub_cancel_left]
  simp only [grams?, runs, Option.bind_eq_bind, Option.bind_some]
  rw [GramTable.grams, gramsOf_eq_flatMap, List.flatMap_def]

end Grams

section Rows

/-- The row that a gram shares, in a range of rows that must not be empty. -/
def gramRow? (table : GramTable) (offset : Nat) (gram : String) : Option Nat :=
  if 0 < table.buckets then number32? (offset + (Text.digest gram).toNat % table.buckets)
  else none

def gramRows? (vocabulary : Vocabulary) (grams : Option GramTable) (token : String) :
    Option (List Nat) :=
  match grams with
  | none => some []
  | some table => do (← grams? table token).mapM (gramRow? table vocabulary.size)

def indexOf? (vocabulary : Vocabulary) (token : String) : Option (Option Nat) :=
  match vocabulary.indexOf? token with
  | none => some none
  | some index => (number32? index).map some

def inputRows? (vocabulary : Vocabulary) (grams : Option GramTable) (descriptor : String) :
    Option (List Nat) := do
  let own ← indexOf? vocabulary descriptor
  let others ← gramRows? vocabulary grams descriptor
  some (own.toList ++ others)

def wordRows? (vocabulary : Vocabulary) (grams : Option GramTable) : Option (List (List Nat)) :=
  vocabulary.tokens.zipIdx.mapM fun (token, index) => do
    let own ← number32? index
    let others ← gramRows? vocabulary grams token
    some (own :: others)

def encode? (vocabulary : Vocabulary) (sentence : List String) : Option (List Nat) :=
  (vocabulary.encode sentence).mapM number32?

variable {vocabulary : Vocabulary} {grams : Option GramTable}
  (some : ∀ table ∈ grams, 0 < table.buckets) (small : rowCount vocabulary grams < UInt32.size)

include small in
theorem number32?_of_lt_size {index : Nat} (within : index < vocabulary.size) :
    number32? index = .some index :=
  number32?_of_lt (Nat.lt_trans (Nat.lt_add_right _ within) small)

include small in
theorem indexOf?_eq (descriptor : String) :
    indexOf? vocabulary descriptor = .some (vocabulary.indexOf? descriptor) := by
  rw [indexOf?]
  cases found : vocabulary.indexOf? descriptor with
  | none => rfl
  | some index =>
      dsimp only
      rw [number32?_of_lt_size small (Vocabulary.indexOf?_lt found)]
      rfl

include small in
theorem encode?_eq (sentence : List String) :
    encode? vocabulary sentence = .some (vocabulary.encode sentence) := by
  have each := mapM_eq_some_map (f := number32?) (g := id)
    fun word (member : word ∈ vocabulary.encode sentence) =>
      number32?_of_lt_size small (Vocabulary.encode_lt member)
  rwa [List.map_id] at each

include some small

theorem gramRows?_eq (token : String) : gramRows? vocabulary grams token =
    .some ((grams.map fun table => table.rows vocabulary.size token).getD []) := by
  cases grams with
  | none => rfl
  | some table =>
      have positive := some table rfl
      have fits : vocabulary.size + table.buckets ≤ UInt32.size := Nat.le_of_lt small
      simp only [gramRows?, grams?_eq, Option.bind_eq_bind, Option.bind_some]
      apply mapM_eq_some_map
      intro gram member
      rw [gramRow?, if_pos positive, GramTable.row_eq_of_le positive fits, number32?_of_lt]
      exact Nat.lt_trans (Nat.add_lt_add_left (Nat.mod_lt _ positive) _) small

theorem inputRows?_eq (descriptor : String) :
    inputRows? vocabulary grams descriptor = .some (inputRows vocabulary grams descriptor) := by
  simp only [inputRows?, indexOf?_eq small, gramRows?_eq some small, Option.bind_eq_bind,
    Option.bind_some]
  rfl

theorem wordRows?_eq : wordRows? vocabulary grams = .some (wordRows vocabulary grams) := by
  apply mapM_eq_some_map
  rintro ⟨token, index⟩ member
  have within := (List.mem_zipIdx' member).1
  rw [Vocabulary.tokens, List.length_map] at within
  simp only [number32?_of_lt_size small within, gramRows?_eq some small, Option.bind_eq_bind,
    Option.bind_some]

end Rows

/-- A token model whose matrix lies in memory. -/
structure Model where
  vocabulary : Vocabulary
  grams : Option GramTable
  memory : Memory

namespace Model

def ofModel (model : Token.Model) : Model :=
  ⟨model.vocabulary, model.grams, .ofMatrix model.vectorSize model.matrix⟩

def vector? (model : Model) (descriptor : String) : Option Row :=
  match model.grams with
  | none => do
    let index ← indexOf? model.vocabulary descriptor
    model.memory.row? (index.getD 0)
  | some _ => do
    let rows ← inputRows? model.vocabulary model.grams descriptor
    model.memory.mean? rows

def gramTable (backend : Backend) (training : Training) : Option GramTable :=
  match backend with
  | .wordRows => none
  | .subword => some (.standard training.buckets)

section Draw

variable {σ : Type} (draws : Draws σ) (stream : σ)

def trainRows? (sentences : List (List String)) (vocabulary : Vocabulary)
    (grams : Option GramTable) (training : Training) : Option Model := do
  let encoded ← sentences.mapM (encode? vocabulary)
  let words ← wordRows? vocabulary grams
  let rows ← number64? (rowCount vocabulary grams)
  let memory ← trainFrom? draws stream encoded words rows vocabulary.counts training
  some ⟨vocabulary, grams, memory⟩

def train? (backend : Backend) (sentences : List (List String)) (training : Training) :
    Option (Except Failure Model) :=
  if backend = .subword ∧ training.buckets = 0 then
    some (.error (.settings (.notPositive "subword_buckets")))
  else
    let vocabulary := Vocabulary.build sentences training.minCount
    if vocabulary.entries.isEmpty then some (.error (.emptyVocabulary training.minCount))
    else do
      let model ←
        trainRows? draws stream sentences vocabulary (gramTable backend training) training
      some (.ok model)

theorem trainRows?_eq {sentences : List (List String)} {vocabulary : Vocabulary}
    {grams : Option GramTable} {training : Training} (some : ∀ table ∈ grams, 0 < table.buckets)
    (small : rowCount vocabulary grams < UInt32.size)
    (fits : Fits training (sentences.map vocabulary.encode) (rowCount vocabulary grams)
      vocabulary.counts.length) :
    trainRows? draws stream sentences vocabulary grams training =
      .some (.ofModel (.trainRowsFrom draws stream sentences vocabulary grams training)) := by
  have encoded := mapM_eq_some_map fun sentence (_ : sentence ∈ sentences) =>
    encode?_eq small sentence
  have words := wordRows?_eq some small
  have rows := number64?_of_lt (Nat.lt_trans small (by decide : UInt32.size < UInt64.size))
  have each : (wordRows vocabulary grams).length = vocabulary.counts.length :=
    (length_wordRows vocabulary grams).trans (List.length_map _).symm
  have trained := trainFrom?_eq draws fits Token.Model.known_of_mem_encode
    (fun indices member index => wordRows_lt some member) each stream
  simp only [trainRows?, encoded, words, rows, trained, Option.bind_eq_bind, Option.bind_some]
  rfl

end Draw

section Lookup

variable {model : Token.Model} (shape : model.WellShaped)
  (small : rowCount model.vocabulary model.grams < UInt32.size)
  (fits : rowCount model.vocabulary model.grams * model.vectorSize < UInt64.size)

include shape small fits

theorem vector?_ofModel (descriptor : String) :
    (ofModel model).vector? descriptor = some (model.vector descriptor) := by
  obtain ⟨vocabulary, vectorSize, grams, matrix⟩ := model
  cases grams with
  | none =>
      simp only [vector?, ofModel, indexOf?_eq small, Option.bind_eq_bind, Option.bind_some,
        Memory.row?_ofMatrix shape.matrix fits (shape.place_lt descriptor)]
      rfl
  | some table =>
      have listed : ∀ index ∈ inputRows vocabulary (some table) descriptor,
          index < rowCount vocabulary (some table) :=
        fun index => inputRows_lt shape.grams
      simp only [vector?, ofModel, inputRows?_eq shape.grams small, Option.bind_eq_bind,
        Option.bind_some, Memory.mean?_ofMatrix shape.matrix fits listed]
      rfl

end Lookup

section Train

variable (backend : Backend) (sentences : List (List String)) (training : Training)

/-- Each token has a row, and with subwords each bucket has one. -/
def inputCount : Nat :=
  (Vocabulary.build sentences training.minCount).size +
    if backend = .subword then training.buckets else 0

def encoded : List (List Nat) :=
  sentences.map (Vocabulary.build sentences training.minCount).encode

/-- The numbers of a whole training fit their bits: its rows and their components, the steps that it
takes and the places that a window can reach in a sentence. -/
structure Bounded : Prop where
  rows : inputCount backend sentences training < UInt32.size
  components : inputCount backend sentences training * training.vectorSize < UInt64.size
  count : (encoded sentences training).flatten.length < UInt64.size
  steps : (encoded sentences training).flatten.length * training.epochs < UInt64.size
  window : ∀ sentence ∈ encoded sentences training,
    sentence.length + max training.window 1 < UInt64.size

theorem rowCount_build :
    rowCount (.build sentences training.minCount) (gramTable backend training) =
      inputCount backend sentences training := by
  cases backend <;> rfl

end Train

section Outcome

variable {backend : Backend} {sentences : List (List String)} {training : Training}

theorem Bounded.fits (bounded : Bounded backend sentences training) :
    Fits training (encoded sentences training) (inputCount backend sentences training)
      (Vocabulary.build sentences training.minCount).counts.length := by
  have fewer : (Vocabulary.build sentences training.minCount).counts.length ≤
      inputCount backend sentences training := by
    rw [Vocabulary.counts, List.length_map]
    exact Nat.le_add_right _ _
  exact {
    numbers := Nat.lt_of_le_of_lt fewer bounded.rows
    input := bounded.components
    output := Nat.lt_of_le_of_lt (Nat.mul_le_mul_right _ fewer) bounded.components
    count := bounded.count
    steps := bounded.steps
    window := bounded.window }

theorem gramTable_positive (usable : ¬(backend = .subword ∧ training.buckets = 0)) :
    ∀ table ∈ gramTable backend training, 0 < table.buckets := by
  cases backend with
  | wordRows => simp [gramTable]
  | subword => simpa [gramTable, GramTable.standard, Nat.pos_iff_ne_zero] using usable

variable {σ : Type} (draws : Draws σ) (stream : σ)

/-- Whatever is drawn, guarded training fails only where training does. -/
theorem train?_eq (bounded : Bounded backend sentences training) :
    train? draws stream backend sentences training =
      some ((Token.Model.train backend sentences training).map fun model =>
        ofModel (.trainRowsFrom draws stream sentences model.vocabulary model.grams training)) := by
  unfold train? Token.Model.train
  by_cases unusable : backend = .subword ∧ training.buckets = 0
  · rw [if_pos unusable, if_pos unusable]
    rfl
  rw [if_neg unusable, if_neg unusable]
  by_cases empty : (Vocabulary.build sentences training.minCount).entries.isEmpty = true
  · simp only [if_pos empty]
    rfl
  have small := bounded.rows
  have fits := bounded.fits
  rw [← rowCount_build] at small fits
  have made := trainRows?_eq draws stream (gramTable_positive unusable) small fits
  simp only [if_neg empty, made, Option.bind_eq_bind, Option.bind_some]
  rfl

end Outcome

end Model

end Guarded

namespace Model

/-- Guarded training and guarded lookup always give a result. A model has all components of its
rows, and a vector of its vector size for every descriptor; with the numbers of the seed it is the
model that training makes, with the same vectors. -/
structure StaysInBounds (backend : Backend) (sentences : List (List String)) (training : Training) :
    Prop where
  failing : ∀ failure, train backend sentences training = .error failure →
    ∀ {σ : Type} (draws : Draws σ) (stream : σ),
      Guarded.Model.train? draws stream backend sentences training = some (.error failure)
  succeeding : ∀ trained, train backend sentences training = .ok trained →
    ∀ {σ : Type} (draws : Draws σ) (stream : σ), ∃ model,
      Guarded.Model.train? draws stream backend sentences training = some (.ok model) ∧
        model.memory.components.size =
          Guarded.Model.inputCount backend sentences training * training.vectorSize ∧
        ∀ descriptor, ∃ vector, model.vector? descriptor = some vector ∧
          vector.size = training.vectorSize
  seeded : ∀ trained, train backend sentences training = .ok trained → ∃ model,
    Guarded.Model.train? .ofStream (.ofSeed training.seed) backend sentences training =
        some (.ok model) ∧
      model.memory.components = trained.matrix.flatten ∧
      ∀ descriptor, model.vector? descriptor = some (trained.vector descriptor)

variable {backend : Backend} {sentences : List (List String)} {training : Training}

section Succeeding

variable {trained : Model} (succeeds : train backend sentences training = .ok trained)

include succeeds

theorem rowCount_train : rowCount trained.vocabulary trained.grams =
    Guarded.Model.inputCount backend sentences training := by
  obtain ⟨-, -, rfl⟩ := train_eq_ok.mp succeeds
  cases backend <;> rfl

theorem trainRowsFrom_seed : trainRowsFrom .ofStream (.ofSeed training.seed) sentences
    trained.vocabulary trained.grams training = trained := by
  obtain ⟨-, -, rfl⟩ := train_eq_ok.mp succeeds
  rfl

variable (bounded : Guarded.Model.Bounded backend sentences training) {σ : Type} (draws : Draws σ)
  (stream : σ)

theorem wellShaped_of_train :
    (trainRowsFrom draws stream sentences trained.vocabulary trained.grams training).WellShaped :=
  wellShaped_trainRowsFrom draws (wellShaped_train succeeds).vocabulary
    (wellShaped_train succeeds).grams stream sentences training

include bounded

theorem train?_eq_ok : Guarded.Model.train? draws stream backend sentences training =
    some (.ok (.ofModel
      (trainRowsFrom draws stream sentences trained.vocabulary trained.grams training))) := by
  rw [Guarded.Model.train?_eq draws stream bounded, succeeds]
  rfl

theorem vector?_trainRowsFrom (descriptor : String) :
    (Guarded.Model.ofModel (trainRowsFrom draws stream sentences trained.vocabulary trained.grams
      training)).vector? descriptor =
        some ((trainRowsFrom draws stream sentences trained.vocabulary trained.grams
          training).vector descriptor) := by
  have count := rowCount_train succeeds
  apply Guarded.Model.vector?_ofModel (wellShaped_of_train succeeds draws stream)
  · exact count ▸ bounded.rows
  · exact count ▸ bounded.components

end Succeeding

/-- Training and lookup keep within their memory, whatever numbers are drawn. -/
theorem train_staysInBounds (bounded : Guarded.Model.Bounded backend sentences training) :
    StaysInBounds backend sentences training where
  failing := by
    intro failure failed σ draws stream
    rw [Guarded.Model.train?_eq draws stream bounded, failed]
    rfl
  succeeding := by
    intro trained succeeds σ draws stream
    have shape := wellShaped_of_train succeeds draws stream
    refine ⟨_, train?_eq_ok succeeds bounded draws stream, ?_, ?_⟩
    · rw [← rowCount_train succeeds]
      exact shape.matrix.size_flatten
    · intro descriptor
      exact ⟨_, vector?_trainRowsFrom succeeds bounded draws stream descriptor,
        shape.size_vector descriptor⟩
  seeded := by
    intro trained succeeds
    have ran := train?_eq_ok succeeds bounded .ofStream (.ofSeed training.seed)
    have vectors := vector?_trainRowsFrom succeeds bounded .ofStream (.ofSeed training.seed)
    rw [trainRowsFrom_seed succeeds] at ran vectors
    exact ⟨_, ran, rfl, vectors⟩

theorem encoded_gramTraining :
    Guarded.Model.encoded tiedSentences gramTraining = [[0, 1], [], [1, 0]] := by
  rw [Guarded.Model.encoded, build_gramTraining]
  simp [Vocabulary.encode, Vocabulary.indexOf?_eq, Vocabulary.tokens, tiedVocabulary,
    Vocabulary.ofEntries, tiedSentences, List.idxOf?_cons]

theorem bounded_gramTraining : Guarded.Model.Bounded .subword tiedSentences gramTraining := by
  have count : Guarded.Model.inputCount .subword tiedSentences gramTraining = 10 := by
    rw [Guarded.Model.inputCount, build_gramTraining]
    rfl
  constructor <;> simp only [encoded_gramTraining, count] <;> decide

theorem train_staysInBounds_tied : Guarded.Model.Bounded .subword tiedSentences gramTraining ∧
    ∃ model, Guarded.Model.train? .ofStream (.ofSeed 7) .subword tiedSentences gramTraining =
        some (.ok model) ∧
      ∀ descriptor, model.vector? descriptor = some (gramModel.vector descriptor) := by
  have stays := train_staysInBounds bounded_gramTraining
  obtain ⟨model, trained, -, vectors⟩ := stays.seeded gramModel train_gramModel
  exact ⟨bounded_gramTraining, model, trained, vectors⟩

end Model

end DefectGraphs.Token
