import DefectGraphs.Proofs.Token.Produced

/-!
A vocabulary ranks the tokens that occur often enough: the more frequent first, and those of one
count in the order in which they first appear. A closed vocabulary gives every other text the row of
the token that is ranked first.
-/

namespace DefectGraphs

/-- Sorting keeps the order of elements that may stand either way round. -/
theorem pairwise_mergeSort_stable {le : α → α → Bool}
    (trans : ∀ first second third, le first second → le second third → le first third)
    (total : ∀ first second, le first second || le second first) {before : α → α → Prop}
    {elements : List α} (ordered : elements.Pairwise before) :
    (elements.mergeSort le).Pairwise fun first second =>
      le first second = true ∧ (le second first = true → before first second) := by
  induction elements with
  | nil => simp
  | cons element rest induction =>
      obtain ⟨first, others⟩ := List.pairwise_cons.mp ordered
      obtain ⟨earlier, later, whole, parts, greater⟩ :=
        List.mergeSort_cons trans total element rest
      have sorted := List.pairwise_mergeSort trans total (element :: rest)
      have kept := induction others
      rw [whole, List.pairwise_append, List.pairwise_cons] at sorted
      rw [parts, List.pairwise_append] at kept
      rw [whole, List.pairwise_append, List.pairwise_cons]
      have inside : ∀ other ∈ earlier ++ later, other ∈ rest := by
        intro other member
        rwa [← parts, List.mem_mergeSort] at member
      refine ⟨kept.1, ⟨?_, kept.2.1⟩, ?_⟩
      · intro other member
        exact ⟨sorted.2.1.1 other member,
          fun _ => first other (inside other (List.mem_append_right earlier member))⟩
      · intro other member second listed
        rcases List.mem_cons.mp listed with rfl | listed
        · have smaller := greater other member
          exact ⟨sorted.2.2 other member _ List.mem_cons_self,
            fun either => by simp [either] at smaller⟩
        · exact kept.2.2 other member second listed

namespace Token

namespace Vocabulary

/-- What a vocabulary says of the sentences that it is made of. -/
structure Ranks (vocabulary : Vocabulary) (sentences : List (List String)) (minCount : Nat) :
    Prop where
  distinct : vocabulary.tokens.Nodup
  counted : ∀ token count, (token, count) ∈ vocabulary.entries ↔
    token ∈ sentences.flatten ∧ sentences.flatten.count token = count ∧ minCount ≤ count
  ranked : vocabulary.entries.Pairwise fun first second =>
    second.2 < first.2 ∨ first.2 = second.2 ∧
      sentences.flatten.idxOf first.1 < sentences.flatten.idxOf second.1
  indexed : ∀ token index,
    vocabulary.indexOf? token = some index ↔ vocabulary.token? index = some token
  encoded : ∀ sentence, (vocabulary.encode sentence).map some =
    (sentence.filter (vocabulary.tokens.contains ·)).map vocabulary.indexOf?

theorem tokens_build_perm (sentences : List (List String)) (minCount : Nat) :
    (build sentences minCount).tokens.Perm
      (sentences.flatten.filter (isFrequent minCount sentences.flatten)).eraseDups := by
  have sorted := (List.mergeSort_perm ((sentences.flatten.filter
    (isFrequent minCount sentences.flatten)).eraseDups.map fun token =>
      (token, sentences.flatten.count token)) fun left right => right.2 ≤ left.2).map Prod.fst
  rw [List.map_map] at sorted
  rw [tokens, entries_build]
  exact sorted.trans (.of_eq (List.map_id' _))

theorem nodup_tokens_build (sentences : List (List String)) (minCount : Nat) :
    (build sentences minCount).tokens.Nodup :=
  (tokens_build_perm sentences minCount).nodup_iff.mpr (firstAppearances_eraseDups _).nodup

theorem pairwise_entries_build (sentences : List (List String)) (minCount : Nat) :
    (build sentences minCount).entries.Pairwise fun first second =>
      second.2 < first.2 ∨ first.2 = second.2 ∧
        sentences.flatten.idxOf first.1 < sentences.flatten.idxOf second.1 := by
  let frequent := isFrequent minCount sentences.flatten
  have appearing : ((sentences.flatten.filter frequent).eraseDups.map fun token =>
      (token, sentences.flatten.count token)).Pairwise fun first second =>
        sentences.flatten.idxOf first.1 < sentences.flatten.idxOf second.1 := by
    rw [List.pairwise_map]
    have frequent_of_mem {token} (member : token ∈ (sentences.flatten.filter frequent).eraseDups) :
        frequent token = true :=
      (List.mem_filter.mp (List.mem_eraseDups.mp member)).2
    apply (firstAppearances_eraseDups (sentences.flatten.filter frequent)).ascending.imp_of_mem
    intro first second member member' earlier
    exact (idxOf_filter_lt_iff _ (frequent_of_mem member) (frequent_of_mem member')).mp earlier
  rw [entries_build]
  apply (pairwise_mergeSort_stable _ _ appearing).imp
  · intro first second ⟨greater, stable⟩
    simp only [decide_eq_true_eq] at greater stable
    rcases Nat.lt_or_eq_of_le greater with greater | same
    · exact .inl greater
    · exact .inr ⟨same.symm, stable (Nat.le_of_eq same.symm)⟩
  · intro first second third greater greater'
    simp only [decide_eq_true_eq] at greater greater' ⊢
    exact Nat.le_trans greater' greater
  · intro first second
    simp only [Bool.or_eq_true, decide_eq_true_eq]
    exact Nat.le_total _ _

theorem indexOf?_eq_some_iff {vocabulary : Vocabulary} (distinct : vocabulary.tokens.Nodup)
    {token : String} {index : Nat} :
    vocabulary.indexOf? token = some index ↔ vocabulary.token? index = some token := by
  refine ⟨token?_of_indexOf?, ?_⟩
  intro named
  rw [token?, ← List.getElem?_map, ← tokens] at named
  obtain ⟨within, same⟩ := List.getElem?_eq_some_iff.mp named
  rw [indexOf?_eq, ← same, List.idxOf?_eq_some_iff]
  refine ⟨within, rfl, ?_⟩
  intro earlier before same'
  exact Nat.ne_of_lt before ((List.getElem_inj distinct).mp (by simpa using same'))

theorem map_some_encode (vocabulary : Vocabulary) (sentence : List String) :
    (vocabulary.encode sentence).map some =
      (sentence.filter (vocabulary.tokens.contains ·)).map vocabulary.indexOf? := by
  rw [encode]
  induction sentence with
  | nil => rfl
  | cons token rest induction =>
      by_cases member : token ∈ vocabulary.tokens
      · obtain ⟨index, found⟩ := exists_indexOf?_of_mem member
        rw [List.filterMap_cons_some found, List.map_cons, induction,
          List.filter_cons_of_pos (by simpa using member), List.map_cons, found]
      · have missing : vocabulary.indexOf? token = none := by
          rwa [indexOf?_eq, List.idxOf?_eq_none_iff]
        rw [List.filterMap_cons_none missing, induction,
          List.filter_cons_of_neg (by simpa using member)]

theorem ranks_build (sentences : List (List String)) (minCount : Nat) :
    (build sentences minCount).Ranks sentences minCount where
  distinct := nodup_tokens_build sentences minCount
  counted := fun _ _ => mem_entries_build
  ranked := pairwise_entries_build sentences minCount
  indexed := fun _ _ => indexOf?_eq_some_iff (nodup_tokens_build sentences minCount)
  encoded := map_some_encode _

/-- No token is more frequent, and of those that are as frequent none appears earlier. -/
structure Leads (tokens : List String) (token : String) : Prop where
  mem : token ∈ tokens
  leads : ∀ other ∈ tokens, tokens.count other < tokens.count token ∨
    tokens.count other = tokens.count token ∧ tokens.idxOf token ≤ tokens.idxOf other

theorem Ranks.exists_leads {vocabulary : Vocabulary} {sentences : List (List String)}
    {minCount : Nat} (ranks : vocabulary.Ranks sentences minCount)
    (nonempty : vocabulary.entries ≠ []) :
    ∃ token, vocabulary.token? 0 = some token ∧ Leads sentences.flatten token := by
  obtain ⟨⟨token, count⟩, rest, entries⟩ := List.exists_cons_of_ne_nil nonempty
  obtain ⟨member, rfl, enough⟩ := (ranks.counted token count).mp (by simp [entries])
  have ranked := ranks.ranked
  rw [entries, List.pairwise_cons] at ranked
  refine ⟨token, by simp [token?, entries], member, ?_⟩
  intro other occurs
  by_cases rare : sentences.flatten.count other < minCount
  · exact .inl (Nat.lt_of_lt_of_le rare enough)
  · have listed := (ranks.counted other _).mpr ⟨occurs, rfl, Nat.le_of_not_lt rare⟩
    rw [entries, List.mem_cons] at listed
    rcases listed with same | later
    · obtain ⟨rfl, -⟩ := Prod.mk.inj same
      exact .inr ⟨rfl, Nat.le_refl _⟩
    · rcases ranked.1 _ later with fewer | ⟨same, earlier⟩
      · exact .inl fewer
      · exact .inr ⟨same.symm, Nat.le_of_lt earlier⟩

end Vocabulary

namespace Model

/-- A closed vocabulary of sentences, and where the vectors of descriptors stand. -/
structure FallsBack (model : Model) (sentences : List (List String)) (minCount : Nat) : Prop where
  vocabulary : model.vocabulary = .build sentences minCount
  own : ∀ descriptor index, model.vocabulary.indexOf? descriptor = some index →
    model.matrix[index]? = some (model.vector descriptor)
  others : ∀ descriptor, descriptor ∉ model.vocabulary.tokens →
    model.matrix[0]? = some (model.vector descriptor)
  first : ∃ token, model.vocabulary.token? 0 = some token ∧
    Vocabulary.Leads sentences.flatten token

theorem fallsBack_train {sentences : List (List String)} {training : Training} {model : Model}
    (trained : train .wordRows sentences training = .ok model) :
    model.FallsBack sentences training.minCount := by
  have shape := wellShaped_train trained
  obtain ⟨-, nonempty, rfl⟩ := train_eq_ok.mp trained
  refine ⟨rfl, ?_, ?_, (Vocabulary.ranks_build _ _).exists_leads nonempty⟩
  · intro descriptor index found
    have stands := shape.getElem?_vector descriptor rfl
    rwa [found] at stands
  · intro descriptor missing
    have stands := shape.getElem?_vector descriptor rfl
    rwa [Vocabulary.indexOf?_eq, List.idxOf?_eq_none_iff.mpr missing] at stands

/-- A vocabulary ranks the frequent tokens, and a model with a closed vocabulary falls back on the
first of them. -/
theorem build_ranksFrequent (sentences : List (List String)) (minCount : Nat) :
    (Vocabulary.build sentences minCount).Ranks sentences minCount ∧
      ∀ training model, training.minCount = minCount →
        train .wordRows sentences training = .ok model → model.FallsBack sentences minCount := by
  refine ⟨Vocabulary.ranks_build sentences minCount, ?_⟩
  rintro training model rfl trained
  exact fallsBack_train trained

def tiedSentences : List (List String) :=
  [["CALL:g", "CALL:f"], [], ["CALL:f", "LITERAL:0", "CALL:g"]]

def tiedTraining : Training := ⟨2, 5, 2, 1, 5, 7, 0⟩

def tiedVocabulary : Vocabulary := .ofEntries [("CALL:g", 2), ("CALL:f", 2)]

theorem build_tiedSentences :
    Vocabulary.build tiedSentences tiedTraining.minCount = tiedVocabulary := by
  simp [Vocabulary.build, Vocabulary.getD_tally, Vocabulary.distinct, tiedSentences, tiedTraining,
    tiedVocabulary, List.mergeSort_of_pairwise]

theorem train_tiedSentences : train .wordRows tiedSentences tiedTraining =
    .ok (trainRows tiedSentences tiedVocabulary none tiedTraining) := by
  rw [train_eq_ok, build_tiedSentences]
  exact ⟨by decide, by decide, rfl⟩

theorem build_ranksFrequent_tied :
    (train .wordRows tiedSentences tiedTraining).isOk = true ∧
      tiedVocabulary.token? 0 = some "CALL:g" ∧ tiedVocabulary.Ranks tiedSentences 2 ∧
      (trainRows tiedSentences tiedVocabulary none tiedTraining).FallsBack tiedSentences 2 := by
  have ranks := build_ranksFrequent tiedSentences tiedTraining.minCount
  rw [build_tiedSentences] at ranks
  exact ⟨by rw [train_tiedSentences]; rfl, rfl, ranks.1, ranks.2 _ _ rfl train_tiedSentences⟩

end Model

end Token

end DefectGraphs
