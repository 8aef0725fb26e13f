import DefectGraphs.Proofs.Token.TrainedRows
import Mathlib.Logic.Function.Iterate

/-!
The rows that training leaves as they were drawn. Of the input matrix it moves the rows of a word
only where another word stands in the same sentence; each row that is not among these keeps the
numbers that the seed gave it, which no sentence has a part in.
-/

namespace DefectGraphs.Token

open DefectGraphs.Random

namespace Matrix

section Draw

variable {σ : Type} (draws : Draws σ)

/-- The source after as many single fractions are drawn from it. -/
def past (count : Nat) (stream : σ) : σ :=
  (fun stream => (draws.single stream).2)^[count] stream

theorem past_add (first second : Nat) (stream : σ) :
    past draws (first + second) stream = past draws second (past draws first stream) := by
  rw [past, Nat.add_comm, Function.iterate_add_apply]
  rfl

/-- The first components that a row takes from a source. -/
def drawnComponents (size : Nat) (stream : σ) (count : Nat) : List Float32 :=
  (List.range count).map fun place =>
    ((draws.single (past draws place stream)).1 - 0.5) / size.toUInt64.toFloat32

theorem drawRow_eq (size : Nat) (stream : σ) (row : Row) (count : Nat) :
    drawRow draws size stream row count =
      (row ++ (drawnComponents draws size stream count).toArray, past draws count stream) := by
  induction count generalizing stream row with
  | zero => simp [drawRow, drawnComponents, past]
  | succ count induction =>
      have later : ∀ place, past draws place (draws.single stream).2 =
          past draws (place + 1) stream := fun _ => rfl
      simp only [drawRow, induction, later, drawnComponents, List.range_succ_eq_map, List.map_cons,
        List.map_map, Function.comp_def]
      simp [past]

/-- The row of a matrix before any training: its place tells how many fractions are drawn before. -/
def drawnRow (size : Nat) (stream : σ) (row : Nat) : Row :=
  (drawnComponents draws size (past draws (row * size) stream) size).toArray

theorem drawRows_eq (size : Nat) (stream : σ) (matrix : Matrix) (count : Nat) :
    (drawRows draws size stream matrix count).1 =
      matrix ++ ((List.range count).map (drawnRow draws size stream)).toArray := by
  induction count generalizing stream matrix with
  | zero => simp [drawRows]
  | succ count induction =>
      have later : drawnRow draws size (past draws size stream) =
          drawnRow draws size stream ∘ Nat.succ := by
        funext row
        rw [Function.comp_apply, drawnRow, drawnRow, ← past_add, Nat.succ_mul, Nat.add_comm size]
      have first : (drawnComponents draws size stream size).toArray =
          drawnRow draws size stream 0 := by
        rw [drawnRow, Nat.zero_mul]
        rfl
      simp only [drawRows, drawRow_eq, induction, later, Array.empty_append, first,
        List.range_succ_eq_map, List.map_cons, List.map_map]
      simp

theorem getElem?_random {rows row : Nat} (within : row < rows) (size : Nat) (stream : σ) :
    (random draws rows size stream).1[row]? = some (drawnRow draws size stream row) := by
  rw [random, drawRows_eq, Array.empty_append, List.getElem?_toArray, List.getElem?_map,
    List.getElem?_range within]
  rfl

end Draw

theorem getElem?_addToEach_of_notMem (matrix : Matrix) {rows : List Nat} {row : Nat}
    (misses : row ∉ rows) (added : Row) : (matrix.addToEach rows added)[row]? = matrix[row]? := by
  unfold addToEach
  apply List.foldlRecOn (motive := fun reached : Matrix => reached[row]? = matrix[row]?)
  · rfl
  · intro reached kept index member
    have other : index ≠ row := fun same => misses (same ▸ member)
    rw [Array.getElem?_modify, if_neg other, kept]

end Matrix

namespace SkipGram

/-- A row has evidence when it belongs to a word that does not stand alone in its sentence. -/
def HasEvidence (sentences : List (List Nat)) (wordRows : List (List Nat)) (row : Nat) : Prop :=
  ∃ sentence ∈ sentences, 2 ≤ sentence.length ∧
    ∃ word ∈ sentence, row ∈ wordRows[word]?.getD []

section Frame

variable {σ : Type} (draws : Draws σ) {plan : Plan} {row : Nat}

theorem getElem?_trainPair {rows : List Nat} (misses : row ∉ rows) (rate : Float32)
    (state : State σ) (target : Nat) :
    (trainPair draws plan rows rate state target).input[row]? = state.input[row]? :=
  Matrix.getElem?_addToEach_of_notMem state.input misses _

/-- A word on its own predicts nothing, whatever is drawn for the reach of its context. -/
theorem input_trainWord_alone (state : State σ) (word : Nat) :
    (trainWord draws plan [] [] state word).input = state.input := by
  unfold trainWord
  dsimp only
  split <;> rfl

theorem getElem?_trainWord {word : Nat} (misses : row ∉ plan.wordRows[word]?.getD [])
    (before after : List Nat) (state : State σ) :
    (trainWord draws plan before after state word).input[row]? = state.input[row]? := by
  unfold trainWord
  dsimp only
  split
  · rfl
  · apply List.foldlRecOn
      (motive := fun reached : State σ => reached.input[row]? = state.input[row]?)
    · rfl
    · intro reached kept target _
      rw [getElem?_trainPair draws misses, kept]

theorem getElem?_trainSentence {before sentence : List Nat}
    (misses : 2 ≤ before.length + sentence.length →
      ∀ word ∈ sentence, row ∉ plan.wordRows[word]?.getD []) (state : State σ) :
    (trainSentence draws plan before state sentence).input[row]? = state.input[row]? := by
  -- The words before stand beside those to come, so the lengths add up to the same at each word.
  induction sentence generalizing before state with
  | nil => rfl
  | cons word after induction =>
      have first : (trainWord draws plan before after state word).input[row]? =
          state.input[row]? := by
        by_cases alone : before.length + after.length = 0
        · obtain rfl : before = [] := List.eq_nil_of_length_eq_zero (by omega)
          obtain rfl : after = [] := List.eq_nil_of_length_eq_zero (by simpa using alone)
          rw [input_trainWord_alone]
        · apply getElem?_trainWord
          exact misses (by rw [List.length_cons]; omega) word List.mem_cons_self
      rw [trainSentence, induction, first]
      intro several other member
      rw [List.length_cons] at several
      exact misses (by rw [List.length_cons]; omega) other (List.mem_cons_of_mem word member)

theorem input_trainSentence_of_length_le_one {sentence : List Nat} (alone : sentence.length ≤ 1)
    (state : State σ) : (trainSentence draws plan [] state sentence).input = state.input := by
  apply Array.ext_getElem?
  intro row
  apply getElem?_trainSentence
  rw [List.length_nil]
  omega

theorem getElem?_trainEpochs {sentences : List (List Nat)}
    (misses : ∀ sentence ∈ sentences, 2 ≤ sentence.length →
      ∀ word ∈ sentence, row ∉ plan.wordRows[word]?.getD []) (epochs : Nat) (state : State σ) :
    (trainEpochs draws plan sentences epochs state).input[row]? = state.input[row]? := by
  induction epochs generalizing state with
  | zero => rfl
  | succ epochs induction =>
      rw [trainEpochs, induction]
      apply List.foldlRecOn
        (motive := fun reached : State σ => reached.input[row]? = state.input[row]?)
      · rfl
      · intro reached kept sentence member
        rw [getElem?_trainSentence, kept]
        rw [List.length_nil, Nat.zero_add]
        exact misses sentence member

theorem getElem?_trainFrom {sentences wordRows : List (List Nat)} {rows : Nat}
    (within : row < rows) (unmoved : ¬HasEvidence sentences wordRows row) (counts : List Nat)
    (training : Training) (stream : σ) :
    (trainFrom draws stream sentences wordRows rows counts training)[row]? =
      some (Matrix.drawnRow draws training.vectorSize stream row) := by
  have drawn := Matrix.getElem?_random draws within training.vectorSize stream
  unfold trainFrom
  dsimp only
  split
  · exact drawn
  · rw [getElem?_trainEpochs, drawn]
    intro sentence listed several word member moved
    rw [Plan.ofTraining, List.getElem?_toArray] at moved
    exact unmoved ⟨sentence, listed, several, word, member, moved⟩

end Frame

/-- The row that a seed gives before any training. -/
def seededRow (training : Training) (row : Nat) : Row :=
  Matrix.drawnRow .ofStream training.vectorSize (.ofSeed training.seed) row

end SkipGram

section Grams

variable {sentences : List (List String)} {vocabulary : Vocabulary} {table : GramTable}

/-- The grams of the words that do not stand alone in their sentence. -/
def IsTrainedGram (sentences : List (List String)) (vocabulary : Vocabulary) (table : GramTable)
    (gram : String) : Prop :=
  ∃ sentence ∈ sentences, 2 ≤ (vocabulary.encode sentence).length ∧
    ∃ token ∈ sentence, token ∈ vocabulary.tokens ∧ gram ∈ table.grams token

theorem exists_isTrainedGram (distinct : vocabulary.tokens.Nodup) {bucket : Nat}
    (evidence : SkipGram.HasEvidence (sentences.map vocabulary.encode)
      (wordRows vocabulary (some table)) (vocabulary.size + bucket))
    (positive : 0 < table.buckets) (fits : vocabulary.size + table.buckets ≤ UInt32.size) :
    ∃ gram, IsTrainedGram sentences vocabulary table gram ∧
      (Text.digest gram).toNat % table.buckets = bucket := by
  obtain ⟨_, encoded, several, word, member, moved⟩ := evidence
  obtain ⟨sentence, listed, rfl⟩ := List.mem_map.mp encoded
  obtain ⟨token, spoken, found⟩ := List.mem_filterMap.mp member
  have named := (Vocabulary.indexOf?_eq_some_iff distinct).mp found
  have known : token ∈ vocabulary.tokens := by
    rw [Vocabulary.token?, ← List.getElem?_map] at named
    exact List.mem_of_getElem? named
  rw [getElem?_wordRows distinct named, Option.getD_some, inputRows, List.mem_append] at moved
  rcases moved with own | shared
  · have within := Vocabulary.indexOf?_lt (Option.mem_toList.mp own)
    omega
  · obtain ⟨gram, read, placed⟩ := List.mem_map.mp shared
    rw [GramTable.row_eq_of_le positive fits] at placed
    exact ⟨gram, ⟨sentence, listed, several, token, spoken, known, read⟩, by omega⟩

end Grams

namespace Model

/-- Training moves no row without evidence, no row for a sentence of a single word, and no bucket
without a gram of a word that stands beside another, where every bucket has a row of its own. They
keep the numbers that the seed gave. -/
theorem train_movesEvidence :
    (∀ (sentences wordRows : List (List Nat)) (rows : Nat) (counts : List Nat)
        (training : Training) (row : Nat), row < rows →
      ¬SkipGram.HasEvidence sentences wordRows row →
      (SkipGram.train sentences wordRows rows counts training)[row]? =
        some (SkipGram.seededRow training row)) ∧
    (∀ (plan : SkipGram.Plan) (sentence : List Nat), sentence.length ≤ 1 →
      ∀ state : SkipGram.State Stream,
        (SkipGram.trainSentence .ofStream plan [] state sentence).input = state.input) ∧
    ∀ (sentences : List (List String)) (training : Training) (model : Model),
      train .subword sentences training = .ok model →
      model.vocabulary.size + training.buckets ≤ UInt32.size →
      ∀ bucket < training.buckets,
        (∀ gram, IsTrainedGram sentences model.vocabulary (.standard training.buckets) gram →
          (Text.digest gram).toNat % training.buckets ≠ bucket) →
        model.matrix[model.vocabulary.size + bucket]? =
          some (SkipGram.seededRow training (model.vocabulary.size + bucket)) := by
  refine ⟨?_, ?_, ?_⟩
  · intro sentences wordRows rows counts training row within unmoved
    exact SkipGram.getElem?_trainFrom _ within unmoved _ _ _
  · intro plan sentence alone
    exact SkipGram.input_trainSentence_of_length_le_one _ alone
  · intro sentences training model trained fits bucket within unread
    obtain ⟨-, -, rfl⟩ := train_eq_ok.mp trained
    have positive : 0 < training.buckets := Nat.zero_lt_of_lt within
    apply SkipGram.getElem?_trainFrom _ (Nat.add_lt_add_left within _)
    intro evidence
    have distinct := Vocabulary.nodup_tokens_build sentences training.minCount
    obtain ⟨gram, trainedOn, hit⟩ := exists_isTrainedGram distinct evidence positive fits
    exact unread gram trainedOn hit

def wideTraining : Training := { tiedTraining with buckets := 64 }

def wideModel : Model :=
  trainRows tiedSentences tiedVocabulary (some (.standard 64)) wideTraining

theorem train_wideModel : train .subword tiedSentences wideTraining = .ok wideModel := by
  have built : Vocabulary.build tiedSentences wideTraining.minCount = tiedVocabulary :=
    build_tiedSentences
  rw [train_eq_ok, built]
  exact ⟨by decide, by decide, rfl⟩

theorem unread_wideModel (gram : String)
    (read : IsTrainedGram tiedSentences wideModel.vocabulary (.standard 64) gram) :
    (Text.digest gram).toNat % 64 ≠ 0 := by
  have each : ∀ token ∈ wideModel.vocabulary.tokens, ∀ gram ∈ (GramTable.standard 64).grams token,
      (Text.digest gram).toNat % 64 ≠ 0 := by decide +kernel
  obtain ⟨_, -, -, token, -, known, member⟩ := read
  exact each token known gram member

/-- A third word on its own, a sentence of one word, and a bucket that no gram falls into. -/
theorem train_movesEvidence_apart :
    (¬SkipGram.HasEvidence [[0, 1], [2]] [[0], [1], [2]] 2 ∧
      (SkipGram.train [[0, 1], [2]] [[0], [1], [2]] 3 [1, 1, 1] tiedTraining)[2]? =
        some (SkipGram.seededRow tiedTraining 2)) ∧
    (SkipGram.trainSentence .ofStream (.ofTraining tiedTraining [[0]] [1] 1) []
      ⟨.ofSeed 7, 0, #[#[1, 2]], #[#[0, 0]]⟩ [0]).input = #[#[1, 2]] ∧
    train .subword tiedSentences wideTraining = .ok wideModel ∧
    wideModel.vocabulary.size + wideTraining.buckets ≤ UInt32.size ∧
    (∀ gram, IsTrainedGram tiedSentences wideModel.vocabulary (.standard 64) gram →
      (Text.digest gram).toNat % 64 ≠ 0) ∧
    wideModel.matrix[2]? = some (SkipGram.seededRow wideTraining 2) := by
  obtain ⟨rows, sentences, buckets⟩ := train_movesEvidence
  have apart : ¬SkipGram.HasEvidence [[0, 1], [2]] [[0], [1], [2]] 2 := by
    simp [SkipGram.HasEvidence]
  have fits : wideModel.vocabulary.size + wideTraining.buckets ≤ UInt32.size := by decide
  exact ⟨⟨apart, rows _ _ _ _ _ _ (by decide) apart⟩, sentences _ _ (by decide) _, train_wideModel,
    fits, unread_wideModel,
    buckets _ _ _ train_wideModel fits 0 (by decide) unread_wideModel⟩

end Model

end DefectGraphs.Token
