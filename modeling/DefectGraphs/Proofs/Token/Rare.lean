import DefectGraphs.Proofs.Token.Vocabulary
import DefectGraphs.Token.Model

/-!
What training does not see. Tokens that are too rare for the vocabulary and sentences without tokens
may be left out of a corpus: no count, no step and no random number is spent on them.
-/

namespace DefectGraphs.Token

def withoutEmpty (sentences : List (List α)) : List (List α) :=
  sentences.filter (!·.isEmpty)

theorem flatten_withoutEmpty (sentences : List (List α)) :
    (withoutEmpty sentences).flatten = sentences.flatten :=
  List.flatten_filter_not_isEmpty

/-- It does not matter whether empty sentences are left out before a change or only after it. -/
theorem withoutEmpty_map {change : List α → List β} (empty : change [] = [])
    (sentences : List (List α)) :
    withoutEmpty ((withoutEmpty sentences).map change) = withoutEmpty (sentences.map change) := by
  induction sentences with
  | nil => rfl
  | cons sentence rest induction =>
      cases sentence with
      | nil =>
          rw [List.map_cons, empty]
          exact induction
      | cons token later =>
          simp only [withoutEmpty, List.filter_cons, List.map_cons, List.isEmpty_cons,
            Bool.not_false, if_true] at induction ⊢
          rw [induction]

namespace SkipGram

open DefectGraphs.Random

/-- Training passes over a sentence without words. -/
theorem trainEpochs_withoutEmpty (draws : Draws σ) (plan : Plan) (sentences : List (List Nat))
    (epochs : Nat) (state : State σ) :
    trainEpochs draws plan (withoutEmpty sentences) epochs state =
      trainEpochs draws plan sentences epochs state := by
  induction epochs generalizing state with
  | zero => rfl
  | succ epochs induction =>
      have passes : ∀ reached sentence,
          (if (!sentence.isEmpty) = true then trainSentence draws plan [] reached sentence
            else reached) = trainSentence draws plan [] reached sentence := by
        intro reached sentence
        cases sentence <;> rfl
      rw [trainEpochs, trainEpochs, induction, withoutEmpty, List.foldl_filter]
      simp only [passes]

theorem train_withoutEmpty (sentences wordRows : List (List Nat)) (inputRows : Nat)
    (counts : List Nat) (training : Training) :
    train (withoutEmpty sentences) wordRows inputRows counts training =
      train sentences wordRows inputRows counts training := by
  simp only [train, trainFrom, flatten_withoutEmpty, trainEpochs_withoutEmpty]

end SkipGram

namespace Vocabulary

theorem build_congr {sentences others : List (List String)}
    (same : sentences.flatten = others.flatten) (minCount : Nat) :
    build sentences minCount = build others minCount := by
  simp only [build, same]

/-- The sentences that are left without the tokens that are too rare. -/
def withoutRare (minCount : Nat) (sentences : List (List String)) : List (List String) :=
  withoutEmpty (sentences.map (·.filter (isFrequent minCount sentences.flatten)))

variable (minCount : Nat) (sentences : List (List String))

theorem flatten_withoutRare : (withoutRare minCount sentences).flatten =
    sentences.flatten.filter (isFrequent minCount sentences.flatten) := by
  rw [withoutRare, flatten_withoutEmpty, List.filter_flatten]

theorem count_withoutRare {token : String}
    (frequent : isFrequent minCount sentences.flatten token = true) :
    (withoutRare minCount sentences).flatten.count token = sentences.flatten.count token := by
  rw [flatten_withoutRare, List.count_filter frequent]

/-- Tokens stay as frequent as they were, so none of those that are left becomes too rare. -/
theorem filter_withoutRare :
    (withoutRare minCount sentences).flatten.filter
        (isFrequent minCount (withoutRare minCount sentences).flatten) =
      sentences.flatten.filter (isFrequent minCount sentences.flatten) := by
  rw [List.filter_eq_self.mpr, flatten_withoutRare]
  intro token member
  rw [flatten_withoutRare] at member
  have frequent := (List.mem_filter.mp member).2
  rw [isFrequent, count_withoutRare minCount sentences frequent]
  exact frequent

theorem build_withoutRare :
    build (withoutRare minCount sentences) minCount = build sentences minCount := by
  have entries : (build (withoutRare minCount sentences) minCount).entries =
      (build sentences minCount).entries := by
    rw [entries_build, entries_build, filter_withoutRare]
    apply congrArg (List.mergeSort · _)
    apply List.map_congr_left
    intro token member
    have frequent := (List.mem_filter.mp (List.mem_eraseDups.mp member)).2
    rw [count_withoutRare minCount sentences frequent]
  exact congrArg ofEntries entries

theorem indexOf?_build_eq_none {token : String}
    (rare : isFrequent minCount sentences.flatten token = false) :
    (build sentences minCount).indexOf? token = none := by
  rw [indexOf?_eq, List.idxOf?_eq_none_iff, mem_tokens_build]
  rintro ⟨-, enough⟩
  simp [isFrequent, enough] at rare

theorem encode_filter (sentence : List String) :
    (build sentences minCount).encode
        (sentence.filter (isFrequent minCount sentences.flatten)) =
      (build sentences minCount).encode sentence := by
  rw [encode, encode, List.filterMap_filter]
  apply List.filterMap_congr
  intro token _
  split
  · rfl
  next rare =>
    exact (indexOf?_build_eq_none minCount sentences (Bool.not_eq_true _ ▸ rare)).symm

theorem encode_withoutRare :
    withoutEmpty ((withoutRare minCount sentences).map (build sentences minCount).encode) =
      withoutEmpty (sentences.map (build sentences minCount).encode) := by
  rw [withoutRare, withoutEmpty_map rfl, List.map_map]
  exact congrArg withoutEmpty
    (List.map_congr_left fun sentence _ => encode_filter minCount sentences sentence)

end Vocabulary

namespace Model

/-- A model is told by the vocabulary and by the words of the sentences that have any. -/
theorem train_congr {sentences others : List (List String)} {training : Training}
    (built : Vocabulary.build sentences training.minCount = .build others training.minCount)
    (encoded :
      withoutEmpty (sentences.map (Vocabulary.build others training.minCount).encode) =
        withoutEmpty (others.map (Vocabulary.build others training.minCount).encode))
    (backend : Backend) : train backend sentences training = train backend others training := by
  have rows : ∀ grams,
      trainRows sentences (.build others training.minCount) grams training =
        trainRows others (.build others training.minCount) grams training := by
    intro grams
    rw [trainRows, ← SkipGram.train_withoutEmpty, encoded, SkipGram.train_withoutEmpty]
    rfl
  simp only [train, built, rows]

/-- Tokens below the count threshold leave no trace in a model, and graphs without nodes leave none
either, wherever they are added. -/
theorem train_ignoresRare (backend : Backend) (training : Training) :
    (∀ sentences, train backend (Vocabulary.withoutRare training.minCount sentences) training =
      train backend sentences training) ∧
      ∀ before after count,
        train backend (before ++ List.replicate count [] ++ after) training =
          train backend (before ++ after) training := by
  constructor
  · intro sentences
    exact train_congr (Vocabulary.build_withoutRare _ _) (Vocabulary.encode_withoutRare _ _) backend
  · intro before after count
    apply train_congr
    · exact Vocabulary.build_congr (by simp) _
    · simp [withoutEmpty, Vocabulary.encode]

end Model

end DefectGraphs.Token
