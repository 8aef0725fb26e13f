import DefectGraphs.Failure
import DefectGraphs.Token.Grams
import DefectGraphs.Token.SkipGram
import DefectGraphs.Token.Vocabulary

/-!
Token models: a trained matrix with the vocabulary, and with the gram table if there is one, that
tell which of its rows make up the vector of a descriptor.
-/

namespace DefectGraphs.Token

structure Model where
  vocabulary : Vocabulary
  vectorSize : Nat
  /-- Without grams the vocabulary is closed. -/
  grams : Option GramTable
  matrix : Matrix

/-- The rows of a descriptor: its own if it has one, and those of its grams. -/
def inputRows (vocabulary : Vocabulary) (grams : Option GramTable) (descriptor : String) :
    List Nat :=
  (vocabulary.indexOf? descriptor).toList ++
    (grams.map fun table => table.rows vocabulary.size descriptor).getD []

/-- The rows that training moves for each word: the word's own and those of its grams. -/
def wordRows (vocabulary : Vocabulary) (grams : Option GramTable) : List (List Nat) :=
  vocabulary.tokens.zipIdx.map fun (token, index) =>
    index :: (grams.map fun table => table.rows vocabulary.size token).getD []

namespace Model

def backend (model : Model) : Backend :=
  if model.grams.isSome then .subword else .wordRows

/-- A descriptor outside a closed vocabulary has the row of the most frequent one. -/
def vector (model : Model) (descriptor : String) : Row :=
  match model.grams with
  | none => model.matrix.row ((model.vocabulary.indexOf? descriptor).getD 0)
  | some _ => model.matrix.mean model.vectorSize
      (inputRows model.vocabulary model.grams descriptor)

def embedding (model : Model) : Embedding where
  backend := model.backend
  vectorSize := model.vectorSize
  vocabularySize := model.vocabulary.size
  vector := model.vector

def trainRows (sentences : List (List String)) (vocabulary : Vocabulary)
    (grams : Option GramTable) (training : Training) : Model where
  vocabulary
  vectorSize := training.vectorSize
  grams
  matrix :=
    SkipGram.train (sentences.map vocabulary.encode) (wordRows vocabulary grams)
      (vocabulary.size + (grams.map GramTable.buckets).getD 0) vocabulary.counts training

def train (backend : Backend) (sentences : List (List String)) (training : Training) :
    Except Failure Model :=
  if backend = .subword ∧ training.buckets = 0 then
    .error (.settings (.notPositive "subword_buckets"))
  else
    let vocabulary := Vocabulary.build sentences training.minCount
    if vocabulary.entries.isEmpty then .error (.emptyVocabulary training.minCount)
    else
      let grams :=
        match backend with
        | .wordRows => none
        | .subword => some (GramTable.standard training.buckets)
      .ok (trainRows sentences vocabulary grams training)

theorem train_eq_ok {backend : Backend} {sentences : List (List String)} {training : Training}
    {model : Model} :
    train backend sentences training = .ok model ↔
      (backend = .subword → training.buckets ≠ 0) ∧
        (Vocabulary.build sentences training.minCount).entries ≠ [] ∧
        trainRows sentences (.build sentences training.minCount)
          (if backend = .subword then some (GramTable.standard training.buckets) else none)
          training = model := by
  unfold train
  by_cases positive : backend = .subword ∧ training.buckets = 0
  · rw [if_pos positive]
    simp [positive.1, positive.2]
  · rw [if_neg positive]
    by_cases none : (Vocabulary.build sentences training.minCount).entries = []
    · simp [none]
    · cases backend <;> simp_all

end Model

end DefectGraphs.Token
