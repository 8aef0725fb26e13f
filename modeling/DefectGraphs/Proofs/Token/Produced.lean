import DefectGraphs.Proofs.Token.Codec
import DefectGraphs.Proofs.Token.Shape
import DefectGraphs.Proofs.Token.Store
import DefectGraphs.Proofs.Token.Vocabulary

/-!
Models that come out of files which training has filled: the vectors of each have its vector size,
whatever size was asked for, and no descriptor of the sentences is without a row when none is too
rare.
-/

namespace DefectGraphs.Token

/-- The bytes of a model that was trained, on whatever sentences and with whatever settings. -/
def Produced (bytes : ByteArray) : Prop :=
  ∃ backend sentences training model, Model.train backend sentences training = .ok model ∧
    model.toBytes = bytes

namespace Model

theorem WellShaped.ofBits {model : Model} (shape : model.WellShaped) : model.ofBits.WellShaped where
  matrix := shape.matrix.map fun _ => Array.size_map
  vocabulary := shape.vocabulary
  grams := shape.grams

theorem ofBytes?_of_read {backend : Backend} {tree : Files.Tree} {path : Files.Path} {model : Model}
    (read : Model.read backend tree path = .ok model) :
    ∃ bytes, tree.read path = .ok bytes ∧ ofBytes? bytes = some model := by
  unfold Model.read at read
  split at read
  · cases read
  next bytes held =>
    refine ⟨bytes, held, ?_⟩
    split at read
    · cases read
    next found kept =>
      cases read
      exact (Option.filter_eq_some_iff.mp kept).1

theorem wellShaped_of_read {backend : Backend} {tree : Files.Tree} {path : Files.Path}
    {model : Model} (own : ∀ bytes, tree.read path = .ok bytes → Produced bytes)
    (read : Model.read backend tree path = .ok model) : model.WellShaped := by
  obtain ⟨bytes, held, decoded⟩ := ofBytes?_of_read read
  obtain ⟨_, _, _, written, trained, rfl⟩ := own bytes held
  rw [ofBytes?_toBytes] at decoded
  cases decoded
  exact (wellShaped_train trained).ofBits

/-- The model that is there, or else the one that is trained. -/
theorem wellShaped_of_gives_loadOrTrain {source : Source} {backend : Backend} {training : Training}
    {before after : Workspace} {model : Model}
    (own : ∀ bytes, before.tree.read
      (modelPath source.cache backend training.vectorSize training.window) = .ok bytes →
        Produced bytes)
    (gives : (loadOrTrain source backend training).Gives before model after) :
    model.WellShaped := by
  have calls := calls_of_gives gives
  generalize after.tree = left at calls
  cases calls with
  | stored present reads => exact wellShaped_of_read own reads
  | written absent trains writes =>
      obtain ⟨-, sentences, -, -, succeeds⟩ := Source.train_eq_ok.mp trains
      exact (wellShaped_train succeeds).ofBits

/-- A descriptor has a row of its own, which is its vector. -/
structure Resolves (model : Model) (descriptor : String) (index : Nat) : Prop where
  found : model.vocabulary.indexOf? descriptor = some index
  named : model.vocabulary.token? index = some descriptor
  row : model.matrix[index]? = some (model.vector descriptor)

theorem WellShaped.resolves {model : Model} (shape : model.WellShaped) (closed : model.grams = none)
    {descriptor : String} {index : Nat}
    (found : model.vocabulary.indexOf? descriptor = some index) :
    model.Resolves descriptor index where
  found := found
  named := Vocabulary.token?_of_indexOf? found
  row := by
    have stands := shape.getElem?_vector descriptor closed
    rwa [found] at stands

/-- A closed vocabulary that leaves out nothing has every descriptor that it was made of. -/
theorem exists_resolves_of_train {sentences : List (List String)} {training : Training}
    {model : Model} (all : training.minCount ≤ 1)
    (trained : train .wordRows sentences training = .ok model) {descriptor : String}
    (member : descriptor ∈ sentences.flatten) :
    ∃ index, model.ofBits.Resolves descriptor index := by
  obtain ⟨index, found⟩ := Vocabulary.exists_indexOf?_build all member
  have shape := (wellShaped_train trained).ofBits
  obtain ⟨-, -, rfl⟩ := train_eq_ok.mp trained
  exact ⟨index, shape.resolves rfl found⟩

end Model

end DefectGraphs.Token
