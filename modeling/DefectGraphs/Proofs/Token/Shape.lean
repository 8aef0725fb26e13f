import DefectGraphs.Token.Model

/-!
The sizes of rows in training. Whatever is drawn, a step asks for rows that are there and leaves all
of them as long as they were, so the vectors of a trained model have its vector size.
-/

namespace DefectGraphs.Token

@[simp] theorem Row.size_zeros (size : Nat) : (Row.zeros size).size = size :=
  Array.size_replicate

@[simp] theorem Row.size_addScaled (vector added : Row) (scale : Float32) :
    (Row.addScaled vector added scale).size = min vector.size added.size :=
  Array.size_zipWith

open DefectGraphs.Random

variable {σ : Type} (draws : Draws σ)

namespace Matrix

/-- A number of rows that are all of one size. -/
structure HasShape (matrix : Matrix) (rows size : Nat) : Prop where
  size_eq : matrix.size = rows
  size_row : ∀ index < rows, (matrix.row index).size = size

variable {matrix : Matrix} {rows size : Nat}

theorem row_eq {index : Nat} {held : Row} (found : matrix[index]? = some held) :
    matrix.row index = held := by
  rw [row, found, Option.getD_some]

theorem hasShape_replicate (rows size : Nat) :
    HasShape (Array.replicate rows (Row.zeros size)) rows size where
  size_eq := Array.size_replicate
  size_row := by
    intro index within
    have found : (Array.replicate rows (Row.zeros size))[index]? = some (Row.zeros size) := by
      simp [within]
    rw [row_eq found, Row.size_zeros]

namespace HasShape

theorem push (shape : matrix.HasShape rows size) {last : Row} (fits : last.size = size) :
    HasShape (matrix.push last) (rows + 1) size where
  size_eq := by
    rw [Array.size_push, shape.size_eq]
  size_row := by
    intro index within
    rw [row, Array.getElem?_push]
    split
    · exact fits
    · exact shape.size_row index (by have := shape.size_eq; omega)

theorem exists_row (shape : matrix.HasShape rows size) {index : Nat} (within : index < rows) :
    ∃ held : Row, matrix[index]? = some held ∧ held.size = size := by
  obtain ⟨held, found⟩ : ∃ held, matrix[index]? = some held :=
    ⟨_, Array.getElem?_eq_getElem (shape.size_eq ▸ within)⟩
  refine ⟨held, found, ?_⟩
  rw [← row_eq found]
  exact shape.size_row index within

theorem modify (shape : matrix.HasShape rows size) (index : Nat) {change : Row → Row}
    (keeps : ∀ held : Row, held.size = size → (change held).size = size) :
    HasShape (matrix.modify index change) rows size where
  size_eq := by
    rw [Array.size_modify, shape.size_eq]
  size_row := by
    intro other within
    obtain ⟨held, found, sized⟩ := shape.exists_row within
    rw [row, Array.getElem?_modify, found]
    split
    · exact keeps held sized
    · exact sized

theorem map (shape : matrix.HasShape rows size) {change : Row → Row}
    (keeps : ∀ held : Row, (change held).size = held.size) :
    HasShape (Array.map change matrix) rows size where
  size_eq := by
    rw [Array.size_map, shape.size_eq]
  size_row := by
    intro index within
    obtain ⟨held, found, sized⟩ := shape.exists_row within
    rw [row, Array.getElem?_map, found]
    exact (keeps held).trans sized

theorem size_mean (shape : matrix.HasShape rows size) {indices : List Nat}
    (listed : ∀ index ∈ indices, index < rows) : (matrix.mean size indices).size = size := by
  unfold mean
  apply List.foldlRecOn (motive := fun sum : Row => sum.size = size)
  · exact Row.size_zeros size
  · intro sum same index member
    rw [Row.size_addScaled, same, shape.size_row index (listed index member), Nat.min_self]

theorem addToEach (shape : matrix.HasShape rows size) (indices : List Nat) {added : Row}
    (fits : added.size = size) : HasShape (matrix.addToEach indices added) rows size := by
  unfold Matrix.addToEach
  apply List.foldlRecOn (motive := fun matrix : Matrix => matrix.HasShape rows size)
  · exact shape
  · intro changed kept index _
    apply kept.modify index
    intro held same
    rw [Row.size_addScaled, same, fits, Nat.min_self]

end HasShape

theorem size_drawRow (size : Nat) (stream : σ) (row : Row) (count : Nat) :
    (drawRow draws size stream row count).1.size = row.size + count := by
  induction count generalizing stream row with
  | zero => rfl
  | succ count induction =>
      rw [drawRow]
      dsimp only
      rw [induction, Array.size_push, Nat.add_right_comm, Nat.add_assoc]

theorem HasShape.drawRows (shape : matrix.HasShape rows size) (stream : σ) (count : Nat) :
    (drawRows draws size stream matrix count).1.HasShape (rows + count) size := by
  induction count generalizing stream matrix rows with
  | zero => exact shape
  | succ count induction =>
      have drawn : (drawRow draws size stream #[] size).1.size = size := by
        rw [size_drawRow, Array.size_empty, Nat.zero_add]
      rw [Matrix.drawRows, Nat.add_succ, ← Nat.succ_add]
      exact induction (shape.push drawn) _

theorem hasShape_random (rows size : Nat) (stream : σ) :
    (random draws rows size stream).1.HasShape rows size := by
  have empty : HasShape #[] 0 size := ⟨rfl, by simp⟩
  have drawn := empty.drawRows draws stream rows
  rwa [Nat.zero_add] at drawn

end Matrix

namespace Sampler

theorem size_foldl_fst {step : Array β × γ → α → Array β × γ}
    (grows : ∀ sums element, (step sums element).1.size = sums.1.size + 1) (elements : List α)
    (start : Array β × γ) :
    (elements.foldl step start).1.size = start.1.size + elements.length := by
  induction elements generalizing start with
  | nil => rfl
  | cons element rest induction =>
      rw [List.foldl_cons, induction, grows, List.length_cons, Nat.add_right_comm, Nat.add_assoc]

theorem size_runningSums (counts : List Nat) : (runningSums counts).size = counts.length := by
  rw [runningSums, size_foldl_fst, Array.size_empty, Nat.zero_add]
  intro sums count
  exact Array.size_push _

theorem wordAt_lt {sampler : Sampler} (some : 0 < sampler.running.size) (fraction : Float) :
    sampler.wordAt fraction < sampler.running.size := by
  unfold wordAt
  dsimp only
  omega

theorem sample_lt {sampler : Sampler} (some : 0 < sampler.running.size) (stream : σ) :
    (sampler.sample draws stream).1 < sampler.running.size :=
  wordAt_lt some _

end Sampler

namespace SkipGram

/-- The rows that a plan speaks of, and the words that it samples, are within bounds. -/
structure Plan.Within (plan : Plan) (rows words : Nat) : Prop where
  rows_lt : ∀ word : Nat, ∀ index ∈ plan.wordRows[word]?.getD [], index < rows
  size_running : plan.sampler.running.size = words

structure State.HasShape (state : State σ) (rows words size : Nat) : Prop where
  input : state.input.HasShape rows size
  output : state.output.HasShape words size

variable {plan : Plan} {rows words : Nat} {state : State σ}

theorem contrast_hasShape {hidden gradient : Row} {output : Matrix} {size word : Nat}
    (shape : output.HasShape words size) (within : word < words) (fits : hidden.size = size)
    (same : gradient.size = size) (rate label : Float32) :
    (contrast hidden rate label word gradient output).1.size = size ∧
      (contrast hidden rate label word gradient output).2.HasShape words size := by
  unfold contrast
  dsimp only
  refine ⟨?_, ?_⟩
  · rw [Array.size_zipWith, same, shape.size_row word within, Nat.min_self]
  · apply shape.modify word
    intro held sized
    rw [Array.size_zipWith, sized, fits, Nat.min_self]

theorem contrastSamples_hasShape {sampler : Sampler} {hidden gradient : Row} {output : Matrix}
    {size : Nat} (sized : sampler.running.size = words) (some : 0 < words)
    (fits : hidden.size = size) (rate : Float32) (target count : Nat) (stream : σ)
    (shape : output.HasShape words size) (same : gradient.size = size) :
    (contrastSamples draws sampler hidden rate target count stream gradient output).1.size = size ∧
      (contrastSamples draws sampler hidden rate target count stream gradient output).2.1.HasShape
        words size := by
  induction count generalizing stream gradient output with
  | zero => exact ⟨same, shape⟩
  | succ count induction =>
      have within : (sampler.sample draws stream).1 < words := by
        rw [← sized] at some ⊢
        exact Sampler.sample_lt draws some stream
      rw [contrastSamples]
      dsimp only
      split
      · exact induction _ shape same
      · obtain ⟨same, shape⟩ := contrast_hasShape shape within fits same rate 0
        exact induction _ shape same

theorem trainPair_hasShape (within : plan.Within rows words)
    (shape : state.HasShape rows words plan.vectorSize) {indices : List Nat}
    (listed : ∀ index ∈ indices, index < rows) (rate : Float32) {target : Nat}
    (known : target < words) :
    (trainPair draws plan indices rate state target).HasShape rows words plan.vectorSize := by
  have fits : (state.input.mean plan.vectorSize indices).size = plan.vectorSize :=
    shape.input.size_mean listed
  have some : 0 < words := Nat.zero_lt_of_lt known
  obtain ⟨same, output⟩ := contrast_hasShape shape.output known fits
    (Row.size_zeros plan.vectorSize) rate 1
  obtain ⟨same, output⟩ := contrastSamples_hasShape draws within.size_running some fits rate target
    plan.negative state.stream output same
  exact ⟨shape.input.addToEach indices same, output⟩

theorem mem_of_mem_context {before after : List Nat} {reach word : Nat}
    (member : word ∈ context before after reach) : word ∈ before ∨ word ∈ after :=
  (List.mem_append.mp member).imp (fun left => List.mem_of_mem_take (List.mem_reverse.mp left))
    List.mem_of_mem_take

theorem trainWord_hasShape (within : plan.Within rows words)
    (shape : state.HasShape rows words plan.vectorSize) {before after : List Nat}
    (earlier : ∀ word ∈ before, word < words) (later : ∀ word ∈ after, word < words) (word : Nat) :
    (trainWord draws plan before after state word).HasShape rows words plan.vectorSize := by
  unfold trainWord
  dsimp only
  split
  · exact ⟨shape.input, shape.output⟩
  · apply List.foldlRecOn
      (motive := fun state : State σ => state.HasShape rows words plan.vectorSize)
    · exact ⟨shape.input, shape.output⟩
    · intro reached kept target member
      apply trainPair_hasShape draws within kept (within.rows_lt word)
      rcases mem_of_mem_context member with left | right
      · exact earlier target left
      · exact later target right

theorem trainSentence_hasShape (within : plan.Within rows words) {before sentence : List Nat}
    (shape : state.HasShape rows words plan.vectorSize) (earlier : ∀ word ∈ before, word < words)
    (known : ∀ word ∈ sentence, word < words) :
    (trainSentence draws plan before state sentence).HasShape rows words plan.vectorSize := by
  induction sentence generalizing before state with
  | nil => exact shape
  | cons word after induction =>
      obtain ⟨first, later⟩ := List.forall_mem_cons.mp known
      rw [trainSentence]
      apply induction (trainWord_hasShape draws within shape earlier later word) _ later
      rw [List.forall_mem_cons]
      exact ⟨first, earlier⟩

theorem trainEpochs_hasShape (within : plan.Within rows words) {sentences : List (List Nat)}
    (known : ∀ sentence ∈ sentences, ∀ word ∈ sentence, word < words) (epochs : Nat)
    (shape : state.HasShape rows words plan.vectorSize) :
    (trainEpochs draws plan sentences epochs state).HasShape rows words plan.vectorSize := by
  induction epochs generalizing state with
  | zero => exact shape
  | succ epochs induction =>
      rw [trainEpochs]
      apply induction
      apply List.foldlRecOn
        (motive := fun state : State σ => state.HasShape rows words plan.vectorSize)
      · exact shape
      · intro reached kept sentence member
        exact trainSentence_hasShape draws within kept (List.forall_mem_nil _)
          (known sentence member)

theorem Plan.within_ofTraining {wordRows : List (List Nat)}
    (listed : ∀ indices ∈ wordRows, ∀ index ∈ indices, index < rows) (training : Training)
    (counts : List Nat) (totalSteps : Nat) :
    (Plan.ofTraining training wordRows counts totalSteps).Within rows counts.length where
  rows_lt := by
    intro word index member
    rw [ofTraining, List.getElem?_toArray] at member
    cases found : wordRows[word]? with
    | none => simp [found] at member
    | some indices =>
        rw [found] at member
        exact listed indices (List.mem_of_getElem? found) index member
  size_running := Sampler.size_runningSums counts

theorem trainFrom_hasShape {sentences wordRows : List (List Nat)} {counts : List Nat}
    (known : ∀ sentence ∈ sentences, ∀ word ∈ sentence, word < counts.length)
    (listed : ∀ indices ∈ wordRows, ∀ index ∈ indices, index < rows) (training : Training)
    (stream : σ) :
    (trainFrom draws stream sentences wordRows rows counts training).HasShape rows
      training.vectorSize := by
  have drawn := Matrix.hasShape_random draws rows training.vectorSize stream
  unfold trainFrom
  dsimp only
  split
  · exact drawn
  · have zeros := Matrix.hasShape_replicate counts.length training.vectorSize
    have within := Plan.within_ofTraining listed training counts
      (sentences.flatten.length * training.epochs)
    exact (trainEpochs_hasShape draws within known training.epochs ⟨drawn, zeros⟩).input

end SkipGram

section InputRows

theorem Vocabulary.indexOf?_lt {vocabulary : Vocabulary} {token : String} {index : Nat}
    (found : vocabulary.indexOf? token = some index) : index < vocabulary.size := by
  rw [indexOf?_eq, List.idxOf?_eq_some_iff] at found
  obtain ⟨within, -⟩ := found
  rwa [tokens, List.length_map] at within

theorem Vocabulary.encode_lt {vocabulary : Vocabulary} {sentence : List String} {word : Nat}
    (member : word ∈ vocabulary.encode sentence) : word < vocabulary.size := by
  obtain ⟨token, -, found⟩ := List.mem_filterMap.mp member
  exact indexOf?_lt found

theorem GramTable.rows_lt {table : GramTable} (some : 0 < table.buckets) {offset : Nat}
    {token : String} {index : Nat} (member : index ∈ table.rows offset token) :
    index < offset + table.buckets := by
  obtain ⟨gram, -, same⟩ := List.mem_map.mp member
  subst same
  exact row_lt some offset _

def rowCount (vocabulary : Vocabulary) (grams : Option GramTable) : Nat :=
  vocabulary.size + (grams.map GramTable.buckets).getD 0

section Rows

variable {vocabulary : Vocabulary} {grams : Option GramTable}
  (some : ∀ table ∈ grams, 0 < table.buckets)

include some

theorem gramRows_lt {descriptor : String} {index : Nat}
    (member : index ∈ (grams.map fun table => table.rows vocabulary.size descriptor).getD []) :
    index < rowCount vocabulary grams := by
  cases grams with
  | none => cases member
  | some table => exact GramTable.rows_lt (some table rfl) member

theorem inputRows_lt {descriptor : String} {index : Nat}
    (member : index ∈ inputRows vocabulary grams descriptor) :
    index < rowCount vocabulary grams := by
  rcases List.mem_append.mp member with own | others
  · have known := Vocabulary.indexOf?_lt (Option.mem_toList.mp own)
    exact Nat.lt_add_right _ known
  · exact gramRows_lt some others

theorem wordRows_lt {indices : List Nat} (listed : indices ∈ wordRows vocabulary grams)
    {index : Nat} (member : index ∈ indices) : index < rowCount vocabulary grams := by
  obtain ⟨⟨token, own⟩, placed, rfl⟩ := List.mem_map.mp listed
  rcases List.mem_cons.mp member with rfl | others
  · have within := (List.mem_zipIdx' placed).1
    rw [Vocabulary.tokens, List.length_map] at within
    exact Nat.lt_add_right _ within
  · exact gramRows_lt some others

end Rows

end InputRows

namespace Model

/-- All rows that a descriptor can have are there, and have the vector size. -/
structure WellShaped (model : Model) : Prop where
  matrix : model.matrix.HasShape (rowCount model.vocabulary model.grams) model.vectorSize
  vocabulary : 0 < model.vocabulary.size
  grams : ∀ table ∈ model.grams, 0 < table.buckets

section Lookup

variable {model : Model} (shape : model.WellShaped) (descriptor : String)

include shape

theorem WellShaped.place_lt :
    (model.vocabulary.indexOf? descriptor).getD 0 < rowCount model.vocabulary model.grams := by
  apply Nat.lt_add_right
  cases found : model.vocabulary.indexOf? descriptor with
  | none => exact shape.vocabulary
  | some index => exact Vocabulary.indexOf?_lt found

/-- The vector of a descriptor is a row of the matrix where the vocabulary is closed. -/
theorem WellShaped.getElem?_vector (closed : model.grams = none) :
    model.matrix[(model.vocabulary.indexOf? descriptor).getD 0]? =
      some (model.vector descriptor) := by
  obtain ⟨row, found, -⟩ := shape.matrix.exists_row (shape.place_lt descriptor)
  rw [vector, closed]
  dsimp only
  rw [Matrix.row_eq found, found]

theorem WellShaped.size_vector : (model.vector descriptor).size = model.vectorSize := by
  unfold vector
  split
  · exact shape.matrix.size_row _ (shape.place_lt descriptor)
  · apply shape.matrix.size_mean
    intro index
    exact inputRows_lt shape.grams

end Lookup

/-- The model that training makes of any random numbers. -/
def trainRowsFrom (stream : σ) (sentences : List (List String)) (vocabulary : Vocabulary)
    (grams : Option GramTable) (training : Training) : Model where
  vocabulary
  vectorSize := training.vectorSize
  grams
  matrix := SkipGram.trainFrom draws stream (sentences.map vocabulary.encode)
    (wordRows vocabulary grams) (rowCount vocabulary grams) vocabulary.counts training

section TrainRows

variable {vocabulary : Vocabulary} {grams : Option GramTable}

theorem known_of_mem_encode {sentences : List (List String)} :
    ∀ sentence ∈ sentences.map vocabulary.encode, ∀ word ∈ sentence,
      word < vocabulary.counts.length := by
  intro sentence member word known
  obtain ⟨tokens, -, rfl⟩ := List.mem_map.mp member
  rw [Vocabulary.counts, List.length_map]
  exact Vocabulary.encode_lt known

theorem wellShaped_trainRowsFrom (nonempty : 0 < vocabulary.size)
    (some : ∀ table ∈ grams, 0 < table.buckets) (stream : σ) (sentences : List (List String))
    (training : Training) :
    (trainRowsFrom draws stream sentences vocabulary grams training).WellShaped where
  matrix := by
    apply SkipGram.trainFrom_hasShape draws known_of_mem_encode
    intro indices member index
    exact wordRows_lt some member
  vocabulary := nonempty
  grams := some

end TrainRows

theorem wellShaped_train {backend : Backend} {sentences : List (List String)} {training : Training}
    {model : Model} (trained : train backend sentences training = .ok model) :
    model.WellShaped := by
  obtain ⟨positive, nonempty, rfl⟩ := train_eq_ok.mp trained
  apply wellShaped_trainRowsFrom .ofStream
  · exact List.length_pos_iff.mpr nonempty
  · cases backend with
    | wordRows => simp
    | subword => simpa [GramTable.standard, Nat.pos_iff_ne_zero] using positive

end Model

end DefectGraphs.Token
