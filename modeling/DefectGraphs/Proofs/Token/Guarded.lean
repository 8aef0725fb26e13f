import DefectGraphs.Proofs.Token.Memory

/-!
Training with nothing taken for granted: rows and words are looked up, a range that is drawn from
has to hold a number, the context of a word has to lie in its sentence and every number has to fit
its bits. Such training does not fail and gives what training gives, whatever numbers are drawn.
-/

namespace DefectGraphs.Token

open DefectGraphs.Random SkipGram

namespace Guarded

variable {σ : Type} (draws : Draws σ)

structure State (σ : Type) where
  stream : σ
  step : Nat
  input : Memory
  output : Memory

def random? (rows size : Nat) (stream : σ) : Option (Memory × σ) := do
  let count ← number64? (rows * size)
  let (components, stream) := Matrix.drawRow draws size stream #[] count
  some (⟨rows, size, components⟩, stream)

def zeros? (rows size : Nat) : Option Memory := do
  let count ← number64? (rows * size)
  some ⟨rows, size, Row.zeros count⟩

def sample? (sampler : Sampler) (stream : σ) : Option (Nat × σ) := do
  let (fraction, stream) := draws.double stream
  let word ← number32? (sampler.wordAt fraction)
  some (word, stream)

def contrast? (hidden : Row) (rate label : Float32) (word : Nat) (gradient : Row)
    (output : Memory) : Option (Row × Memory) := do
  let row ← output.row? word
  let weight := (label - sigmoid (Row.dot hidden row)) * rate
  let output ← output.modify? word fun row =>
    Array.zipWith (fun component other => component + weight * other) row hidden
  some (Array.zipWith (fun component other => component + weight * other) gradient row, output)

def contrastSamples? (sampler : Sampler) (hidden : Row) (rate : Float32) (target : Nat) :
    Nat → σ → Row → Memory → Option (Row × Memory × σ)
  | 0, stream, gradient, output => some (gradient, output, stream)
  | count + 1, stream, gradient, output => do
    let (word, stream) ← sample? draws sampler stream
    if word = target then
      contrastSamples? sampler hidden rate target count stream gradient output
    else
      let (gradient, output) ← contrast? hidden rate 0 word gradient output
      contrastSamples? sampler hidden rate target count stream gradient output

def trainPair? (plan : Plan) (rows : List Nat) (rate : Float32) (state : State σ) (target : Nat) :
    Option (State σ) := do
  let hidden ← state.input.mean? rows
  let (gradient, output) ←
    contrast? hidden rate 1 target (Row.zeros plan.vectorSize) state.output
  let (gradient, output, stream) ←
    contrastSamples? draws plan.sampler hidden rate target plan.negative state.stream gradient
      output
  let input ← state.input.addToEach? rows gradient
  some ⟨stream, state.step, input, output⟩

/-- The words around a place of a sentence, in a range that has to hold the place and to lie in the
sentence. -/
def targets? (sentence : Array Nat) (place reach : Nat) : Option (List Nat) := do
  let start := place - reach
  let stop := min (← number64? (place + reach + 1)) sentence.size
  if start ≤ place ∧ place < stop ∧ stop ≤ sentence.size then
    ((List.range' start (stop - start)).filter (· ≠ place)).mapM (sentence[·]?)
  else none

/-- A number below a bound that is positive. -/
def below? (stream : σ) (bound : Nat) : Option (Nat × σ) :=
  if 0 < bound then some (draws.below stream bound) else none

def trainWord? (plan : Plan) (sentence : Array Nat) (state : State σ) (place : Nat) :
    Option (State σ) := do
  let word ← sentence[place]?
  let rows ← plan.wordRows[word]?
  let step ← number64? (state.step + 1)
  if rows.isEmpty then some { state with step }
  else
    let (drawn, stream) ← below? draws state.stream plan.window
    let targets ← targets? sentence place (drawn + 1)
    targets.foldlM (trainPair? draws plan rows (rate plan state.step)) { state with stream, step }

def trainSentence? (plan : Plan) (state : State σ) (sentence : List Nat) : Option (State σ) :=
  (List.range sentence.length).foldlM (trainWord? draws plan sentence.toArray) state

def trainEpochs? (plan : Plan) (sentences : List (List Nat)) : Nat → State σ → Option (State σ)
  | 0, state => some state
  | epochs + 1, state => do
    let state ← sentences.foldlM (trainSentence? draws plan) state
    trainEpochs? plan sentences epochs state

def trainFrom? (stream : σ) (sentences wordRows : List (List Nat)) (inputRows : Nat)
    (counts : List Nat) (training : Training) : Option Memory := do
  let (input, stream) ← random? draws inputRows training.vectorSize stream
  let output ← zeros? counts.length training.vectorSize
  if counts.isEmpty then some input
  else
    let words ← number64? sentences.flatten.length
    let totalSteps ← number64? (words * training.epochs)
    let plan := .ofTraining training wordRows counts totalSteps
    let after ← trainEpochs? draws plan sentences training.epochs ⟨stream, 0, input, output⟩
    some after.input

/-- What a plan has to keep to for its numbers to fit their bits and for its words to have rows. -/
structure Ready (plan : Plan) (rows words : Nat) : Prop extends plan.Within rows words where
  size_wordRows : plan.wordRows.size = words
  input_fits : rows * plan.vectorSize < UInt64.size
  output_fits : words * plan.vectorSize < UInt64.size
  words_fit : words < UInt32.size
  window_pos : 0 < plan.window

section Pair

theorem contrast?_ofMatrix {output : Matrix} {words size word : Nat}
    (shape : output.HasShape words size) (fits : words * size < UInt64.size)
    (within : word < words) (hidden gradient : Row) (rate label : Float32) :
    contrast? hidden rate label word gradient (.ofMatrix size output) =
      some ((contrast hidden rate label word gradient output).1,
        .ofMatrix size (contrast hidden rate label word gradient output).2) := by
  simp only [contrast?, Memory.row?_ofMatrix shape fits within,
    Memory.modify?_ofMatrix shape fits within, Option.bind_eq_bind, Option.bind_some]
  rfl

theorem sample?_eq {sampler : Sampler} (some : 0 < sampler.running.size)
    (fits : sampler.running.size < UInt32.size) (stream : σ) :
    sample? draws sampler stream = .some (sampler.sample draws stream) := by
  have small : sampler.wordAt (draws.double stream).1 < UInt32.size :=
    Nat.lt_trans (Sampler.wordAt_lt some _) fits
  simp only [sample?, number32?_of_lt small, Option.bind_eq_bind, Option.bind_some]
  rfl

theorem contrastSamples?_ofMatrix {sampler : Sampler} {hidden gradient : Row} {output : Matrix}
    {words size : Nat} (sized : sampler.running.size = words) (some : 0 < words)
    (small : words < UInt32.size) (room : words * size < UInt64.size)
    (fits : hidden.size = size) (rate : Float32) (target count : Nat) (stream : σ)
    (shape : output.HasShape words size) (same : gradient.size = size) :
    contrastSamples? draws sampler hidden rate target count stream gradient
        (.ofMatrix size output) =
      .some ((contrastSamples draws sampler hidden rate target count stream gradient output).1,
        .ofMatrix size
          (contrastSamples draws sampler hidden rate target count stream gradient output).2.1,
        (contrastSamples draws sampler hidden rate target count stream gradient output).2.2) := by
  induction count generalizing stream gradient output with
  | zero => rfl
  | succ count induction =>
      have some' : 0 < sampler.running.size := sized ▸ some
      have within := Sampler.sample_lt draws some' stream
      rw [sized] at within
      simp only [contrastSamples?, contrastSamples, sample?_eq draws some' (sized ▸ small) stream,
        Option.bind_eq_bind, Option.bind_some]
      split
      · exact induction _ shape same
      · obtain ⟨same, shape'⟩ := contrast_hasShape shape within fits same rate 0
        rw [contrast?_ofMatrix shape room within, Option.bind_some]
        exact induction _ shape' same

variable {plan : Plan} {rows words : Nat} {state : SkipGram.State σ}

def State.ofState (size : Nat) (state : SkipGram.State σ) : State σ :=
  ⟨state.stream, state.step, .ofMatrix size state.input, .ofMatrix size state.output⟩

theorem trainPair?_ofState (ready : Ready plan rows words)
    (shape : state.HasShape rows words plan.vectorSize) {indices : List Nat}
    (listed : ∀ index ∈ indices, index < rows) (rate : Float32) {target : Nat}
    (known : target < words) :
    trainPair? draws plan indices rate (.ofState plan.vectorSize state) target =
      some (.ofState plan.vectorSize (trainPair draws plan indices rate state target)) := by
  have fits : (state.input.mean plan.vectorSize indices).size = plan.vectorSize :=
    shape.input.size_mean listed
  have some : 0 < words := Nat.zero_lt_of_lt known
  obtain ⟨same, output⟩ := contrast_hasShape shape.output known fits
    (Row.size_zeros plan.vectorSize) rate 1
  obtain ⟨same', -⟩ := contrastSamples_hasShape draws ready.size_running some fits rate target
    plan.negative state.stream output same
  simp only [trainPair?, State.ofState, Memory.mean?_ofMatrix shape.input ready.input_fits listed,
    contrast?_ofMatrix shape.output ready.output_fits known,
    contrastSamples?_ofMatrix draws ready.size_running some ready.words_fit ready.output_fits fits
      rate target plan.negative state.stream output same,
    Memory.addToEach?_ofMatrix shape.input ready.input_fits listed same',
    Option.bind_eq_bind, Option.bind_some]
  rfl

end Pair

section Context

theorem mapM_getElem?_range' (sentence : List Nat) {start count : Nat}
    (within : start + count ≤ sentence.length) :
    (List.range' start count).mapM (sentence.toArray[·]?) =
      some ((sentence.drop start).take count) := by
  induction count generalizing start with
  | zero => rfl
  | succ count induction =>
      have inside : start < sentence.length := by omega
      rw [List.range'_succ, List.mapM_cons, induction (by omega), List.getElem?_toArray,
        List.drop_eq_getElem_cons inside, List.getElem?_eq_getElem inside]
      rfl

theorem filter_range'_ne (place left right : Nat) (fits : left ≤ place) :
    (List.range' (place - left) (left + 1 + right)).filter (· ≠ place) =
      List.range' (place - left) left ++ List.range' (place + 1) right := by
  have cut : List.range' (place - left) (left + 1 + right) =
      List.range' (place - left) left ++ place :: List.range' (place + 1) right := by
    rw [Nat.add_assoc, ← List.range'_append_1, Nat.sub_add_cancel fits, Nat.add_comm 1 right,
      List.range'_succ]
  rw [cut, List.filter_append, List.filter_cons_of_neg (by simp), List.filter_eq_self.mpr,
    List.filter_eq_self.mpr]
  · intro other member
    have := List.mem_range'_1.mp member
    simp only [decide_eq_true_eq]
    omega
  · intro other member
    have := List.mem_range'_1.mp member
    simp only [decide_eq_true_eq]
    omega

/-- The range around a place goes from the words before it to those after it. -/
theorem targets?_eq (before after : List Nat) (word : Nat) {reach : Nat}
    (room : before.length + reach + 1 < UInt64.size) :
    targets? (before.reverse ++ word :: after).toArray before.length reach =
      some (context before after reach) := by
  have size : (before.reverse ++ word :: after).length = before.length + 1 + after.length := by
    rw [List.length_append, List.length_reverse, List.length_cons]
    omega
  have start : before.length - reach = before.length - min reach before.length := by omega
  have stop : min (before.length + reach + 1) (before.length + 1 + after.length) -
      (before.length - min reach before.length) =
        min reach before.length + 1 + min reach after.length := by omega
  have earlier : ((before.reverse ++ word :: after).drop
      (before.length - min reach before.length)).take (min reach before.length) =
        (before.take reach).reverse := by
    rw [List.drop_append_of_le_length (by simp), List.take_append_of_le_length (by simp; omega),
      List.drop_reverse, List.take_of_length_le (by simp; omega)]
    congr 1
    rw [List.take_eq_take_iff]
    omega
  have later : ((before.reverse ++ word :: after).drop (before.length + 1)).take
      (min reach after.length) = after.take reach := by
    have rest : (before.reverse ++ word :: after).drop (before.length + 1) = after := by
      simp [List.drop_append]
    rw [rest, List.take_eq_take_iff]
    omega
  simp only [targets?, number64?_of_lt room, Option.bind_eq_bind, Option.bind_some,
    List.size_toArray, size, start, stop]
  rw [if_pos (by omega), filter_range'_ne _ _ _ (Nat.min_le_right _ _), List.mapM_append,
    mapM_getElem?_range' _ (by omega), mapM_getElem?_range' _ (by omega), earlier, later]
  rfl

end Context

section Step

variable (plan : Plan) (state : SkipGram.State σ)

theorem step_trainWord (before after : List Nat) (word : Nat) :
    (trainWord draws plan before after state word).step = state.step + 1 := by
  unfold trainWord
  dsimp only
  split
  · rfl
  · apply List.foldlRecOn
      (motive := fun reached : SkipGram.State σ => reached.step = state.step + 1)
    · rfl
    · intro reached same target _
      exact same

theorem step_trainSentence (before sentence : List Nat) :
    (trainSentence draws plan before state sentence).step = state.step + sentence.length := by
  induction sentence generalizing before state with
  | nil => rfl
  | cons word after induction =>
      rw [trainSentence, induction, step_trainWord, List.length_cons, Nat.add_assoc,
        Nat.add_comm 1]

theorem step_foldl_trainSentence (sentences : List (List Nat)) :
    (sentences.foldl (fun state sentence => trainSentence draws plan [] state sentence)
      state).step = state.step + sentences.flatten.length := by
  induction sentences generalizing state with
  | nil => rfl
  | cons sentence rest induction =>
      rw [List.foldl_cons, induction, step_trainSentence, List.flatten_cons, List.length_append,
        Nat.add_assoc]

end Step

section Run

variable {plan : Plan} {rows words : Nat} {state : SkipGram.State σ}
  (ready : Ready plan rows words)

include ready

theorem trainWord?_ofState (shape : state.HasShape rows words plan.vectorSize)
    {before after : List Nat} {word : Nat}
    (known : ∀ other ∈ before.reverse ++ word :: after, other < words)
    (step : state.step + 1 < UInt64.size)
    (room : (before.reverse ++ word :: after).length + plan.window < UInt64.size) :
    trainWord? draws plan (before.reverse ++ word :: after).toArray
        (.ofState plan.vectorSize state) before.length =
      some (.ofState plan.vectorSize (trainWord draws plan before after state word)) := by
  have here : (before.reverse ++ word :: after).toArray[before.length]? = some word := by
    simp
  have within : word < plan.wordRows.size := by
    rw [ready.size_wordRows]
    exact known word (by simp)
  have listed := ready.rows_lt word
  have found := Array.getElem?_eq_getElem within
  rw [found, Option.getD_some] at listed
  have drawn := draws.below_lt state.stream plan.window ready.window_pos
  have reach : before.length + ((draws.below state.stream plan.window).1 + 1) + 1 <
      UInt64.size := by
    rw [List.length_append, List.length_reverse, List.length_cons] at room
    omega
  simp only [trainWord?, trainWord, State.ofState, here, found, number64?_of_lt step,
    Option.bind_eq_bind, Option.bind_some, Option.getD_some]
  split
  · rfl
  · simp only [below?, if_pos ready.window_pos, targets?_eq before after word reach,
      Option.bind_some]
    have begins : SkipGram.State.HasShape
        ⟨(draws.below state.stream plan.window).2, state.step + 1, state.input, state.output⟩
        rows words plan.vectorSize := ⟨shape.input, shape.output⟩
    apply foldlM_eq_some (State.ofState plan.vectorSize)
      (fun reached : SkipGram.State σ => reached.HasShape rows words plan.vectorSize) begins
    intro reached kept target member
    have target_lt : target < words := by
      apply known
      rcases mem_of_mem_context member with left | right
      · exact List.mem_append_left _ (List.mem_reverse.mpr left)
      · exact List.mem_append_right _ (List.mem_cons_of_mem word right)
    exact ⟨trainPair?_ofState draws ready kept listed _ target_lt,
      trainPair_hasShape draws ready.toWithin kept listed _ target_lt⟩

theorem trainSentence?_ofState (shape : state.HasShape rows words plan.vectorSize)
    {sentence : List Nat} (known : ∀ word ∈ sentence, word < words)
    (step : state.step + sentence.length < UInt64.size)
    (room : sentence.length + plan.window < UInt64.size) :
    trainSentence? draws plan (.ofState plan.vectorSize state) sentence =
      some (.ofState plan.vectorSize (trainSentence draws plan [] state sentence)) := by
  -- Words that are done stand before the others, the last one first.
  have places : ∀ (rest before : List Nat) (reached : SkipGram.State σ),
      sentence = before.reverse ++ rest →
      reached.HasShape rows words plan.vectorSize →
      reached.step + rest.length < UInt64.size →
      (List.range' before.length rest.length).foldlM (trainWord? draws plan sentence.toArray)
          (.ofState plan.vectorSize reached) =
        some (.ofState plan.vectorSize (trainSentence draws plan before reached rest)) := by
    intro rest
    induction rest with
    | nil => exact fun _ _ _ _ _ => rfl
    | cons word after induction =>
        rintro before reached rfl shape step
        rw [List.length_cons] at step
        have earlier : ∀ other ∈ before, other < words := fun other member =>
          known other (List.mem_append_left _ (List.mem_reverse.mpr member))
        have later : ∀ other ∈ after, other < words := fun other member =>
          known other (List.mem_append_right _ (List.mem_cons_of_mem word member))
        rw [List.length_cons, List.range'_succ, List.foldlM_cons,
          trainWord?_ofState draws ready shape known (by omega) room, trainSentence]
        apply induction (word :: before) _ (by simp)
          (trainWord_hasShape draws ready.toWithin shape earlier later word)
        rw [step_trainWord]
        omega
  rw [trainSentence?, List.range_eq_range']
  exact places sentence [] state rfl shape step

theorem foldlM_trainSentence?_ofState (shape : state.HasShape rows words plan.vectorSize)
    {sentences : List (List Nat)} (known : ∀ sentence ∈ sentences, ∀ word ∈ sentence, word < words)
    (step : state.step + sentences.flatten.length < UInt64.size)
    (room : ∀ sentence ∈ sentences, sentence.length + plan.window < UInt64.size) :
    sentences.foldlM (trainSentence? draws plan) (.ofState plan.vectorSize state) =
      some (.ofState plan.vectorSize (sentences.foldl
        (fun state sentence => trainSentence draws plan [] state sentence) state)) := by
  induction sentences generalizing state with
  | nil => rfl
  | cons sentence rest induction =>
      rw [List.forall_mem_cons] at known room
      rw [List.flatten_cons, List.length_append] at step
      rw [List.foldlM_cons,
        trainSentence?_ofState draws ready shape known.1 (by omega) room.1]
      apply induction _ known.2 _ room.2
      · exact trainSentence_hasShape draws ready.toWithin shape (List.forall_mem_nil _) known.1
      · rw [step_trainSentence]
        omega

theorem trainEpochs?_ofState (shape : state.HasShape rows words plan.vectorSize)
    {sentences : List (List Nat)} (known : ∀ sentence ∈ sentences, ∀ word ∈ sentence, word < words)
    {epochs : Nat} (step : state.step + sentences.flatten.length * epochs < UInt64.size)
    (room : ∀ sentence ∈ sentences, sentence.length + plan.window < UInt64.size) :
    trainEpochs? draws plan sentences epochs (.ofState plan.vectorSize state) =
      some (.ofState plan.vectorSize (trainEpochs draws plan sentences epochs state)) := by
  induction epochs generalizing state with
  | zero => rfl
  | succ epochs induction =>
      rw [Nat.mul_succ] at step
      rw [trainEpochs?, trainEpochs,
        foldlM_trainSentence?_ofState draws ready shape known (by omega) room]
      apply induction
      · exact trainEpochs_hasShape draws ready.toWithin known 1 shape
      · rw [step_foldl_trainSentence]
        omega

end Run

section Whole

theorem drawRow_append (size : Nat) (stream : σ) (front row : Row) (count : Nat) :
    Matrix.drawRow draws size stream (front ++ row) count =
      (front ++ (Matrix.drawRow draws size stream row count).1,
        (Matrix.drawRow draws size stream row count).2) := by
  induction count generalizing stream row with
  | zero => rfl
  | succ count induction =>
      simp only [Matrix.drawRow, ← Array.append_push, induction]

theorem drawRow_add (size : Nat) (stream : σ) (row : Row) (first second : Nat) :
    Matrix.drawRow draws size stream row (first + second) =
      Matrix.drawRow draws size (Matrix.drawRow draws size stream row first).2
        (Matrix.drawRow draws size stream row first).1 second := by
  induction first generalizing stream row with
  | zero => rw [Nat.zero_add, Matrix.drawRow]
  | succ first induction =>
      rw [Nat.succ_add, Matrix.drawRow, Matrix.drawRow]
      exact induction _ _

/-- Rows that are drawn one after the other are one long row. -/
theorem flatten_drawRows (size : Nat) (stream : σ) (matrix : Matrix) (count : Nat) :
    Matrix.drawRow draws size stream matrix.flatten (count * size) =
      ((Matrix.drawRows draws size stream matrix count).1.flatten,
        (Matrix.drawRows draws size stream matrix count).2) := by
  induction count generalizing stream matrix with
  | zero => rw [Nat.zero_mul, Matrix.drawRow, Matrix.drawRows]
  | succ count induction =>
      have first := drawRow_append draws size stream matrix.flatten #[] size
      rw [Array.append_empty] at first
      rw [Nat.succ_mul, Nat.add_comm, drawRow_add, first, Matrix.drawRows, ← Array.flatten_push]
      exact induction _ _

theorem random?_eq {rows size : Nat} (fits : rows * size < UInt64.size) (stream : σ) :
    random? draws rows size stream =
      some (.ofMatrix size (Matrix.random draws rows size stream).1,
        (Matrix.random draws rows size stream).2) := by
  have drawn := flatten_drawRows draws size stream #[] rows
  rw [Array.flatten_empty] at drawn
  simp only [random?, number64?_of_lt fits, Option.bind_eq_bind, Option.bind_some, drawn,
    Memory.ofMatrix, (Matrix.hasShape_random draws rows size stream).size_eq]
  rfl

theorem zeros?_eq {rows size : Nat} (fits : rows * size < UInt64.size) :
    zeros? rows size = some (.ofMatrix size (Array.replicate rows (Row.zeros size))) := by
  simp only [zeros?, number64?_of_lt fits, Option.bind_eq_bind, Option.bind_some,
    Memory.ofMatrix, Array.size_replicate, Row.zeros, Array.flatten_replicate_replicate]

/-- The numbers of a training fit their bits: its words, its components, its steps, and the places
that a window can reach. -/
structure Fits (training : Training) (sentences : List (List Nat)) (rows words : Nat) : Prop where
  numbers : words < UInt32.size
  input : rows * training.vectorSize < UInt64.size
  output : words * training.vectorSize < UInt64.size
  count : sentences.flatten.length < UInt64.size
  steps : sentences.flatten.length * training.epochs < UInt64.size
  window : ∀ sentence ∈ sentences, sentence.length + max training.window 1 < UInt64.size

theorem trainFrom?_eq {training : Training} {sentences wordRows : List (List Nat)} {rows : Nat}
    {counts : List Nat} (fits : Fits training sentences rows counts.length)
    (known : ∀ sentence ∈ sentences, ∀ word ∈ sentence, word < counts.length)
    (listed : ∀ indices ∈ wordRows, ∀ index ∈ indices, index < rows)
    (each : wordRows.length = counts.length) (stream : σ) :
    trainFrom? draws stream sentences wordRows rows counts training =
      some (.ofMatrix training.vectorSize
        (trainFrom draws stream sentences wordRows rows counts training)) := by
  let plan := Plan.ofTraining training wordRows counts (sentences.flatten.length * training.epochs)
  let start : SkipGram.State σ :=
    ⟨(Matrix.random draws rows training.vectorSize stream).2, 0,
      (Matrix.random draws rows training.vectorSize stream).1,
      Array.replicate counts.length (Row.zeros training.vectorSize)⟩
  have shape : start.HasShape rows counts.length plan.vectorSize :=
    ⟨Matrix.hasShape_random draws rows training.vectorSize stream,
      Matrix.hasShape_replicate counts.length training.vectorSize⟩
  have ready : Ready plan rows counts.length := {
    toWithin := Plan.within_ofTraining listed training counts _
    size_wordRows := each
    input_fits := fits.input
    output_fits := fits.output
    words_fit := fits.numbers
    window_pos := Nat.lt_of_lt_of_le Nat.zero_lt_one (Nat.le_max_right _ _) }
  simp only [trainFrom?, trainFrom, random?_eq draws fits.input, zeros?_eq fits.output,
    number64?_of_lt fits.count, number64?_of_lt fits.steps, Option.bind_eq_bind, Option.bind_some]
  split
  · rfl
  · have steps : start.step + sentences.flatten.length * training.epochs < UInt64.size := by
      rw [Nat.zero_add]
      exact fits.steps
    have run := trainEpochs?_ofState draws ready shape known steps fits.window
    exact congrArg (Option.bind · fun after => some after.input) run

end Whole

end Guarded

end DefectGraphs.Token
