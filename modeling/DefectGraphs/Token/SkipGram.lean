import DefectGraphs.Random.Draw
import DefectGraphs.Token.Embedding

/-!
Training of the skip-gram model with negative samples. A word is represented by the mean of one or
more rows of an input matrix, and predicts the words around it through an output matrix with one row
for each word. All arithmetic is in single precision and in a fixed order, so the seed decides every
bit of the result.
-/

namespace DefectGraphs.Token

open DefectGraphs.Random

abbrev Matrix := Array Row

namespace Row

def zeros (size : Nat) : Row :=
  Array.replicate size 0

def addScaled (vector : Row) (added : Row) (scale : Float32) : Row :=
  Array.zipWith (fun component addend => component + addend * scale) vector added

/-- The sum of the products of components, from the first on. It starts at negative zero, since
adding to that changes no number, zeros included. -/
def dot (left right : Row) : Float32 :=
  (Array.zipWith (· * ·) left right).foldl (· + ·) (-0.0)

end Row

namespace Matrix

def row (matrix : Matrix) (index : Nat) : Row :=
  matrix[index]?.getD #[]

/-- The mean of several rows; of none it is the zero vector. -/
def mean (matrix : Matrix) (size : Nat) (rows : List Nat) : Row :=
  let scale := 1 / rows.length.toUInt64.toFloat32
  rows.foldl (fun sum index => Row.addScaled sum (matrix.row index) scale) (Row.zeros size)

def addToEach (matrix : Matrix) (rows : List Nat) (added : Row) : Matrix :=
  let scale := 1 / rows.length.toUInt64.toFloat32
  rows.foldl (fun matrix index => matrix.modify index (Row.addScaled · added scale)) matrix

section Draw

variable {σ : Type} (draws : Draws σ)

def drawRow (size : Nat) (stream : σ) (row : Row) : Nat → Row × σ
  | 0 => (row, stream)
  | count + 1 =>
    let (fraction, stream) := draws.single stream
    drawRow size stream (row.push ((fraction - 0.5) / size.toUInt64.toFloat32)) count

def drawRows (size : Nat) (stream : σ) (matrix : Matrix) : Nat → Matrix × σ
  | 0 => (matrix, stream)
  | count + 1 =>
    let (row, stream) := drawRow draws size stream #[] size
    drawRows size stream (matrix.push row) count

/-- A matrix of small random components, row after row. -/
def random (rows size : Nat) (stream : σ) : Matrix × σ :=
  drawRows draws size stream #[] rows

end Draw

end Matrix

/-- The words that negative samples are taken from, by their running weights. A word's weight is its
count to the power of three quarters. -/
structure Sampler where
  running : Array Float

namespace Sampler

def runningSums (counts : List Nat) : Array Float :=
  (counts.foldl
    (fun (sums, total) count =>
      let total := total + Float.pow count.toUInt64.toFloat 0.75
      (sums.push total, total))
    ((#[] : Array Float), (0 : Float))).1

def ofCounts (counts : List Nat) : Sampler :=
  ⟨runningSums counts⟩

/-- How many of the ascending sums are at most `bound`, between `low` and `high`. -/
private def countUpTo (sums : Array Float) (bound : Float) (low high : Nat) : Nat :=
  if low < high then
    let middle := (low + high) / 2
    if (sums[middle]?).any (· ≤ bound) then countUpTo sums bound (middle + 1) high
    else countUpTo sums bound low middle
  else low
  termination_by high - low

/-- The word that a fraction of the whole weight falls to. -/
def wordAt (sampler : Sampler) (fraction : Float) : Nat :=
  let bound := fraction * sampler.running.back?.getD 0
  let index := countUpTo sampler.running bound 0 sampler.running.size
  min index (sampler.running.size - 1)

def sample (draws : Draws σ) (sampler : Sampler) (stream : σ) : Nat × σ :=
  let (fraction, stream) := draws.double stream
  (sampler.wordAt fraction, stream)

end Sampler

namespace SkipGram

structure Plan where
  vectorSize : Nat
  window : Nat
  negative : Nat
  wordRows : Array (List Nat)
  sampler : Sampler
  totalSteps : Nat

/-- The plan for words with the given rows and counts. -/
def Plan.ofTraining (training : Training) (wordRows : List (List Nat)) (counts : List Nat)
    (totalSteps : Nat) : Plan where
  vectorSize := training.vectorSize
  window := max training.window 1
  negative := training.negative
  wordRows := wordRows.toArray
  sampler := .ofCounts counts
  totalSteps

structure State (σ : Type) where
  stream : σ
  step : Nat
  input : Matrix
  output : Matrix

def initialRate : Float32 := 0.025

/-- The share of the initial rate below which the rate never falls. -/
def leastShare : Float32 := 1e-4

/-- The rate falls with the share of the steps that are done. -/
def rate (plan : Plan) (step : Nat) : Float32 :=
  let progress := step.toUInt64.toFloat32 / (max plan.totalSteps 1).toUInt64.toFloat32
  let falling := initialRate * (1 - progress)
  let least := initialRate * leastShare
  if falling < least then least else falling

def sigmoid (x : Float32) : Float32 :=
  let clamped := if x < -6 then -6 else if x > 6 then 6 else x
  1 / (1 + Float32.exp (-clamped))

/-- Moves the output row of a word towards a vector, or away from it, and notes in the gradient how
the vector should move in turn. -/
def contrast (hidden : Row) (rate : Float32) (label : Float32) (word : Nat)
    (gradient : Row) (output : Matrix) : Row × Matrix :=
  let row := output.row word
  let weight := (label - sigmoid (Row.dot hidden row)) * rate
  (Array.zipWith (fun component other => component + weight * other) gradient row,
    output.modify word fun row =>
      Array.zipWith (fun component other => component + weight * other) row hidden)

section Run

variable {σ : Type} (draws : Draws σ)

/-- Contrasts a vector with sampled words. A sample that hits the target itself is passed over. -/
def contrastSamples (sampler : Sampler) (hidden : Row) (rate : Float32) (target : Nat) :
    Nat → σ → Row → Matrix → Row × Matrix × σ
  | 0, stream, gradient, output => (gradient, output, stream)
  | count + 1, stream, gradient, output =>
    let (word, stream) := sampler.sample draws stream
    if word = target then
      contrastSamples sampler hidden rate target count stream gradient output
    else
      let (gradient, output) := contrast hidden rate 0 word gradient output
      contrastSamples sampler hidden rate target count stream gradient output

def trainPair (plan : Plan) (rows : List Nat) (rate : Float32) (state : State σ) (target : Nat) :
    State σ :=
  let ⟨stream, step, input, output⟩ := state
  let hidden := input.mean plan.vectorSize rows
  let (gradient, output) := contrast hidden rate 1 target (Row.zeros plan.vectorSize) output
  let (gradient, output, stream) :=
    contrastSamples draws plan.sampler hidden rate target plan.negative stream gradient output
  ⟨stream, step, input.addToEach rows gradient, output⟩

/-- The words of a context, at most `reach` on either side; `before` has the nearest word first. -/
def context (before after : List Nat) (reach : Nat) : List Nat :=
  (before.take reach).reverse ++ after.take reach

/-- Trains a word on its context, whose reach is drawn anew for each word. -/
def trainWord (plan : Plan) (before after : List Nat) (state : State σ) (word : Nat) : State σ :=
  let rate := rate plan state.step
  let rows := (plan.wordRows[word]?).getD []
  let ⟨stream, step, input, output⟩ := state
  if rows.isEmpty then ⟨stream, step + 1, input, output⟩
  else
    let (drawn, stream) := draws.below stream plan.window
    (context before after (drawn + 1)).foldl (trainPair draws plan rows rate)
      ⟨stream, step + 1, input, output⟩

def trainSentence (plan : Plan) (before : List Nat) (state : State σ) : List Nat → State σ
  | [] => state
  | word :: after =>
    trainSentence plan (word :: before) (trainWord draws plan before after state word) after

def trainEpochs (plan : Plan) (sentences : List (List Nat)) : Nat → State σ → State σ
  | 0, state => state
  | epochs + 1, state =>
    trainEpochs plan sentences epochs
      (sentences.foldl (fun state sentence => trainSentence draws plan [] state sentence) state)

/-- Trains an input matrix. `sentences` hold words, `wordRows` the input rows of each word and
`counts` how often each word occurs. -/
def trainFrom (stream : σ) (sentences : List (List Nat)) (wordRows : List (List Nat))
    (inputRows : Nat) (counts : List Nat) (training : Training) : Matrix :=
  let (input, stream) := Matrix.random draws inputRows training.vectorSize stream
  if counts.isEmpty then input
  else
    let plan := .ofTraining training wordRows counts (sentences.flatten.length * training.epochs)
    let output := Array.replicate counts.length (Row.zeros training.vectorSize)
    (trainEpochs draws plan sentences training.epochs ⟨stream, 0, input, output⟩).input

end Run

/-- Trains on the random numbers that the seed gives. -/
def train (sentences : List (List Nat)) (wordRows : List (List Nat)) (inputRows : Nat)
    (counts : List Nat) (training : Training) : Matrix :=
  trainFrom .ofStream (.ofSeed training.seed) sentences wordRows inputRows counts training

end SkipGram

end DefectGraphs.Token
