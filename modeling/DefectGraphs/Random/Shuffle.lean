import DefectGraphs.Random.Draw

/-!
Shuffling a list. The element at position `i` changes places with the one at a random position up to
`i`; several positions are read from one drawn number, as the digits of a mixed-radix numeral.
-/

namespace DefectGraphs.Random

/-- The product of `first`, `first + 1`, … as long as it stays below `2 ^ 32`, and the count of its
factors. At most thirty-two factors fit. -/
private def factorRun (product next count : Nat) : Nat → Nat × Nat
  | 0 => (product, count)
  | fuel + 1 =>
    if product * next < UInt32.size then factorRun (product * next) (next + 1) (count + 1) fuel
    else (product, count)

/-- What is left of the last drawn number, and for how many more positions it serves. -/
structure Chooser where
  stream : Stream
  chunk : Nat
  remaining : Nat

namespace Chooser

/-- A chooser for position zero, which needs no draw. -/
def start (stream : Stream) : Chooser :=
  ⟨stream, 0, 1⟩

/-- Draws a number that serves this position and the following ones, when none is left. -/
private def refill (chooser : Chooser) (choices : Nat) : Chooser :=
  if chooser.remaining = 0 then
    let (bound, count) := factorRun choices (choices + 1) 1 32
    let (chunk, stream) := chooser.stream.below bound
    ⟨stream, chunk, count⟩
  else
    chooser

/-- A position below `choices`; the last position a number serves is what remains of it. -/
def choose (chooser : Chooser) (choices : Nat) : Nat × Chooser :=
  let ready := chooser.refill choices
  if ready.remaining = 1 then
    (ready.chunk, { ready with remaining := 0 })
  else
    (ready.chunk % choices,
      { ready with chunk := ready.chunk / choices, remaining := ready.remaining - 1 })

end Chooser

/-- Puts an element behind those already placed and lets it change places with the one at
`position`. -/
def place (placed : Array α) (element : α) (position : Nat) : Array α :=
  if h : position < placed.size then
    (placed.set position element).push placed[position]
  else
    placed.push element

def placeAll (chooser : Chooser) (placed : Array α) : List α → Array α × Stream
  | [] => (placed, chooser.stream)
  | element :: rest =>
    let (position, chooser) := chooser.choose (placed.size + 1)
    placeAll chooser (place placed element position) rest

def shuffle (stream : Stream) (elements : List α) : List α × Stream :=
  let (placed, stream) := placeAll (.start stream) #[] elements
  (placed.toList, stream)

end DefectGraphs.Random
