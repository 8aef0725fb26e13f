import DefectGraphs.Channel.Relation

/-!
How the edges of a graph are laid out in channels. With `F` forward relations, of which some are
tied, the channels are:

* `0 … F - 1`: the forward relations; a tied one also holds its flipped edges,
* then one channel of flipped edges for each relation that is not tied, in the same order,
* last the self loops, when the layout has them.
-/

namespace DefectGraphs.Channel

/-- Which relations share a channel with their reverse. -/
inductive Tie where
  | all (tied : Bool)
  | only (indices : List Nat)
  deriving DecidableEq, Repr

def Tie.covers : Tie → Nat → Bool
  | .all tied, _ => tied
  | .only indices, index => indices.contains index

structure Layout where
  forward : Nat
  /-- The tied relations, ascending. -/
  tied : List Nat
  selfLoops : Bool
  deriving DecidableEq, Repr

inductive Role where
  | forward
  | forwardAndReverse
  | reverse
  | selfLoop
  deriving DecidableEq, Repr

def Role.name : Role → String
  | .forward => "forward"
  | .forwardAndReverse => "forward+reverse"
  | .reverse => "reverse"
  | .selfLoop => "self-loop"

namespace Layout

/-- Indices in a tie that are no forward relation's are ignored. -/
def ofTie (forward : Nat) (tie : Tie) (selfLoops : Bool) : Layout :=
  ⟨forward, (List.range forward).filter tie.covers, selfLoops⟩

def isTied (layout : Layout) (index : Nat) : Bool :=
  layout.tied.contains index

def channelCount (layout : Layout) : Nat :=
  layout.forward + (layout.forward - layout.tied.length) + (if layout.selfLoops then 1 else 0)

def reverseChannel (layout : Layout) (index : Nat) : Nat :=
  if layout.isTied index then index
  else layout.forward + ((List.range index).filter (!layout.isTied ·)).length

def encode (layout : Layout) (forward : List (List Edge)) (nodes : Nat) : List (List Edge) :=
  let indexed := forward.zipIdx
  let forwardChannels := indexed.map fun (edges, index) =>
    if layout.isTied index then edges ++ edges.map Edge.flip else edges
  let reverseChannels := (indexed.filter fun (_, index) => !layout.isTied index).map
    fun (edges, _) => edges.map Edge.flip
  forwardChannels ++ reverseChannels ++ (if layout.selfLoops then [Channel.selfLoops nodes] else [])

def role (layout : Layout) (channel : Nat) : Role :=
  if channel < layout.forward then
    if layout.isTied channel then .forwardAndReverse else .forward
  else if layout.selfLoops && channel + 1 == layout.channelCount then .selfLoop
  else .reverse

end Layout

end DefectGraphs.Channel
