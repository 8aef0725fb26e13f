import DefectGraphs.Grouping
import DefectGraphs.Random.Shuffle
import DefectGraphs.Split.Manifest

/-!
The division of a corpus into splits. Files are positions in a list of labels: every label's files
are shuffled and dealt to the test folds in turn, and of those outside a split's test fold a share
of every label is taken for validation.
-/

namespace DefectGraphs.Split

open DefectGraphs.Random

def shuffleEach (stream : Stream) : List (List α) → List (List α) × Stream
  | [] => ([], stream)
  | list :: rest =>
    let (shuffled, stream) := shuffle stream list
    let (others, stream) := shuffleEach stream rest
    (shuffled :: others, stream)

def positionsByLabel [BEq κ] (labelOf : Nat → κ) (positions : List Nat) : List (List Nat) :=
  (groupBy labelOf positions).map Prod.snd

/-- All positions in the order in which they are dealt to the test folds. -/
def dealOrder [BEq κ] (labelOf : Nat → κ) (count : Nat) (stream : Stream) : List Nat × Stream :=
  let (shuffled, stream) := shuffleEach stream (positionsByLabel labelOf (List.range count))
  (shuffled.flatten, stream)

/-- The split whose test fold a position is dealt to. The deal goes on from label to label, so the
sizes of any two test folds differ by at most one. -/
def testSplits (splits : Nat) (order : List Nat) (count : Nat) : List Nat :=
  (List.range count).map fun position => order.idxOf position % splits

def dealtTo (testSplit : List Nat) (split : Nat) : List Nat :=
  (testSplit.zipIdx.filter fun (dealt, _) => dealt == split).map Prod.snd

def dealtElsewhere (testSplit : List Nat) (split : Nat) : List Nat :=
  (testSplit.zipIdx.filter fun (dealt, _) => dealt != split).map Prod.snd

/-- The share `1 / parts` of a number of files, rounded to the nearest. -/
def share (parts files : Nat) : Nat :=
  (files + parts / 2) / parts

/-- What a share of every group leaves, and the share; both ascending. -/
def carve (parts : Nat) (groups : List (List Nat)) : List Nat × List Nat :=
  ((groups.flatMap fun group => group.drop (share parts group.length)).mergeSort,
    (groups.flatMap fun group => group.take (share parts group.length)).mergeSort)

structure Division where
  train : List Nat
  validation : List Nat
  test : List Nat
  deriving DecidableEq, Repr

namespace Division

def positions (division : Division) : Fold → List Nat
  | .train => division.train
  | .validation => division.validation
  | .test => division.test

def entries (nameOf : Nat → String) (split : Nat) (division : Division) : List Entry :=
  Fold.all.flatMap fun fold =>
    (division.positions fold).map fun position => ⟨split, fold, nameOf position⟩

end Division

/-- The division for one split, whose validation fold is drawn from the stream. -/
def divide [BEq κ] (labelOf : Nat → κ) (splits : Nat) (testSplit : List Nat) (split : Nat)
    (stream : Stream) : Division × Stream :=
  let others := dealtElsewhere testSplit split
  let (groups, stream) := shuffleEach stream (positionsByLabel labelOf others)
  let (train, validation) := carve (splits - 1) groups
  (⟨train, validation, dealtTo testSplit split⟩, stream)

def divideEach [BEq κ] (labelOf : Nat → κ) (splits : Nat) (testSplit : List Nat)
    (stream : Stream) : List Nat → List (Nat × Division)
  | [] => []
  | split :: rest =>
    let (division, stream) := divide labelOf splits testSplit split stream
    (split, division) :: divideEach labelOf splits testSplit stream rest

/-- The divisions of a corpus into splits; they see labels only as equal or different. -/
def divisions [BEq κ] (labelOf : Nat → κ) (count splits seed : Nat) : List (Nat × Division) :=
  let (order, stream) := dealOrder labelOf count (.ofSeed seed)
  divideEach labelOf splits (testSplits splits order count) stream (List.range splits)

/-- The manifest of a labelled corpus, fold after fold and split after split. -/
def stratified (filenames labels : List String) (splits seed : Nat) : Manifest where
  entries :=
    let names := filenames.toArray
    let texts := labels.toArray
    (divisions (fun position => texts[position]?) filenames.length splits seed).flatMap
      fun (split, division) => division.entries (fun position => (names[position]?).getD "") split

end DefectGraphs.Split
