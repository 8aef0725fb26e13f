import DefectGraphs.Command.Invocation
import DefectGraphs.Command.Report
import DefectGraphs.Json.Pretty

/-!
The command that loads one fold of a split and summarises the batches that it gives.
-/

namespace DefectGraphs.Command

open Split

structure BatchSummary where
  graphs : Nat
  nodes : Nat
  edges : List Nat
  deriving DecidableEq, Repr

def BatchSummary.ofBatch (batch : Batch α) : BatchSummary where
  graphs := batch.graphs
  nodes := batch.nodeCount
  edges := batch.channels.map List.length

structure FoldSummary where
  split : Nat
  fold : Fold
  graphs : Nat
  safe : Nat
  channels : Nat
  vectorSize : Nat
  maxNodes : Nat
  batches : List BatchSummary
  deriving DecidableEq, Repr

namespace FoldSummary

def ofDataset (dataset : Dataset) (fold : Fold) : Except Failure FoldSummary := do
  let records ← dataset.records fold
  let batches ← dataset.batches fold
  return {
    split := dataset.split
    fold
    graphs := records.length
    safe := records.countP (·.isSafe)
    channels := dataset.channelCount
    vectorSize := dataset.vectorSize
    maxNodes := dataset.settings.maxNodes
    batches := batches.map .ofBatch }

private def batchJson (batch : BatchSummary) : Json :=
  .ofMembers [("graphs", .ofNat batch.graphs), ("nodes", .ofNat batch.nodes),
    ("edges_per_channel", .array (batch.edges.map .ofNat))]

def toJson (summary : FoldSummary) : Json :=
  .ofMembers [
    ("split_index", .ofNat summary.split),
    ("fold", .ofText summary.fold.name),
    ("graphs", .ofNat summary.graphs),
    ("safe_graphs", .ofNat summary.safe),
    ("num_edge_types", .ofNat summary.channels),
    ("node_feature_shape", .array [.ofNat summary.vectorSize]),
    ("max_nodes_per_batch", .ofNat summary.maxNodes),
    ("batches", .array (summary.batches.map batchJson))]

private def batchLine (batch : BatchSummary) (index : Nat) : Line :=
  let column (width number : Nat) := Text.padLeft width (toString number)
  let edges := batch.edges.foldl (· + ·) 0
  .text (s!"  {column 4 index}  {column 4 batch.graphs} graphs  " ++
    s!"{column 6 batch.nodes} nodes  {column 7 edges} edges")

def textReport (summary : FoldSummary) : List Line :=
  let otherGraphs := summary.graphs - summary.safe
  [blankLine, .text s!"Split {summary.split} / {summary.fold.name}", blankLine,
    .text s!"  Graphs: {summary.graphs} ({summary.safe} safe, {otherGraphs} unsafe)",
    .text s!"  Edge types: {summary.channels}",
    .text s!"  Node features: [{summary.vectorSize}]",
    .text s!"  Batches: {summary.batches.length} (max {summary.maxNodes} nodes)",
    blankLine] ++
    summary.batches.zipIdx.map (fun (batch, index) => batchLine batch index) ++
    [blankLine, .elapsed, blankLine]

def report (summary : FoldSummary) : Display → List Line
  | .text => summary.textReport
  | .json => [.text (summary.toJson.pretty 0)]

end FoldSummary

def summarise (dataset : Dataset) (fold : Fold) (isShuffled : Bool) : Job FoldSummary := do
  let (loaded, dataset) ← liftM (dataset.load [fold])
  let _ ← Job.within s!"Failed to load {fold.name} fold of split {dataset.split}"
    (Work.ofExcept loaded)
  Job.plain (Work.ofExcept do
    let dataset ← if isShuffled then dataset.shuffle fold else pure dataset
    FoldSummary.ofDataset dataset fold)

def runBatches (settings : Settings) (source : Token.Source) (manifest : Files.Path) (split : Nat)
    (fold : Fold) (isShuffled : Bool) (display : Display) : Job (List Line) := do
  let tree ← Job.tree
  let _ ← Job.within "Failed to read split manifest" (Work.ofExcept (Manifest.load tree manifest))
  let dataset ← Job.plain (Work.ofExcept (Dataset.ofSettings split source manifest settings))
  return (← summarise dataset fold isShuffled).report display

end DefectGraphs.Command
