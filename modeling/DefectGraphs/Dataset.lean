import DefectGraphs.Batch
import DefectGraphs.Graph.Loading
import DefectGraphs.Random.Shuffle
import DefectGraphs.Split.Store
import DefectGraphs.Token.Store

/-!
Data sets: the folds of one split of a corpus, which are loaded, reordered and batched. A load that
fails leaves the records as they were, and loads share one token model.
-/

namespace DefectGraphs

open DefectGraphs.Graph Label Split

structure Vectors where
  model : Token.Model
  cache : Token.Cache

structure Dataset where
  split : Nat
  source : Token.Source
  manifest : Files.Path
  settings : Settings
  vectors : Option Vectors
  loaded : Fold → Option (List (Record Target))
  /-- The stream that every reordering draws from. -/
  stream : Random.Stream

def defaultManifest : Files.Path := "split.txt"

namespace Dataset

def ofSettings (split : Nat) (source : Token.Source) (manifest : Files.Path)
    (settings : Settings) : Except Failure Dataset := do
  settings.validate
  return {
    split
    source
    manifest
    settings
    vectors := none
    loaded := fun _ => none
    stream := .ofSeed settings.seed }

def vectorSize (dataset : Dataset) : Nat :=
  (dataset.vectors.map (·.model.vectorSize)).getD dataset.settings.vectorSize

def channelCount (dataset : Dataset) : Nat :=
  dataset.settings.layout.channelCount

section Load

structure Reading where
  result : Except Failure (List (Fold × List (Record Target)))
  files : Nat
  cache : Token.Cache
  notices : List Notice

/-- What a fold holds, given the records of its files: the training fold is balanced. -/
def contents (settings : Settings) (fold : Fold) (records : List (Record Target)) :
    List (Record Target) :=
  if fold = .train then Balance.oversample settings.stratifyBy records else records

def loadedNotices (settings : Settings) (fold : Fold) (records : List (Record Target)) :
    List Notice :=
  let after := (contents settings fold records).length
  (if fold = .train then
    Notice.ofTallies (Balance.tallies settings.stratifyBy records) ++
      [.balancedFold records.length after]
  else []) ++ [.loadedFold fold after]

/-- Reads folds in turn, from the first to the first that fails. -/
def readFolds (dataset : Dataset) (tree : Files.Tree) (manifest : Manifest)
    (embedding : Token.Embedding) (cache : Token.Cache) : List Fold → Reading
  | [] => ⟨.ok [], 0, cache, []⟩
  | fold :: rest =>
    let filenames := manifest.filenames dataset.split fold
    let opening := Notice.loadingFold fold filenames.length dataset.split
    let run :=
      Loader.loadAll ⟨dataset.settings, embedding⟩ tree dataset.source.corpus cache filenames
    match run.result with
    | .error failure => ⟨.error failure, run.files, run.cache, [opening]⟩
    | .ok records =>
      let reading := dataset.readFolds tree manifest embedding run.cache rest
      ⟨reading.result.map ((fold, contents dataset.settings fold records) :: ·),
        run.files + reading.files,
        reading.cache,
        opening :: loadedNotices dataset.settings fold records ++ reading.notices⟩

def setFold (dataset : Dataset) (fold : Fold) (records : List (Record Target)) : Dataset :=
  { dataset with
    loaded := fun other => if other = fold then some records else dataset.loaded other }

def setFolds (dataset : Dataset) (folds : List (Fold × List (Record Target))) : Dataset :=
  folds.foldl (fun dataset (fold, records) => dataset.setFold fold records) dataset

/-- The manifest, and the token model that is there already or else comes from its file. -/
def prepare (dataset : Dataset) : Work (Manifest × Vectors) := do
  let manifest ← Work.ofExcept (Manifest.load (← Work.tree) dataset.manifest)
  match dataset.vectors with
  | some vectors => return (manifest, vectors)
  | none =>
    let model ← Token.Model.loadOrTrain dataset.source dataset.settings.backend
      dataset.settings.training
    return (manifest, ⟨model, .empty⟩)

/-- Takes over what was read: vectors that were looked up are kept whatever became of the rest,
records change only if all folds could be read. -/
def takeOver (dataset : Dataset) (vectors : Vectors) (reading : Reading) :
    Except Failure Nat × Dataset :=
  let warmed := { dataset with vectors := some { vectors with cache := reading.cache } }
  match reading.result with
  | .error failure => (.error failure, warmed)
  | .ok folds => (.ok reading.files, warmed.setFolds folds)

def load (dataset : Dataset) (folds : List Fold) :
    StateM Workspace (Except Failure Nat × Dataset) := do
  match ← dataset.prepare.run with
  | .error failure => return (.error failure, dataset)
  | .ok (manifest, vectors) =>
    let workspace ← get
    let reading :=
      dataset.readFolds workspace.tree manifest vectors.model.embedding vectors.cache folds
    set { workspace with notices := workspace.notices ++ reading.notices }
    return dataset.takeOver vectors reading

end Load

def records (dataset : Dataset) (fold : Fold) : Except Failure (List (Record Target)) :=
  match dataset.loaded fold with
  | some records => .ok records
  | none => .error (.foldNotLoaded fold.name)

def filenames (dataset : Dataset) (fold : Fold) : Except Failure (List String) :=
  (dataset.records fold).map (·.map Record.filename)

/-- Reorders a fold; successive calls draw on from one stream. -/
def shuffle (dataset : Dataset) (fold : Fold) : Except Failure Dataset := do
  let records ← dataset.records fold
  let (records, stream) := Random.shuffle dataset.stream records
  return { dataset.setFold fold records with stream }

def assembler (settings : Settings) : Assembler :=
  ⟨settings.maxNodes, settings.layout.channelCount⟩

def batches (dataset : Dataset) (fold : Fold) : Except Failure (List (Batch Target)) :=
  (dataset.records fold).map (assembler dataset.settings).batches

end Dataset

end DefectGraphs
