import DefectGraphs.Balance.Oversample
import DefectGraphs.Files.Path
import DefectGraphs.Split.Fold
import DefectGraphs.Text.Fixed
import DefectGraphs.Token.Backend

/-!
What a run reports while it works.
-/

namespace DefectGraphs

/-- How much is reported, from the least to the most. -/
inductive LogLevel where
  | error
  | warn
  | info
  | debug
  | trace
  deriving DecidableEq, Repr

namespace LogLevel

def all : List LogLevel := [.error, .warn, .info, .debug, .trace]

def name : LogLevel → String
  | .error => "error"
  | .warn => "warn"
  | .info => "info"
  | .debug => "debug"
  | .trace => "trace"

def shows (limit level : LogLevel) : Bool :=
  all.idxOf level ≤ all.idxOf limit

end LogLevel

inductive Notice where
  | reusedManifest (path : Files.Path)
  | wroteManifest (splits files : Nat) (path : Files.Path)
  | trainingModel (backend : Token.Backend) (directory : Files.Path) (vectorSize window : Nat)
  | averageNodes (nodes graphs : Nat)
  | createdModel (backend : Token.Backend) (path : Files.Path)
  | loadingFold (fold : Split.Fold) (files split : Nat)
  | balancedFold (before after : Nat)
  | loadedFold (fold : Split.Fold) (records : Nat)
  | oneSidedStratum (stratum : Balance.Stratum) (lacksSafe : Bool)
  deriving DecidableEq, Repr

/-- The strata in which nothing could be drawn. -/
def Notice.ofTallies (tallies : List Balance.Tally) : List Notice :=
  (tallies.filter (·.isOneSided)).map fun tally =>
    .oneSidedStratum tally.stratum (tally.safe == 0)

def Notice.level : Notice → LogLevel
  | .oneSidedStratum .. => .warn
  | _ => .info

def Notice.text : Notice → String
  | .reusedManifest path => s!"Using existing split file {path}"
  | .wroteManifest splits files path => s!"Wrote {splits} splits over {files} files to {path}"
  | .trainingModel backend directory vectorSize window =>
    s!"Generating {backend.name} model from {directory} " ++
      s!"(vector size {vectorSize}, window {window})..."
  | .averageNodes nodes graphs =>
    let average := nodes.toUInt64.toFloat / graphs.toUInt64.toFloat
    s!"Average nodes per graph: {Text.fixed 2 average}."
  | .createdModel backend path => s!"Created {backend.name} model at {path}"
  | .loadingFold fold files split =>
    s!"Loading Joern {fold.name} data ({files} files, split {split})"
  | .balancedFold before after => s!"Oversampled {before} training graphs to {after}"
  | .loadedFold fold records => s!"Loaded {records} {fold.name} graphs"
  | .oneSidedStratum stratum lacksSafe =>
    let side := if lacksSafe then "safe" else "unsafe"
    s!"Stratum {stratum.name} has no {side} samples to oversample from"

end DefectGraphs
