import DefectGraphs.Command.Batches
import DefectGraphs.Command.Inspect
import DefectGraphs.Command.Split
import DefectGraphs.Settings.File

/-!
Command lines carried out: the settings are read first, then the cache directory is made for the
commands that need one, then the command does its work.
-/

namespace DefectGraphs.Command

open Files

inductive Outcome where
  | printed (lines : List Line)
  | failed (complaint : Complaint)
  | rejected (rejection : Rejection)
  deriving DecidableEq, Repr

/-- The settings of an invocation; a settings file that is asked for must be there. -/
def loadSettings (path : Option Path) (overrides : Option String) : Job Settings := do
  let tree ← Job.tree
  match path.filter (!tree.isPresent ·) with
  | some missing => Job.complain [s!"Config file not found: {missing}"]
  | none =>
    Job.within "Failed to load dataset config"
      (Work.ofExcept (Settings.load tree (some (path.getD Settings.fileName)) overrides))

def prepareCache (cache : Path) : Job Unit := do
  let (result, tree) := (← Job.tree).makeDirectories cache
  modify ({ · with tree })
  match result with
  | .ok () => return ()
  | .error fault => Job.complain [s!"Failed to create cache directory {cache}", fault.message]

def Invocation.run (invocation : Invocation) : Job (List Line) := do
  let settings ← loadSettings invocation.settingsFile invocation.overrides
  let cache := invocation.cache
  match invocation.action with
  | .split corpus manifest splits seed => runSplit corpus manifest splits seed
  | .embed corpus vocabulary lookups =>
    prepareCache cache
    runEmbed settings ⟨corpus, vocabulary.getD corpus, cache⟩ lookups
  | .batches corpus vocabulary manifest split fold isShuffled display =>
    prepareCache cache
    let fold ← Job.within "Invalid --fold" (Work.ofExcept (Split.Fold.parse fold))
    runBatches settings ⟨corpus, vocabulary.getD corpus, cache⟩ manifest split fold isShuffled
      display
  | .inspect file vocabulary =>
    prepareCache cache
    runInspect settings file vocabulary cache

def run (environment : String → Option String) (arguments : List String) :
    StateM Workspace Outcome := do
  match Invocation.parse environment arguments with
  | .error rejection => return .rejected rejection
  | .ok invocation =>
    match ← invocation.run.run with
    | .error complaint => return .failed complaint
    | .ok lines => return .printed lines

end DefectGraphs.Command
