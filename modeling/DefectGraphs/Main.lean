import DefectGraphs.Command.Run
import DefectGraphs.Files.Change
import DefectGraphs.Text.Terminal

/-!
The program: it takes the places that a command line names from the file system into a tree, carries
the command line out on the tree, and writes back what has changed.
-/

namespace DefectGraphs.Main

open Command Files

def isDirectory? (path : Path) : IO (Option Bool) := do
  try
    let place ← IO.FS.realPath path
    if ← place.isDir then
      return some true
    else
      return if ← place.pathExists then some false else none
  catch _ => return none

partial def snapshot (path : Path) : IO (Option Node) := do
  match ← isDirectory? path with
  | none => return none
  | some false => return some (.file (← IO.FS.readBinFile path))
  | some true =>
    let mut entries := []
    for entry in ← (← IO.FS.realPath path).readDir do
      if let some node ← snapshot entry.path.toString then
        entries := (entry.fileName, node) :: entries
    return some (.directory entries)

/-- The names on the way from the root to a path, with parent directories resolved. -/
def locationOf (working : Path) (path : Path) : List String :=
  ((Path.pieces (working.join path)).filter fun piece => piece ≠ "" ∧ piece ≠ ".").foldl
    (fun location piece => if piece = ".." then location.dropLast else location ++ [piece]) []

def pathOf (location : List String) : Path :=
  "/" ++ "/".intercalate location

/-- The tree with a place of the file system in it; directories above the place stay empty. -/
def load (root : Node) (location : List String) : IO Node := do
  let mut root := root
  for count in List.range location.length do
    let above := location.take count
    if (root.at? above).isNone then
      match ← isDirectory? (pathOf above) with
      | none => return root
      | some true => root := root.set (.directory []) above
      | some false =>
        return root.set (.file (← IO.FS.readBinFile (pathOf above))) above
  match ← snapshot (pathOf location) with
  | some node => return root.set node location
  | none => return root

/-- The places that an invocation may read. -/
def placesOf (invocation : Invocation) : List Path :=
  [invocation.settingsFile.getD Settings.fileName, invocation.cache] ++
    match invocation.action with
    | .split corpus manifest _ _ => [corpus, manifest]
    | .embed corpus vocabulary _ => corpus :: vocabulary.toList
    | .batches corpus vocabulary manifest .. => [corpus, manifest] ++ vocabulary.toList
    | .inspect file vocabulary => directoryOf file :: vocabulary.toList

def write : Change → IO Unit
  | .file location content => IO.FS.writeBinFile (pathOf location) content
  | .directory location => IO.FS.createDirAll (pathOf location)

def usage : String :=
  "Usage: glice [OPTIONS] split|embed|batches|inspect [OPTIONS] PATH"

def rejectionText : Rejection → String
  | .helpAsked | .nothingGiven => usage
  | .versionAsked => programName ++ " " ++ programVersion
  | .commandMissing => "error: a command is missing\n" ++ usage
  | .commandUnknown => "error: there is no such command\n" ++ usage
  | .argumentUnknown => "error: an argument is not known\n" ++ usage
  | .argumentMissing => "error: an argument is missing\n" ++ usage
  | .argumentRepeated => "error: an argument is given twice\n" ++ usage
  | .valueRefused => "error: a value is missing or not allowed\n" ++ usage
  | .valueUnreadable => "error: a value is not a number\n" ++ usage
  | .valueNotTaken => "error: an argument takes no value\n" ++ usage

def readEnvironment : IO (String → Option String) := do
  let named ← [cacheVariable, cachesVariable, homeVariable].mapM fun name => do
    return (name, ← IO.getEnv name)
  return fun name => (named.lookup name).join

def run (arguments : List String) : IO UInt32 := do
  let start ← IO.monoMsNow
  let environment ← readEnvironment
  match Invocation.parse environment arguments with
  | .error rejection =>
    if rejection = .helpAsked || rejection = .versionAsked then
      IO.println (rejectionText rejection)
      return 0
    else
      IO.eprintln (rejectionText rejection)
      return 2
  | .ok invocation =>
    let working := (← IO.currentDir).toString
    let mut root := (Node.directory []).set (.directory []) (locationOf working ".")
    for place in placesOf invocation do
      root ← load root (locationOf working place)
    let (result, workspace) := invocation.run.run ⟨⟨root, locationOf working "."⟩, []⟩
    for change in changes [] (some root) workspace.tree.root do
      write change
    for notice in workspace.notices do
      if invocation.logLevel.shows notice.level then
        IO.eprintln (Text.forTerminal notice.text)
    match result with
    | .error complaint =>
      IO.eprintln ("Error: " ++ complaint.message)
      return 1
    | .ok lines =>
      for line in lines do
        IO.println (line.render (toString ((← IO.monoMsNow) - start) ++ "ms"))
      return 0

end DefectGraphs.Main

def main (arguments : List String) : IO UInt32 :=
  DefectGraphs.Main.run arguments
