import DefectGraphs.Graph.Listing
import DefectGraphs.Label.Language
import DefectGraphs.Split.Stratified
import DefectGraphs.Workspace

/-!
Manifests kept in files: one is made for a corpus when its file is missing, and reused ever after.
-/

namespace DefectGraphs.Split

def stratumText (label : String) (cwe : Option Nat) (language : Option Label.Language) : String :=
  label ++ ":" ++ (cwe.map toString).getD "-" ++ ":" ++
    (language.map Label.Language.name).getD "-"

def readStratum (tree : Files.Tree) (path : Files.Path) : Except Failure String := do
  let heading ← Graph.readGraph Graph.Heading.parse? tree path
  match heading.filePath with
  | none => return stratumText heading.label heading.cwe none
  | some source =>
    return stratumText heading.label heading.cwe (some (← Label.Language.ofPath source))

namespace Manifest

def load (tree : Files.Tree) (path : Files.Path) : Except Failure Manifest :=
  if tree.isFile path then
    match tree.readText path with
    | .ok content => parse content
    | .error fault => .error (.io path fault)
  else .error (.missingManifest path)

/-- Writes the manifest's text; directories that are missing on the way are made. -/
def write (manifest : Manifest) (path : Files.Path) : Work Unit := do
  if !path.parent.isEmpty then
    Work.makeDirectories path.parent
  Work.change path (·.write path manifest.text.toUTF8)

/-- The manifest at a path. When nothing is there, one is made for the graph files of a directory
and written to the path. -/
def loadOrGenerate (directory path : Files.Path) (splits seed : Nat) : Work Manifest := do
  let tree ← Work.tree
  if tree.isPresent path then
    Work.note (.reusedManifest path)
    Work.ofExcept (load tree path)
  else
    if splits < minSplits then
      throw (.settings (.tooFewSplits splits))
    if !tree.isDirectory directory then
      throw (.missingCorpus directory)
    let filenames ← Work.ofExcept (Graph.graphNames tree directory)
    let strata ← Work.ofExcept
      (filenames.mapM fun filename => readStratum tree (directory.join filename))
    let manifest := stratified filenames strata splits seed
    manifest.write path
    Work.note (.wroteManifest splits filenames.length path)
    return manifest

end Manifest

end DefectGraphs.Split
