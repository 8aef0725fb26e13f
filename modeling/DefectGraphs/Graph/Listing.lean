import DefectGraphs.Failure
import DefectGraphs.Files.Tree
import DefectGraphs.Graph.Export

/-!
The graph files of a directory, and what is read of each for training and for splitting.
-/

namespace DefectGraphs.Graph

open Files

/-- Graph files are told by their extension, in any mixture of cases. -/
def isGraphName (name : String) : Bool :=
  (Path.extensionOfName name).any fun extension =>
    String.ofList (extension.toList.map Char.toLower) == "json"

def graphNames (tree : Tree) (directory : Path) : Except Failure (List String) :=
  match tree.list directory with
  | .error fault => .error (.listing directory fault)
  | .ok entries =>
    .ok ((entries.filter fun (name, node) => node.isFile && isGraphName name).map Prod.fst)

def graphFiles (tree : Tree) (directory : Path) : Except Failure (List Path) :=
  (graphNames tree directory).map (·.map directory.join)

def readGraph (read : String → Option α) (tree : Tree) (path : Path) : Except Failure α :=
  match tree.readText path with
  | .error fault => .error (.io path fault)
  | .ok content =>
    match read content with
    | none => .error (.malformedGraph path)
    | some value => .ok value

def readSentences (tree : Tree) (directory : Path) : Except Failure (List (List String)) := do
  (← graphFiles tree directory).mapM fun path =>
    (readGraph parseNodes? tree path).map (·.map Node.descriptor)

end DefectGraphs.Graph
