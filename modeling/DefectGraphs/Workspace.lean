import DefectGraphs.Failure
import DefectGraphs.Files.Tree
import DefectGraphs.Notice

/-!
Work on a tree of files that can fail, and that leaves notices on its way. What was done
before a failure stays done.
-/

namespace DefectGraphs

structure Workspace where
  tree : Files.Tree
  /-- The notices so far, the first one first. -/
  notices : List Notice

abbrev Work (α : Type) := ExceptT Failure (StateM Workspace) α

namespace Work

def tree : Work Files.Tree := do
  return (← get).tree

def note (notice : Notice) : Work Unit :=
  modify fun workspace => { workspace with notices := workspace.notices ++ [notice] }

def ofExcept (result : Except Failure α) : Work α :=
  match result with
  | .ok value => pure value
  | .error failure => throw failure

/-- Changes the tree on behalf of a path, which is blamed when this fails. -/
def change (path : Files.Path) (update : Files.Tree → Except Files.Fault Files.Tree) :
    Work Unit := do
  match update (← tree) with
  | .ok changed => modify fun workspace => { workspace with tree := changed }
  | .error fault => throw (.io path fault)

def makeDirectories (path : Files.Path) : Work Unit := do
  let (result, changed) := (← tree).makeDirectories path
  modify fun workspace => { workspace with tree := changed }
  ofExcept (result.mapError (.io path))

end Work

end DefectGraphs
