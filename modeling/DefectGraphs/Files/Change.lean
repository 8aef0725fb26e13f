import DefectGraphs.Files.Tree

/-!
The difference between two trees of files: what has to be written to make the first into the second,
where nothing is removed.
-/

namespace DefectGraphs.Files

inductive Change where
  | file (location : List String) (content : ByteArray)
  | directory (location : List String)

mutual

/-- What has to be written below a place, so that `before` becomes the node. -/
def changes (location : List String) (before : Option Node) : Node → List Change
  | .file content =>
    match before with
    | some (.file old) => if old == content then [] else [.file location content]
    | _ => [.file location content]
  | .directory entries =>
    match before with
    | some (.directory old) => entryChanges location old entries
    | _ => .directory location :: entryChanges location [] entries

def entryChanges (location : List String) (before : List (String × Node)) :
    List (String × Node) → List Change
  | [] => []
  | (name, node) :: rest =>
    changes (location ++ [name]) (before.lookup name) node ++ entryChanges location before rest

end

end DefectGraphs.Files
