/-!
Paths as texts: how they are joined, and which name, extension and parent they have.
-/

namespace DefectGraphs.Files

abbrev Path := String

namespace Path

def pieces (path : Path) : List String :=
  (path.toList.splitOn '/').map String.ofList

def isAbsolute (path : Path) : Bool :=
  path.toList.head? == some '/'

/-- An absolute name replaces the base; otherwise one slash stands between the two. -/
def join (base name : Path) : Path :=
  if name.isAbsolute || base.isEmpty then name
  else if base.toList.getLast? == some '/' then base ++ name
  else base ++ "/" ++ name

/-- A piece that names no place of its own. -/
private def isIdle (piece : String) : Bool :=
  piece == "" || piece == "."

/-- The last piece that names a place, when it is not the parent directory. -/
def fileName (path : Path) : Option String :=
  ((path.pieces.filter (!isIdle ·)).getLast?).filter (· != "..")

/-- What follows the last dot of a name, when something stands before that dot. -/
def extensionOfName (name : String) : Option String :=
  let ending := name.toList.reverse.takeWhile (· != '.')
  let start := name.toList.length - ending.length - 1
  if name.toList.contains '.' && start != 0 then some (String.ofList ending.reverse) else none

def extension (path : Path) : Option String :=
  path.fileName.bind extensionOfName

/-- Every end of a list but the empty one, the longest first. -/
private def ends : List String → List (List String)
  | [] => []
  | piece :: rest => (piece :: rest) :: ends rest

/-- Whether pieces, the last one first, are where a path stops: the last one names a place, or it is
the only one. -/
private def isStop : List String → Bool
  | [] => false
  | [_] => true
  | last :: _ => !isIdle last

/-- The stops before the path itself, each by its pieces, the last one first. -/
private def stops (path : Path) : List (List String) :=
  ((ends path.pieces.reverse).filter isStop).drop 1

private def ofStop (stop : List String) : Path :=
  if stop == [""] then "/" else "/".intercalate stop.reverse

/-- The texts before each piece that names a place, from the last such piece on back. -/
def ancestors (path : Path) : List Path :=
  path.stops.map ofStop

def parent (path : Path) : Path :=
  (path.stops.head?.map ofStop).getD ""

end Path

end DefectGraphs.Files
