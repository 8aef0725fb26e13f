import DefectGraphs.Files.Path
import DefectGraphs.Files.Fault

/-!
A tree of files and directories, the places that paths lead to in it, and the operations that read
and change it. An operation that fails leaves no new tree, except that directories made on the way
to one that cannot be made stay.
-/

namespace DefectGraphs.Files

inductive Node where
  | file (content : ByteArray)
  | directory (entries : List (String × Node))

namespace Node

def entries : Node → List (String × Node)
  | .file _ => []
  | .directory entries => entries

def isFile : Node → Bool
  | .file _ => true
  | .directory _ => false

def at? (node : Node) : List String → Option Node
  | [] => some node
  | name :: rest => (node.entries.lookup name).bind fun child => child.at? rest

/-- Entries with one of them set; a new one comes last. -/
def setEntry (name : String) (node : Node) : List (String × Node) → List (String × Node)
  | [] => [(name, node)]
  | (other, child) :: rest =>
    if other = name then (other, node) :: rest else (other, child) :: setEntry name node rest

/-- Sets the node at a place; directories that are missing on the way are made. -/
def set (node : Node) (new : Node) : List String → Node
  | [] => new
  | name :: rest =>
    let child := (node.entries.lookup name).getD (.directory [])
    .directory (setEntry name (child.set new rest) node.entries)

def erase (node : Node) : List String → Node
  | [] => node
  | [name] => .directory (node.entries.filter (·.1 != name))
  | name :: rest =>
    match node.entries.lookup name with
    | none => node
    | some child => .directory (setEntry name (child.erase rest) node.entries)

mutual

/-- The paths of everything below a node, those of directories with a slash at the end. -/
def paths (start : String) : Node → List String
  | .file _ => []
  | .directory entries => entryPaths start entries

def entryPaths (start : String) : List (String × Node) → List String
  | [] => []
  | (name, node) :: rest =>
    let path := start ++ name
    (if node.isFile then [path] else (path ++ "/") :: node.paths (path ++ "/")) ++
      entryPaths start rest

end

end Node

inductive Move where
  | enter (name : String)
  | up
  | stay
  deriving DecidableEq

/-- What a path speaks of: a directory that exists, or an entry of one, which may be missing. -/
inductive Place where
  | directory (location : List String)
  | entry (directory : List String) (name : String)
  deriving DecidableEq

structure Tree where
  root : Node
  /-- The directory that relative paths start from. -/
  working : List String

namespace Tree

def empty (working : List String) : Tree :=
  ⟨(Node.directory []).set (.directory []) working, working⟩

def moves (path : Path) : List Move :=
  (path.pieces.filter (· != "")).map fun piece =>
    if piece = "." then .stay else if piece = ".." then .up else .enter piece

def endsInSlash (path : Path) : Bool :=
  path.toList.getLast? == some '/'

def pathLimit : Nat := 4095

def nameLimit : Nat := 255

def walk (root : Node) (location : List String) : List Move → Except Fault Place
  | [] => .ok (.directory location)
  | move :: rest =>
    match root.at? location with
    | none => .error .notFound
    | some (.file _) => .error .notADirectory
    | some (.directory _) =>
      match move with
      | .stay => walk root location rest
      | .up => walk root location.dropLast rest
      | .enter name =>
        if rest.isEmpty then .ok (.entry location name)
        else if name.utf8ByteSize > nameLimit then .error .nameTooLong
        else walk root (location ++ [name]) rest

/-- The place that a path speaks of. Every directory that it passes through must exist. -/
@[irreducible] def place (tree : Tree) (path : Path) : Except Fault Place := do
  if path.toList.contains '\x00' then
    throw .nulInName
  if path.isEmpty then
    throw .notFound
  if path.utf8ByteSize > pathLimit then
    throw .nameTooLong
  walk tree.root (if path.isAbsolute then [] else tree.working) (moves path)

def entryLocation (directory : List String) (name : String) :
    Except Fault (List String) := do
  if name.utf8ByteSize > nameLimit then
    throw .nameTooLong
  return directory ++ [name]

/-- The location that a path leads to, where something may be missing. -/
def locate (tree : Tree) (path : Path) : Except Fault (List String) := do
  match ← tree.place path with
  | .directory location => return location
  | .entry directory name =>
    let location ← entryLocation directory name
    if endsInSlash path && (tree.root.at? location).any Node.isFile then
      throw .notADirectory
    return location

def node (tree : Tree) (path : Path) : Except Fault Node := do
  match tree.root.at? (← tree.locate path) with
  | some node => return node
  | none => throw .notFound

def isPresent (tree : Tree) (path : Path) : Bool :=
  (tree.node path).isOk

def isFile (tree : Tree) (path : Path) : Bool :=
  match tree.node path with
  | .ok node => node.isFile
  | .error _ => false

def isDirectory (tree : Tree) (path : Path) : Bool :=
  match tree.node path with
  | .ok node => !node.isFile
  | .error _ => false

def read (tree : Tree) (path : Path) : Except Fault ByteArray := do
  match ← tree.node path with
  | .file content => return content
  | .directory _ => throw .isADirectory

def readText (tree : Tree) (path : Path) : Except Fault String := do
  match String.fromUTF8? (← tree.read path) with
  | some text => return text
  | none => throw .notText

/-- The files and directories directly inside a directory, by name; a file has none. -/
def list (tree : Tree) (path : Path) : Except Fault (List (String × Node)) := do
  let node ← tree.node path
  return node.entries.mergeSort fun left right => left.1 ≤ right.1

/-- Makes a file, or gives a file new content. A slash at the end asks for a directory. -/
def write (tree : Tree) (path : Path) (content : ByteArray) : Except Fault Tree := do
  match ← tree.place path with
  | .directory _ => throw .isADirectory
  | .entry directory name =>
    if endsInSlash path then
      throw .isADirectory
    let location ← entryLocation directory name
    if (tree.root.at? location).any (!·.isFile) then
      throw .isADirectory
    return { tree with root := tree.root.set (.file content) location }

def makeDirectory (tree : Tree) (path : Path) : Except Fault Tree := do
  match ← tree.place path with
  | .directory _ => throw .fileExists
  | .entry directory name =>
    let location ← entryLocation directory name
    if (tree.root.at? location).isSome then
      throw .fileExists
    return { tree with root := tree.root.set (.directory []) location }

def ensureDirectory (tree : Tree) (path : Path) : Except Fault Unit × Tree :=
  match tree.makeDirectory path with
  | .ok tree => (.ok (), tree)
  | .error fault => (if tree.isDirectory path then .ok () else .error fault, tree)

/-- Makes a directory; when something that it lies in is missing, `above` makes that before it. -/
def ensureAfter (path : Path) (above : Tree → Except Fault Unit × Tree) (tree : Tree) :
    Except Fault Unit × Tree :=
  match ensureDirectory tree path with
  | (.error .notFound, tree) =>
    match above tree with
    | (.ok (), tree) => ensureDirectory tree path
    | failed => failed
  | result => result

/-- Makes the first of some directories, each of which lies in the next one. -/
def ensureDirectories (paths : List Path) : Tree → Except Fault Unit × Tree :=
  paths.foldr ensureAfter fun tree => (.ok (), tree)

/-- Makes the directory at a path and those that it lies in, as far as they are missing. Those that
are made before one fails stay. -/
def makeDirectories (tree : Tree) (path : Path) : Except Fault Unit × Tree :=
  if path.isEmpty then (.ok (), tree)
  else ensureAfter path (fun tree => ensureDirectories path.ancestors tree) tree

def remove (tree : Tree) (path : Path) : Except Fault Tree := do
  let location ← tree.locate path
  if (tree.root.at? location).isNone then
    throw .notFound
  return { tree with root := tree.root.erase location }

/-- Gives a file another path, where it replaces a file. -/
def rename (tree : Tree) (path target : Path) : Except Fault Tree := do
  let content ← tree.read path
  let rest ← tree.remove path
  rest.write target content

/-- The paths of everything below the working directory, in order. -/
def paths (tree : Tree) : List String :=
  match tree.root.at? tree.working with
  | some node => (node.paths "").mergeSort
  | none => []

end Tree

end DefectGraphs.Files
