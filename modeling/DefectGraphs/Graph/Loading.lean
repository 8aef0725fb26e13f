import DefectGraphs.Files.Tree
import DefectGraphs.Graph.Export
import DefectGraphs.Graph.Record
import DefectGraphs.Settings.Basic
import DefectGraphs.Token.Cache

/-!
Records made from graph files. The vectors of all nodes come from one shared cache, and several
files can be loaded in any order: each has its place in the result.
-/

namespace DefectGraphs.Graph

open Channel Label

/-- The edges of the forward relations of a graph, which must declare those that are declarable. -/
def forwardEdges (graph : Export) (path : Files.Path) (relations : List Relation) :
    Except Failure (List (List Edge)) :=
  relations.mapM fun relation =>
    match relation.key? with
    | none => .ok (nextEdges graph.nodes.length)
    | some key =>
      match graph.edges? relation with
      | some edges => .ok edges
      | none => .error (.missingEdgeList path key)

def languageOf (graph : Export) : Except Failure (Option Language) :=
  match graph.filePath with
  | none => .ok none
  | some path => (Language.ofPath path).map some

structure Loader where
  settings : Settings
  embedding : Token.Embedding

namespace Loader

/-- Makes a record of an export. Vectors are looked up before the language and the label are known,
so a graph that fails on these has warmed the cache. -/
def record (loader : Loader) (cache : Token.Cache) (filename : String) (path : Files.Path)
    (graph : Export) : Except Failure (Record Target) × Token.Cache :=
  match forwardEdges graph path loader.settings.relations with
  | .error failure => (.error failure, cache)
  | .ok forward =>
    let (features, cache) :=
      cache.lookupAll loader.embedding (graph.nodes.map Node.descriptor)
    let result := do
      let language ← languageOf graph
      let label ← Target.encode loader.settings.shape graph.isSafe graph.cwe path
      return {
        filename
        language
        cwe := graph.cwe
        isSafe := graph.isSafe
        channels := loader.settings.layout.encode forward graph.nodes.length
        features
        label }
    (result, cache)

def parse (loader : Loader) (cache : Token.Cache) (filename : String) (path : Files.Path)
    (content : String) : Except Failure (Record Target) × Token.Cache :=
  match Export.parse? content with
  | none => (.error (.malformedGraph path), cache)
  | some graph => loader.record cache filename path graph

def loadFile (loader : Loader) (tree : Files.Tree) (directory : Files.Path) (cache : Token.Cache)
    (filename : String) : Except Failure (Record Target) × Token.Cache :=
  let path := directory.join filename
  match tree.readText path with
  | .error fault => (.error (.io path fault), cache)
  | .ok content => loader.parse cache filename path content

structure Run where
  result : Except Failure (List (Record Target))
  files : Nat
  cache : Token.Cache

def loadInTurn (loader : Loader) (tree : Files.Tree) (directory : Files.Path)
    (cache : Token.Cache) : List String → Run
  | [] => ⟨.ok [], 0, cache⟩
  | filename :: rest =>
    match loader.loadFile tree directory cache filename with
    | (.error failure, cache) => ⟨.error failure, 1, cache⟩
    | (.ok record, cache) =>
      let run := loader.loadInTurn tree directory cache rest
      ⟨run.result.map (record :: ·), run.files + 1, run.cache⟩

def loadTasks (loader : Loader) (tree : Files.Tree) (directory : Files.Path)
    (cache : Token.Cache) :
    List (String × Nat) → List (Except Failure (Record Target) × Nat) × Token.Cache
  | [] => ([], cache)
  | (filename, place) :: rest =>
    let (outcome, cache) := loader.loadFile tree directory cache filename
    let (outcomes, cache) := loader.loadTasks tree directory cache rest
    ((outcome, place) :: outcomes, cache)

/-- The records in the order of their places, or the first failure in that order. -/
def assemble (outcomes : List (Except Failure (Record Target) × Nat)) :
    Except Failure (List (Record Target)) :=
  (outcomes.mergeSort fun left right => left.2 ≤ right.2).mapM Prod.fst

/-- Loads every file, in any order of the files with their places. -/
def loadScheduled (loader : Loader) (tree : Files.Tree) (directory : Files.Path)
    (cache : Token.Cache) (schedule : List (String × Nat)) : Run :=
  let (outcomes, cache) := loader.loadTasks tree directory cache schedule
  ⟨assemble outcomes, schedule.length, cache⟩

def loadAll (loader : Loader) (tree : Files.Tree) (directory : Files.Path) (cache : Token.Cache)
    (filenames : List String) : Run :=
  if loader.settings.parallel then
    loader.loadScheduled tree directory cache filenames.zipIdx
  else
    loader.loadInTurn tree directory cache filenames

end Loader

end DefectGraphs.Graph
