import DefectGraphs.Graph.Listing
import DefectGraphs.Proofs.Graph.Loading
import DefectGraphs.Proofs.Token.Cache

/-!
Files are loaded as if each of them were read on its own and every vector came from the embedding:
the shared cache only grows, and it shows in no record.
-/

namespace DefectGraphs.Graph.Loader

open Label Token

variable (loader : Loader) {tree : Files.Tree} {directory : Files.Path} {cache : Cache}

/-- The record of an export, with the embedding's own vectors. -/
def plainRecord (filename : String) (path : Files.Path) (graph : Export) :
    Except Failure (Record Target) := do
  let forward ← forwardEdges graph path loader.settings.relations
  let language ← languageOf graph
  let label ← Target.encode loader.settings.shape graph.isSafe graph.cwe path
  return {
    filename
    language
    cwe := graph.cwe
    isSafe := graph.isSafe
    channels := loader.settings.layout.encode forward graph.nodes.length
    features := graph.nodes.map fun node => loader.embedding.vector node.descriptor
    label }

/-- A file that is loaded on its own, with the embedding's own vectors. -/
def plainFile (tree : Files.Tree) (directory : Files.Path) (filename : String) :
    Except Failure (Record Target) := do
  let graph ← readGraph Export.parse? tree (directory.join filename)
  loader.plainRecord filename (directory.join filename) graph

section Warms

theorem warms_record (filename : String) (path : Files.Path) (graph : Export) :
    Cache.Warms loader.embedding cache (loader.record cache filename path graph).2 := by
  unfold record
  split
  · exact .refl _ _
  · exact .lookupAll _ _ _

theorem warms_loadFile (filename : String) :
    Cache.Warms loader.embedding cache (loader.loadFile tree directory cache filename).2 := by
  unfold loadFile
  dsimp only
  split
  · exact .refl _ _
  · unfold parse
    split
    · exact .refl _ _
    · exact warms_record loader _ _ _

theorem warms_loadInTurn (filenames : List String) :
    Cache.Warms loader.embedding cache
      (loader.loadInTurn tree directory cache filenames).cache := by
  induction filenames generalizing cache with
  | nil => exact .refl _ _
  | cons filename rest induction =>
      have first : Cache.Warms loader.embedding cache
          (loader.loadFile tree directory cache filename).2 := warms_loadFile loader filename
      unfold loadInTurn
      rcases read : loader.loadFile tree directory cache filename with ⟨failure | record, warmed⟩
      · rwa [read] at first
      · rw [read] at first
        exact first.trans induction

theorem warms_loadTasks (schedule : List (String × Nat)) :
    Cache.Warms loader.embedding cache
      (loader.loadTasks tree directory cache schedule).2 := by
  induction schedule generalizing cache with
  | nil => exact .refl _ _
  | cons task rest induction =>
      rw [loadTasks]
      exact (warms_loadFile loader task.1).trans induction

theorem warms_loadAll (filenames : List String) :
    Cache.Warms loader.embedding cache (loader.loadAll tree directory cache filenames).cache := by
  unfold loadAll
  split
  · exact warms_loadTasks loader _
  · exact warms_loadInTurn loader _

end Warms

section Faithful

variable (faithful : cache.Faithful loader.embedding)

include faithful

theorem record_fst (filename : String) (path : Files.Path) (graph : Export) :
    (loader.record cache filename path graph).1 = loader.plainRecord filename path graph := by
  unfold record plainRecord
  cases forwardEdges graph path loader.settings.relations with
  | error failure => rfl
  | ok forward =>
      dsimp only
      rw [faithful.lookupAll_fst, List.map_map]
      rfl

theorem loadFile_fst (filename : String) :
    (loader.loadFile tree directory cache filename).1 =
      loader.plainFile tree directory filename := by
  unfold loadFile plainFile readGraph
  dsimp only
  cases tree.readText (directory.join filename) with
  | error fault => rfl
  | ok content =>
      unfold parse
      dsimp only
      cases Export.parse? content with
      | none => rfl
      | some graph => exact record_fst loader faithful filename _ graph

theorem result_loadInTurn (filenames : List String) :
    (loader.loadInTurn tree directory cache filenames).result =
      filenames.mapM (loader.plainFile tree directory) := by
  induction filenames generalizing cache with
  | nil => rfl
  | cons filename rest induction =>
      have first : (loader.loadFile tree directory cache filename).1 =
          loader.plainFile tree directory filename := loadFile_fst loader faithful filename
      have warms : Cache.Warms loader.embedding cache
          (loader.loadFile tree directory cache filename).2 := warms_loadFile loader filename
      unfold loadInTurn
      rw [List.mapM_cons, ← first]
      rcases read : loader.loadFile tree directory cache filename with ⟨failure | record, warmed⟩
      · rfl
      · rw [read] at warms
        dsimp only
        rw [induction (warms.faithful faithful)]
        cases rest.mapM (loader.plainFile tree directory) <;> rfl

theorem loadTasks_fst (schedule : List (String × Nat)) :
    (loader.loadTasks tree directory cache schedule).1 =
      schedule.map fun task => (loader.plainFile tree directory task.1, task.2) := by
  induction schedule generalizing cache with
  | nil => rfl
  | cons task rest induction =>
      rw [loadTasks, List.map_cons, ← loadFile_fst loader faithful,
        ← induction ((warms_loadFile loader task.1).faithful faithful)]

theorem result_loadScheduled {filenames : List String} {schedule : List (String × Nat)}
    (perm : schedule.Perm filenames.zipIdx) :
    (loader.loadScheduled tree directory cache schedule).result =
      filenames.mapM (loader.plainFile tree directory) := by
  have arranged := perm.map fun task => (loader.plainFile tree directory task.1, task.2)
  change assemble (loader.loadTasks tree directory cache schedule).1 = _
  rw [loadTasks_fst loader faithful, assemble_of_perm arranged]
  · have named : filenames.zipIdx.mapM (loader.plainFile tree directory ∘ Prod.fst) =
        filenames.mapM (loader.plainFile tree directory) := by
      rw [← List.mapM_map, List.zipIdx_map_fst]
    rw [List.mapM_map]
    exact named
  · rw [List.map_map]
    exact pairwise_places filenames

/-- The records are those of the files one by one, in their order; a failure is that of the first
file that fails. -/
theorem result_loadAll (filenames : List String) :
    (loader.loadAll tree directory cache filenames).result =
      filenames.mapM (loader.plainFile tree directory) := by
  unfold loadAll
  split
  · exact result_loadScheduled loader faithful (.refl _)
  · exact result_loadInTurn loader faithful filenames

end Faithful

end DefectGraphs.Graph.Loader
