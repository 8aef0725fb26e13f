import DefectGraphs.Graph.Loading
import DefectGraphs.Proofs.Outcome
import Mathlib.Data.List.Nodup

/-!
Files that load give one record each, which has the file's name, in the order of the files.
-/

namespace DefectGraphs.Graph.Loader

open Label

variable {loader : Loader} {tree : Files.Tree} {directory : Files.Path}

theorem filename_of_record {cache : Token.Cache} {filename : String} {path : Files.Path}
    {graph : Export} {record : Record Target}
    (made : (loader.record cache filename path graph).1 = .ok record) :
    record.filename = filename := by
  unfold Loader.record at made
  split at made
  · cases made
  · simp only [bind_eq_ok] at made
    obtain ⟨language, -, label, -, same⟩ := made
    cases same
    rfl

theorem filename_of_parse {cache : Token.Cache} {filename : String} {path : Files.Path}
    {content : String} {record : Record Target}
    (parsed : (loader.parse cache filename path content).1 = .ok record) :
    record.filename = filename := by
  unfold Loader.parse at parsed
  split at parsed
  · simp at parsed
  · exact filename_of_record parsed

theorem filename_of_loadFile {cache : Token.Cache} {filename : String} {record : Record Target}
    (loaded : (loader.loadFile tree directory cache filename).1 = .ok record) :
    record.filename = filename := by
  simp only [loadFile] at loaded
  split at loaded
  · simp at loaded
  · exact filename_of_parse loaded

theorem filenames_of_loadInTurn {cache : Token.Cache} {filenames : List String}
    {records : List (Record Target)}
    (loaded : (loader.loadInTurn tree directory cache filenames).result = .ok records) :
    records.map Record.filename = filenames := by
  induction filenames generalizing cache records with
  | nil =>
      cases loaded
      rfl
  | cons filename rest induction =>
      unfold loadInTurn at loaded
      cases read : loader.loadFile tree directory cache filename with
      | mk outcome warmed =>
          rw [read] at loaded
          cases outcome with
          | error failure => simp at loaded
          | ok first =>
              obtain ⟨others, loadedOthers, rfl⟩ := map_eq_ok.mp loaded
              have named : first.filename = filename := filename_of_loadFile (by rw [read])
              rw [List.map_cons, named, induction loadedOthers]

/-- The outcome of a file is at its place, and a record that it gives has its name. -/
def IsOutcome (task : String × Nat) (outcome : Except Failure (Record Target) × Nat) : Prop :=
  outcome.2 = task.2 ∧ ∀ record, outcome.1 = .ok record → record.filename = task.1

theorem forall₂_loadTasks (cache : Token.Cache) (schedule : List (String × Nat)) :
    List.Forall₂ IsOutcome schedule (loader.loadTasks tree directory cache schedule).1 := by
  induction schedule generalizing cache with
  | nil => exact .nil
  | cons task rest induction =>
      rw [loadTasks]
      exact .cons ⟨rfl, fun record => filename_of_loadFile⟩ (induction _)

section Outcomes

variable {tasks : List (String × Nat)} {outcomes : List (Except Failure (Record Target) × Nat)}
  (each : List.Forall₂ IsOutcome tasks outcomes)

include each

theorem places_of_forall₂ : outcomes.map Prod.snd = tasks.map Prod.snd := by
  induction each with
  | nil => rfl
  | cons first _ induction => rw [List.map_cons, List.map_cons, first.1, induction]

theorem filenames_of_forall₂ {records : List (Record Target)}
    (all : outcomes.mapM Prod.fst = .ok records) :
    records.map Record.filename = tasks.map Prod.fst := by
  rw [mapM_eq_ok] at all
  induction each generalizing records with
  | nil =>
      cases all
      rfl
  | cons first _ induction =>
      cases all with
      | cons given others => rw [List.map_cons, List.map_cons, first.2 _ given, induction others]

end Outcomes

/-- Outcomes at different places have one order only, in whatever order they come. -/
theorem assemble_of_perm {outcomes ordered : List (Except Failure (Record Target) × Nat)}
    (perm : outcomes.Perm ordered) (ascending : (ordered.map Prod.snd).Pairwise (· < ·)) :
    assemble outcomes = ordered.mapM Prod.fst := by
  have distinct : (ordered.map Prod.snd).Nodup := ascending.imp Nat.ne_of_lt
  have sorted : (outcomes.mergeSort fun left right => left.2 ≤ right.2).Pairwise
      fun left right => left.2 ≤ right.2 := by
    apply (List.pairwise_mergeSort _ _ outcomes).imp of_decide_eq_true
    · intro left middle right first second
      simp only [decide_eq_true_eq] at first second ⊢
      exact Nat.le_trans first second
    · intro left right
      simpa using Nat.le_total left.2 right.2
  have regrouped : (outcomes.mergeSort fun left right => left.2 ≤ right.2).Perm ordered :=
    (List.mergeSort_perm outcomes _).trans perm
  rw [List.pairwise_map] at ascending
  rw [assemble, regrouped.eq_of_pairwise ?_ sorted (ascending.imp Nat.le_of_lt)]
  intro left right leftThere rightThere forward backward
  exact List.inj_on_of_nodup_map distinct (regrouped.mem_iff.mp leftThere) rightThere
    (Nat.le_antisymm forward backward)

theorem pairwise_places (filenames : List String) :
    (filenames.zipIdx.map Prod.snd).Pairwise (· < ·) := by
  rw [List.zipIdx_map_snd, ← List.range_eq_range']
  exact List.pairwise_lt_range

theorem filenames_of_loadAll {cache : Token.Cache} {filenames : List String}
    {records : List (Record Target)}
    (loaded : (loader.loadAll tree directory cache filenames).result = .ok records) :
    records.map Record.filename = filenames := by
  unfold loadAll at loaded
  split at loaded
  · have each : List.Forall₂ IsOutcome filenames.zipIdx
        (loader.loadTasks tree directory cache filenames.zipIdx).1 := forall₂_loadTasks ..
    change assemble (loader.loadTasks tree directory cache filenames.zipIdx).1 = _ at loaded
    rw [assemble_of_perm (.refl _)
      (by rw [places_of_forall₂ each]; exact pairwise_places filenames)] at loaded
    rw [filenames_of_forall₂ each loaded, List.zipIdx_map_fst]
  · exact filenames_of_loadInTurn loaded

end DefectGraphs.Graph.Loader
