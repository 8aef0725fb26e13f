import DefectGraphs.Proofs.Graph.Uncached
import Mathlib.Data.List.Perm.Subperm

/-!
Files that are loaded through one cache, one after the other or at once. Whatever the order in which
they reach the cache, they come to what each of them gives on its own, and leave the same vectors
behind.
-/

namespace DefectGraphs.Graph.Loader

open Label Token

variable {loader : Loader} {tree : Files.Tree} {directory : Files.Path} {cache : Cache}
  {filenames : List String}

def withParallel (loader : Loader) (parallel : Bool) : Loader :=
  { loader with settings := { loader.settings with parallel } }

def alone (loader : Loader) (tree : Files.Tree) (directory : Files.Path) (filename : String) :
    Except Failure (Record Target) :=
  (loader.loadFile tree directory .empty filename).1

/-- The descriptors of the nodes of a file. -/
def wanted (tree : Files.Tree) (directory : Files.Path) (filename : String) : List String :=
  match readGraph Export.parse? tree (directory.join filename) with
  | .error _ => []
  | .ok graph => graph.nodes.map Node.descriptor

/-- What loading several files can come to. Files that are loaded at once are worked on in any
order; when one of them fails, the rest may be left out, and any failure that was met by then may be
the outcome. -/
inductive Loads (loader : Loader) (tree : Files.Tree) (directory : Files.Path) (cache : Cache)
    (filenames : List String) : Run → Prop
  | inTurn (off : loader.settings.parallel = false) :
      Loads loader tree directory cache filenames
        (loader.loadInTurn tree directory cache filenames)
  | atOnce {schedule : List (String × Nat)} (on : loader.settings.parallel = true)
      (perm : schedule.Perm filenames.zipIdx) :
      Loads loader tree directory cache filenames
        (loader.loadScheduled tree directory cache schedule)
  | abandoned {worked : List (String × Nat)} {failure : Failure} {place : Nat}
      (on : loader.settings.parallel = true) (part : worked.Subperm filenames.zipIdx)
      (met : (.error failure, place) ∈ (loader.loadTasks tree directory cache worked).1) :
      Loads loader tree directory cache filenames
        ⟨.error failure, worked.length, (loader.loadTasks tree directory cache worked).2⟩

theorem loads_loadAll (loader : Loader) (tree : Files.Tree) (directory : Files.Path)
    (cache : Cache) (filenames : List String) :
    Loads loader tree directory cache filenames
      (loader.loadAll tree directory cache filenames) := by
  unfold loadAll
  split
  next on => exact .atOnce on (.refl _)
  next off => exact .inTurn (Bool.not_eq_true _ ▸ off)

section Descriptors

theorem cache_loadFile {filename : String} {record : Record Target}
    (loaded : (loader.loadFile tree directory cache filename).1 = .ok record) :
    (loader.loadFile tree directory cache filename).2 =
      (cache.lookupAll loader.embedding (wanted tree directory filename)).2 := by
  unfold loadFile at loaded ⊢
  unfold wanted readGraph
  dsimp only at loaded ⊢
  cases read : tree.readText (directory.join filename) with
  | error fault => simp [read] at loaded
  | ok content =>
      simp only [read, parse] at loaded ⊢
      cases parsed : Export.parse? content with
      | none => simp [parsed] at loaded
      | some graph =>
          simp only [parsed, Loader.record] at loaded ⊢
          cases collected : forwardEdges graph (directory.join filename)
              loader.settings.relations with
          | error failure => simp [collected] at loaded
          | ok forward => rfl

theorem cache_loadTasks {schedule : List (String × Nat)}
    (loaded : ∀ outcome ∈ (loader.loadTasks tree directory cache schedule).1,
      ∃ record, outcome.1 = .ok record) :
    (loader.loadTasks tree directory cache schedule).2 = (cache.lookupAll loader.embedding
      (schedule.flatMap fun task => wanted tree directory task.1)).2 := by
  induction schedule generalizing cache with
  | nil => rfl
  | cons task rest induction =>
      rw [loadTasks] at loaded
      obtain ⟨first, others⟩ := List.forall_mem_cons.mp loaded
      obtain ⟨record, given⟩ := first
      rw [loadTasks, List.flatMap_cons, Cache.lookupAll_append, ← cache_loadFile given]
      exact induction others

theorem loadInTurn_of_ok {records : List (Record Target)}
    (loaded : (loader.loadInTurn tree directory cache filenames).result = .ok records) :
    (loader.loadInTurn tree directory cache filenames).files = filenames.length ∧
      (loader.loadInTurn tree directory cache filenames).cache =
        (cache.lookupAll loader.embedding (filenames.flatMap (wanted tree directory))).2 := by
  induction filenames generalizing cache records with
  | nil => exact ⟨rfl, rfl⟩
  | cons filename rest induction =>
      unfold loadInTurn at loaded ⊢
      cases read : loader.loadFile tree directory cache filename with
      | mk outcome warmed =>
          rw [read] at loaded
          cases outcome with
          | error failure => cases loaded
          | ok record =>
              obtain ⟨others, loadedOthers, -⟩ := map_eq_ok.mp loaded
              have given : (loader.loadFile tree directory cache filename).1 = .ok record := by
                rw [read]
              obtain ⟨files, left⟩ := induction loadedOthers
              refine ⟨congrArg Nat.succ files, ?_⟩
              rw [List.flatMap_cons, Cache.lookupAll_append, ← cache_loadFile given, read]
              exact left

end Descriptors

theorem plainFile_eq_alone (loader : Loader) (tree : Files.Tree) (directory : Files.Path) :
    loader.plainFile tree directory = loader.alone tree directory := by
  funext filename
  exact (loadFile_fst loader (Cache.faithful_empty _) filename).symm

/-- The outcome is what the files give on their own. -/
structure LoadsAlone (loader : Loader) (tree : Files.Tree) (directory : Files.Path) (cache : Cache)
    (filenames : List String) (run : Run) : Prop where
  succeeds_iff : (∃ records, run.result = .ok records) ↔
    ∀ filename ∈ filenames, ∃ record, loader.alone tree directory filename = .ok record
  records : ∀ records, run.result = .ok records →
    List.Forall₂ (fun filename record =>
      record.filename = filename ∧ loader.alone tree directory filename = .ok record)
      filenames records
  files : ∀ records, run.result = .ok records → run.files = filenames.length
  cached : ∀ records, run.result = .ok records → ∀ descriptor,
    run.cache.probe descriptor =
      if descriptor ∈ filenames.flatMap (wanted tree directory) then
        some (loader.embedding.vector descriptor)
      else cache.probe descriptor
  failure : ∀ failure, run.result = .error failure →
    ∃ filename ∈ filenames, loader.alone tree directory filename = .error failure

/-- The failure is that of the first file that fails, and no later file is worked on. -/
def StopsAtFirst (loader : Loader) (tree : Files.Tree) (directory : Files.Path)
    (filenames : List String) (run : Run) : Prop :=
  ∀ failure, run.result = .error failure → ∃ before filename after,
    filenames = before ++ filename :: after ∧
      (∀ earlier ∈ before, ∃ record, loader.alone tree directory earlier = .ok record) ∧
      loader.alone tree directory filename = .error failure ∧ run.files = before.length + 1

namespace LoadsAlone

variable {run : Run}

theorem of_error {failure : Failure} (failed : run.result = .error failure)
    (met : ∃ filename ∈ filenames, loader.alone tree directory filename = .error failure) :
    LoadsAlone loader tree directory cache filenames run := by
  have fails : ∀ records, run.result ≠ .ok records := by
    intro records loaded
    rw [failed] at loaded
    cases loaded
  refine ⟨⟨?_, ?_⟩, ?_, ?_, ?_, ?_⟩
  · intro ⟨records, loaded⟩
    exact absurd loaded (fails records)
  · intro succeeds
    obtain ⟨filename, member, refused⟩ := met
    obtain ⟨record, given⟩ := succeeds filename member
    rw [refused] at given
    cases given
  · intro records loaded
    exact absurd loaded (fails records)
  · intro records loaded
    exact absurd loaded (fails records)
  · intro records loaded
    exact absurd loaded (fails records)
  · intro other same
    obtain rfl : failure = other := Except.error.inj (failed.symm.trans same)
    exact met

theorem of_ok {records : List (Record Target)} {descriptors : List String}
    (faithful : cache.Faithful loader.embedding) (loaded : run.result = .ok records)
    (each : filenames.mapM (loader.alone tree directory) = .ok records)
    (files : run.files = filenames.length)
    (left : run.cache = (cache.lookupAll loader.embedding descriptors).2)
    (same : descriptors.Perm (filenames.flatMap (wanted tree directory))) :
    LoadsAlone loader tree directory cache filenames run := by
  refine ⟨⟨?_, ?_⟩, ?_, ?_, ?_, ?_⟩
  · intro _
    exact exists_mapM_eq_ok_iff.mp ⟨records, each⟩
  · intro _
    exact ⟨records, loaded⟩
  · intro others given
    obtain rfl : records = others := Except.ok.inj (loaded.symm.trans given)
    apply (mapM_eq_ok.mp each).imp
    intro filename record alone
    exact ⟨filename_of_loadFile alone, alone⟩
  · intro _ _
    exact files
  · intro _ _ descriptor
    rw [left, faithful.probe_lookupAll]
    simp only [same.mem_iff]
  · intro failure failed
    rw [loaded] at failed
    cases failed

end LoadsAlone

section Faithful

variable (faithful : cache.Faithful loader.embedding)

include faithful

theorem stopsAtFirst_loadInTurn (filenames : List String) :
    StopsAtFirst loader tree directory filenames
      (loader.loadInTurn tree directory cache filenames) := by
  intro failure failed
  induction filenames generalizing cache with
  | nil => cases failed
  | cons filename rest induction =>
      have first : (loader.loadFile tree directory cache filename).1 =
          loader.alone tree directory filename := by
        rw [loadFile_fst loader faithful, plainFile_eq_alone]
      have warms : Cache.Warms loader.embedding cache
          (loader.loadFile tree directory cache filename).2 := warms_loadFile loader filename
      unfold loadInTurn at failed ⊢
      cases read : loader.loadFile tree directory cache filename with
      | mk outcome warmed =>
          rw [read] at failed first warms
          cases outcome with
          | error met =>
              cases failed
              exact ⟨[], filename, rest, rfl, List.forall_mem_nil _, first.symm, rfl⟩
          | ok record =>
              cases others : (loader.loadInTurn tree directory warmed rest).result with
              | ok records =>
                  simp only [others] at failed
                  cases failed
              | error met =>
                  simp only [others] at failed
                  cases failed
                  obtain ⟨before, second, after, rfl, succeeded, fails, files⟩ :=
                    induction (warms.faithful faithful) others
                  refine ⟨filename :: before, second, after, rfl, ?_, fails, congrArg Nat.succ files⟩
                  rw [List.forall_mem_cons]
                  exact ⟨⟨record, first.symm⟩, succeeded⟩

theorem loadsAlone_loadInTurn (filenames : List String) :
    LoadsAlone loader tree directory cache filenames
      (loader.loadInTurn tree directory cache filenames) := by
  have result : (loader.loadInTurn tree directory cache filenames).result =
      filenames.mapM (loader.alone tree directory) := by
    rw [result_loadInTurn loader faithful, plainFile_eq_alone]
  cases given : (loader.loadInTurn tree directory cache filenames).result with
  | ok records =>
      obtain ⟨files, left⟩ := loadInTurn_of_ok given
      exact .of_ok faithful given (result.symm.trans given) files left (.refl _)
  | error failure =>
      obtain ⟨before, filename, after, rfl, -, fails, -⟩ :=
        stopsAtFirst_loadInTurn faithful filenames failure given
      exact .of_error given ⟨filename, List.mem_append_right before List.mem_cons_self, fails⟩

theorem loadsAlone_loadScheduled {schedule : List (String × Nat)}
    (perm : schedule.Perm filenames.zipIdx) :
    LoadsAlone loader tree directory cache filenames
      (loader.loadScheduled tree directory cache schedule) := by
  have result : (loader.loadScheduled tree directory cache schedule).result =
      filenames.mapM (loader.alone tree directory) := by
    rw [result_loadScheduled loader faithful perm, plainFile_eq_alone]
  cases given : (loader.loadScheduled tree directory cache schedule).result with
  | ok records =>
      rw [given] at result
      have names : (schedule.map Prod.fst).Perm filenames := by
        have names := perm.map Prod.fst
        rwa [List.zipIdx_map_fst] at names
      have succeeds := exists_mapM_eq_ok_iff.mp ⟨records, result.symm⟩
      have left : (loader.loadTasks tree directory cache schedule).2 = _ := cache_loadTasks (by
        rw [loadTasks_fst loader faithful, plainFile_eq_alone, List.forall_mem_map]
        intro task member
        exact succeeds task.1 (names.mem_iff.mp (List.mem_map_of_mem member)))
      refine .of_ok faithful given result.symm ?_ left ?_
      · change schedule.length = _
        rw [perm.length_eq, List.length_zipIdx]
      · rw [← List.flatMap_map]
        exact names.flatMap_right _
  | error failure =>
      rw [given] at result
      obtain ⟨before, filename, after, rfl, -, fails⟩ := exists_of_mapM_eq_error result.symm
      exact .of_error given ⟨filename, List.mem_append_right before List.mem_cons_self, fails⟩

theorem Loads.loadsAlone {run : Run} (loads : Loads loader tree directory cache filenames run) :
    LoadsAlone loader tree directory cache filenames run := by
  cases loads with
  | inTurn off => exact loadsAlone_loadInTurn faithful filenames
  | atOnce on perm => exact loadsAlone_loadScheduled faithful perm
  | abandoned on part met =>
      -- A failure is the file's own, so it does not matter which files were worked on before it.
      rw [loadTasks_fst loader faithful, plainFile_eq_alone] at met
      obtain ⟨task, member, same⟩ := List.mem_map.mp met
      have listed : task.1 ∈ filenames := by
        rw [← List.zipIdx_map_fst 0 filenames]
        exact List.mem_map_of_mem (part.subset member)
      exact .of_error rfl ⟨task.1, listed, congrArg Prod.fst same⟩

end Faithful

/-- Whatever the order, the outcome is what the files give on their own; whether they may be loaded
at once or not makes a difference to a failure only. -/
theorem loads_alone (loader : Loader) (tree : Files.Tree) (directory : Files.Path) {cache : Cache}
    (faithful : cache.Faithful loader.embedding) (filenames : List String) (parallel : Bool) :
    Loads (loader.withParallel parallel) tree directory cache filenames
        ((loader.withParallel parallel).loadAll tree directory cache filenames) ∧
      ∀ run, Loads (loader.withParallel parallel) tree directory cache filenames run →
        LoadsAlone loader tree directory cache filenames run ∧
          (parallel = false → StopsAtFirst loader tree directory filenames run) := by
  refine ⟨loads_loadAll _ tree directory cache filenames, ?_⟩
  intro run loads
  have own : cache.Faithful (loader.withParallel parallel).embedding := faithful
  have chosen := loads.loadsAlone own
  refine ⟨⟨chosen.succeeds_iff, chosen.records, chosen.files, chosen.cached, chosen.failure⟩, ?_⟩
  intro off
  cases loads with
  | inTurn _ => exact stopsAtFirst_loadInTurn own filenames
  | atOnce on perm =>
      rw [off] at on
      cases on
  | abandoned on part met =>
      rw [off] at on
      cases on

/-- Two graphs that have a node in common. -/
def sharedNode : Files.Tree :=
  let graph (nodes : String) : Files.Node := .file ("\x7b\"label\": \"good\", \"nodes\": [" ++
    nodes ++ "]\x7d").toUTF8
  let main := "\x7b\"nodeType\": \"METHOD\", \"value\": \"main\"\x7d"
  let call := "\x7b\"nodeType\": \"CALL\", \"value\": \"free\"\x7d"
  ⟨.directory [("corpus", .directory [("a.json", graph main),
    ("b.json", graph (call ++ ", " ++ main))])], []⟩

theorem loads_alone_sharedNode :
    let embedding : Embedding := ⟨.subword, 1, 2, fun descriptor =>
      #[descriptor.length.toFloat32]⟩
    let loader : Loader := ⟨{ Settings.default with
      astEdges := false, cfgEdges := false, reachingDefEdges := false, cdgEdges := false },
      embedding⟩
    let warmed := (Cache.empty.lookup embedding "METHOD:main").2
    let names := ["b.json", "a.json", "b.json"]
    warmed.Faithful embedding ∧ ∀ parallel run,
      Loads (loader.withParallel parallel) sharedNode "corpus" warmed names run →
        LoadsAlone loader sharedNode "corpus" warmed names run ∧
          (∃ records, run.result = .ok records) ∧ run.files = 3 := by
  intro embedding loader warmed names
  have faithful : warmed.Faithful embedding := (Cache.faithful_empty embedding).lookup _
  refine ⟨faithful, ?_⟩
  intro parallel run loads
  obtain ⟨alone, -⟩ := (loads_alone loader sharedNode "corpus" faithful names parallel).2 run loads
  have each : ∀ name ∈ names, (loader.alone sharedNode "corpus" name).isOk = true := by
    decide +kernel
  have succeeds : ∃ records, run.result = .ok records := by
    apply alone.succeeds_iff.mpr
    intro name member
    exact exists_of_isOk (each name member)
  obtain ⟨records, loaded⟩ := succeeds
  exact ⟨alone, ⟨records, loaded⟩, alone.files records loaded⟩

end DefectGraphs.Graph.Loader
