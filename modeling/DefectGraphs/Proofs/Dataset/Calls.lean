import DefectGraphs.Dataset
import DefectGraphs.Proofs.Balance.Oversample
import DefectGraphs.Proofs.Graph.Loading
import DefectGraphs.Proofs.Split.Store
import DefectGraphs.Proofs.Token.Store

/-!
The calls that change a data set, and what a load reads, replaces and keeps. A fold is there just
when a load that included it has succeeded.
-/

namespace DefectGraphs

open DefectGraphs.Graph Label Split

inductive Call where
  | load (folds : List Fold)
  | shuffle (fold : Fold)

namespace Dataset

/-- The data set and the workspace after a call, whether it succeeds or fails. -/
def call (state : Dataset × Workspace) : Call → Dataset × Workspace
  | .load folds =>
    let ((_, dataset), workspace) := (state.1.load folds).run state.2
    (dataset, workspace)
  | .shuffle fold =>
    match state.1.shuffle fold with
    | .ok dataset => (dataset, state.2)
    | .error _ => state

def loadOutcome (state : Dataset × Workspace) (folds : List Fold) : Except Failure Nat :=
  ((state.1.load folds).run state.2).1.1

/-- What each fold holds when these are the records of its files: training is on balanced records,
the other folds are as they were read. -/
inductive Contains (settings : Settings) (read : List (Record Target)) :
    Fold → List (Record Target) → Prop
  | train : Contains settings read .train (Balance.oversample settings.stratifyBy read)
  | validation : Contains settings read .validation read
  | test : Contains settings read .test read

theorem contains_contents (settings : Settings) (fold : Fold) (read : List (Record Target)) :
    Contains settings read fold (contents settings fold read) := by
  cases fold with
  | train => exact .train
  | validation => exact .validation
  | test => exact .test

theorem Contains.mem_iff {settings : Settings} {read records : List (Record Target)} {fold : Fold}
    (contains : Contains settings read fold records) (record : Record Target) :
    record ∈ records ↔ record ∈ read := by
  cases contains with
  | train => exact Balance.mem_oversample_iff settings.stratifyBy read record
  | validation => exact Iff.rfl
  | test => exact Iff.rfl

/-- The records of a fold are made from those of its files, which have the names of the files. -/
def Reads (dataset : Dataset) (manifest : Manifest) (fold : Fold)
    (records : List (Record Target)) : Prop :=
  ∃ read : List (Record Target), read.map Record.filename = manifest.filenames dataset.split fold ∧
    Contains dataset.settings read fold records

theorem reads_of_readFolds {dataset : Dataset} {tree : Files.Tree} {manifest : Manifest}
    {embedding : Token.Embedding} {cache : Token.Cache} {folds : List Fold}
    {loaded : List (Fold × List (Record Target))}
    (read : (dataset.readFolds tree manifest embedding cache folds).result = .ok loaded) :
    loaded.map Prod.fst = folds ∧ ∀ pair ∈ loaded, dataset.Reads manifest pair.1 pair.2 := by
  induction folds generalizing cache loaded with
  | nil =>
      cases read
      simp
  | cons fold rest induction =>
      simp only [readFolds] at read
      split at read
      · simp at read
      · rename_i records given
        obtain ⟨others, readOthers, rfl⟩ := map_eq_ok.mp read
        obtain ⟨requested, reads⟩ := induction readOthers
        rw [List.map_cons, requested, List.forall_mem_cons]
        have contains := contains_contents dataset.settings fold records
        exact ⟨rfl, ⟨records, Loader.filenames_of_loadAll given, contains⟩, reads⟩

@[simp] theorem setFolds_nil (dataset : Dataset) : dataset.setFolds [] = dataset := rfl

@[simp] theorem setFolds_cons (dataset : Dataset) (pair : Fold × List (Record Target))
    (rest : List (Fold × List (Record Target))) :
    dataset.setFolds (pair :: rest) = (dataset.setFold pair.1 pair.2).setFolds rest := rfl

/-- Nothing but the records is replaced. -/
theorem setFolds_eq (dataset : Dataset) (folds : List (Fold × List (Record Target))) :
    dataset.setFolds folds = { dataset with loaded := (dataset.setFolds folds).loaded } := by
  induction folds generalizing dataset with
  | nil => rfl
  | cons pair rest induction =>
      rw [setFolds_cons, induction]
      rfl

theorem loaded_setFold (dataset : Dataset) (fold other : Fold) (records : List (Record Target)) :
    (dataset.setFold fold records).loaded other =
      if other = fold then some records else dataset.loaded other := rfl

theorem loaded_setFolds {dataset : Dataset} {folds : List (Fold × List (Record Target))}
    {fold : Fold} {records : List (Record Target)}
    (holds : (dataset.setFolds folds).loaded fold = some records) :
    (fold, records) ∈ folds ∨ dataset.loaded fold = some records := by
  induction folds generalizing dataset with
  | nil => exact .inr holds
  | cons pair rest induction =>
      rw [setFolds_cons] at holds
      rcases induction holds with later | before
      · exact .inl (List.mem_cons_of_mem pair later)
      · rw [loaded_setFold] at before
        split at before
        · rename_i same
          cases before
          subst same
          exact .inl List.mem_cons_self
        · exact .inr before

theorem loaded_setFolds_of_notMem {folds : List (Fold × List (Record Target))} {fold : Fold}
    (dataset : Dataset) (other : fold ∉ folds.map Prod.fst) :
    (dataset.setFolds folds).loaded fold = dataset.loaded fold := by
  induction folds generalizing dataset with
  | nil => rfl
  | cons pair rest induction =>
      rw [List.map_cons, List.mem_cons, not_or] at other
      rw [setFolds_cons, induction _ other.2, loaded_setFold, if_neg other.1]

theorem exists_loaded_setFolds {folds : List (Fold × List (Record Target))} {fold : Fold}
    (dataset : Dataset) (listed : fold ∈ folds.map Prod.fst) :
    ∃ records, (fold, records) ∈ folds ∧
      (dataset.setFolds folds).loaded fold = some records := by
  induction folds generalizing dataset with
  | nil => simp at listed
  | cons pair rest induction =>
      by_cases later : fold ∈ rest.map Prod.fst
      · obtain ⟨records, member, holds⟩ := induction (dataset.setFold pair.1 pair.2) later
        exact ⟨records, List.mem_cons_of_mem pair member, holds⟩
      · obtain rfl : fold = pair.1 := by simpa [later] using listed
        refine ⟨pair.2, List.mem_cons_self, ?_⟩
        rw [setFolds_cons, loaded_setFolds_of_notMem _ later, loaded_setFold, if_pos rfl]

theorem gives_prepare {dataset : Dataset} {before after : Workspace} {manifest : Manifest}
    {vectors : Vectors} (prepared : dataset.prepare.Gives before (manifest, vectors) after) :
    Manifest.load before.tree dataset.manifest = .ok manifest := by
  simp only [prepare, Work.gives_bind, Work.gives_tree, Work.gives_ofExcept] at prepared
  obtain ⟨_, _, ⟨rfl, rfl⟩, manifest', _, ⟨loaded, rfl⟩, rest⟩ := prepared
  have same : manifest' = manifest := by
    split at rest
    · exact (Prod.mk.inj (Work.gives_pure.mp rest).1).1
    · obtain ⟨_, _, -, rest⟩ := Work.gives_bind.mp rest
      exact (Prod.mk.inj (Work.gives_pure.mp rest).1).1
  rw [loaded, same]

theorem keeps_prepare (dataset : Dataset) (before : Workspace) :
    Work.Keeps Marked dataset.prepare before := by
  simp only [prepare]
  apply Work.keeps_bind Work.keeps_tree
  intro _ _ _
  apply Work.keeps_bind (Work.keeps_ofExcept _)
  intro _ _ _
  split
  · exact Work.keeps_pure _
  · exact Work.keeps_bind (Token.Model.keeps_loadOrTrain ..) fun _ _ _ => Work.keeps_pure _

theorem run_load (dataset : Dataset) (folds : List Fold) (before : Workspace) :
    (dataset.load folds).run before =
      match dataset.prepare.run.run before with
      | (.error failure, after) => ((.error failure, dataset), after)
      | (.ok (manifest, vectors), after) =>
        let reading :=
          dataset.readFolds after.tree manifest vectors.model.embedding vectors.cache folds
        (dataset.takeOver vectors reading,
          { after with notices := after.notices ++ reading.notices }) := by
  rw [load, StateT.run_bind]
  rcases dataset.prepare.run.run before with ⟨_ | ⟨_, _⟩, _⟩ <;> rfl

theorem takeOver_spec (dataset : Dataset) (vectors : Vectors) (reading : Reading) :
    ∃ kept, (∃ failure, dataset.takeOver vectors reading =
        (.error failure, { dataset with vectors := kept })) ∨
      ∃ folds, reading.result = .ok folds ∧ dataset.takeOver vectors reading =
        (.ok reading.files, { dataset with vectors := kept }.setFolds folds) := by
  refine ⟨some { vectors with cache := reading.cache }, ?_⟩
  unfold takeOver
  cases read : reading.result with
  | error failure => exact .inl ⟨failure, rfl⟩
  | ok folds => exact .inr ⟨folds, rfl, rfl⟩

/-- After a load that fails the records are as before; one that succeeds replaces those of the
requested folds. -/
theorem call_load (state : Dataset × Workspace) (folds : List Fold) :
    Files.Tree.Keeps Marked state.2.tree (call state (.load folds)).2.tree ∧
      ∃ vectors, (∃ failure, loadOutcome state folds = .error failure ∧
          (call state (.load folds)).1 = { state.1 with vectors }) ∨
        ∃ files manifest loaded, loadOutcome state folds = .ok files ∧
          Manifest.load state.2.tree state.1.manifest = .ok manifest ∧
          loaded.map Prod.fst = folds ∧ (∀ pair ∈ loaded, state.1.Reads manifest pair.1 pair.2) ∧
          (call state (.load folds)).1 = { state.1 with vectors }.setFolds loaded := by
  obtain ⟨dataset, workspace⟩ := state
  have keeps : Work.Keeps Marked dataset.prepare workspace := keeps_prepare dataset workspace
  unfold Work.Keeps at keeps
  simp only [call, loadOutcome, run_load]
  rcases prepared : dataset.prepare.run.run workspace with ⟨failure | ⟨manifest, vectors⟩, after⟩
  · rw [prepared] at keeps
    exact ⟨keeps, dataset.vectors, .inl ⟨failure, rfl, rfl⟩⟩
  · rw [prepared] at keeps
    refine ⟨keeps, ?_⟩
    obtain ⟨kept, ⟨failure, failed⟩ | ⟨loaded, read, succeeded⟩⟩ := takeOver_spec dataset vectors
      (dataset.readFolds after.tree manifest vectors.model.embedding vectors.cache folds)
    · exact ⟨kept, .inl ⟨failure, congrArg Prod.fst failed, congrArg Prod.snd failed⟩⟩
    · obtain ⟨requested, reads⟩ := reads_of_readFolds read
      exact ⟨kept, .inr ⟨_, manifest, loaded, congrArg Prod.fst succeeded, gives_prepare prepared,
        requested, reads, congrArg Prod.snd succeeded⟩⟩

section Open

variable {split : Nat} {source : Token.Source} {path : Files.Path} {settings : Settings}
  {start : Dataset} (opened : ofSettings split source path settings = .ok start)

include opened

theorem eq_of_ofSettings : start =
    ⟨split, source, path, settings, none, fun _ => none, .ofSeed settings.seed⟩ := by
  simp only [ofSettings, bind_eq_ok] at opened
  obtain ⟨_, -, same⟩ := opened
  cases same
  rfl

theorem vectors_ofSettings : start.vectors = none := by
  rw [eq_of_ofSettings opened]

theorem loaded_ofSettings (fold : Fold) : start.loaded fold = none := by
  rw [eq_of_ofSettings opened]

end Open

theorem records_eq_ok {dataset : Dataset} {fold : Fold} {records : List (Record Target)} :
    dataset.records fold = .ok records ↔ dataset.loaded fold = some records := by
  unfold Dataset.records
  cases dataset.loaded fold <;> simp

/-- A shuffle reorders a fold that is there; without one nothing changes. -/
theorem call_shuffle (state : Dataset × Workspace) (fold : Fold) :
    (state.1.loaded fold = none ∧ call state (.shuffle fold) = state) ∨
      ∃ records, state.1.loaded fold = some records ∧
        call state (.shuffle fold) = ({ state.1.setFold fold
          (Random.shuffle state.1.stream records).1 with
            stream := (Random.shuffle state.1.stream records).2 }, state.2) := by
  cases held : state.1.loaded fold with
  | none =>
      refine .inl ⟨rfl, ?_⟩
      simp only [call, shuffle, Dataset.records, held]
      rfl
  | some records =>
      refine .inr ⟨records, rfl, ?_⟩
      simp only [call, shuffle, records_eq_ok.mpr held]
      rfl

/-- One of the calls is a load that includes the fold, and it succeeds. -/
def Included (state : Dataset × Workspace) (calls : List Call) (fold : Fold) : Prop :=
  ∃ earlier folds later files, calls = earlier ++ .load folds :: later ∧ fold ∈ folds ∧
    loadOutcome (earlier.foldl call state) folds = .ok files

theorem included_nil {state : Dataset × Workspace} {fold : Fold} : ¬Included state [] fold := by
  rintro ⟨earlier, folds, later, files, same, -⟩
  simp at same

theorem included_cons {state : Dataset × Workspace} {first : Call} {rest : List Call}
    {fold : Fold} :
    Included state (first :: rest) fold ↔
      (∃ folds files, first = .load folds ∧ fold ∈ folds ∧ loadOutcome state folds = .ok files) ∨
        Included (call state first) rest fold := by
  constructor
  · rintro ⟨earlier, folds, later, files, same, member, succeeded⟩
    rcases List.cons_eq_append_iff.mp same with ⟨rfl, same⟩ | ⟨middle, rfl, rfl⟩
    · cases same
      exact .inl ⟨folds, files, rfl, member, succeeded⟩
    · exact .inr ⟨middle, folds, later, files, rfl, member, succeeded⟩
  · rintro (⟨folds, files, rfl, member, succeeded⟩ | ⟨earlier, folds, later, files, rfl, others⟩)
    · exact ⟨[], folds, rest, files, rfl, member, succeeded⟩
    · exact ⟨first :: earlier, folds, later, files, rfl, others⟩

/-- A fold is there after a call when it was before, or when the call loads it. -/
theorem isSome_loaded_call (state : Dataset × Workspace) (first : Call) (fold : Fold) :
    ((call state first).1.loaded fold).isSome ↔ (state.1.loaded fold).isSome ∨
      ∃ folds files, first = .load folds ∧ fold ∈ folds ∧ loadOutcome state folds = .ok files := by
  cases first with
  | load folds =>
      obtain ⟨-, vectors, ⟨failure, failed, same⟩ |
        ⟨files, manifest, loaded, succeeded, -, requested, -, replaced⟩⟩ := call_load state folds
      · rw [same]
        simp [failed]
      · rw [replaced]
        by_cases member : fold ∈ folds
        · have listed := member
          rw [← requested] at listed
          obtain ⟨records, -, holds⟩ := exists_loaded_setFolds { state.1 with vectors } listed
          simp [holds, succeeded, member]
        · have others := member
          rw [← requested] at others
          rw [loaded_setFolds_of_notMem _ others]
          simp [member]
  | shuffle other =>
      rcases call_shuffle state other with ⟨-, same⟩ | ⟨records, held, shuffled⟩
      · simp [same]
      · rw [shuffled, loaded_setFold]
        split
        · -- Only a fold that is there already can be shuffled.
          rename_i same
          simp [same, held]
        · simp

theorem isSome_loaded_run (state : Dataset × Workspace) (calls : List Call) (fold : Fold) :
    ((calls.foldl call state).1.loaded fold).isSome ↔
      (state.1.loaded fold).isSome ∨ Included state calls fold := by
  induction calls generalizing state with
  | nil => simp [included_nil]
  | cons first rest induction =>
      rw [List.foldl_cons, induction, isSome_loaded_call, included_cons, or_assoc]

theorem isSome_loaded_iff {start : Dataset} (empty : ∀ fold, start.loaded fold = none)
    (workspace : Workspace) (calls : List Call) (fold : Fold) :
    ((calls.foldl call (start, workspace)).1.loaded fold).isSome ↔
      Included (start, workspace) calls fold := by
  rw [isSome_loaded_run]
  simp [empty]

section Files

/-- The file of an exported graph, with the texts of its nodes and of the edges of its syntax
tree. -/
def exported (label nodes edges : String) : Files.Node :=
  .file ("\x7b\"label\":\"" ++ label ++ "\",\"cwe\":121,\"nodes\":[" ++ nodes ++
    "],\"astEdges\":[" ++ edges ++
    "],\"cfgEdges\":[],\"reachingDefEdges\":[],\"cdgEdges\":[]\x7d").toUTF8

def oneNode (label : String) : Files.Node :=
  exported label "[\"A\",\"a\"]" ""

def twoNodes (label : String) : Files.Node :=
  exported label "[\"A\",\"a\"],[\"B\",\"b\"]" "[0,1]"

def threeNodes (label : String) : Files.Node :=
  exported label "[\"A\",\"a\"],[\"B\",\"b\"],[\"C\",\"c\"]" "[0,1],[0,2]"

/-- A model of one descriptor with vectors of two components. -/
def smallVectors : Token.Model :=
  ⟨.ofEntries [("A:a", 5)], 2, none, #[#[0, 0]]⟩

end Files

end Dataset

end DefectGraphs
