import DefectGraphs.Proofs.Token.Store
import DefectGraphs.Proofs.Token.Vocabulary

/-!
A model that was trained once is the model of its backend, vector size and window ever after. A
training that fails leaves no file, and one that succeeds leaves the model's file alone.
-/

namespace DefectGraphs.Token.Model

open Files

variable {model : Model} {key : ModelKey} {cache : Path} {before after : Tree}

/-- What is left where a model was written: its file, and directories that were missing. -/
structure Stored (path : Path) (bytes : ByteArray) (before after : Tree) : Prop where
  held : after.read path = .ok bytes
  cleared : after.isPresent (path ++ ".tmp") = false
  working : after.working = before.working
  others : ∀ location, after.locate path ≠ .ok location →
    after.locate (path ++ ".tmp") ≠ .ok location →
      after.item? location = before.item? location ∨
        (before.item? location = none ∧ after.item? location = some .directory ∧
          ∃ directory ∈ path.parent :: path.parent.ancestors,
            after.locate directory = .ok location)

theorem exists_of_locate_path {location : List String}
    (located : before.locate (key.path cache) = .ok location) :
    ∃ directory, location = directory ++ [key.fileName] :=
  Tree.exists_of_locate_join key.isPlain_fileName located

theorem exists_of_locate_temporary {location : List String}
    (located : before.locate (key.path cache ++ ".tmp") = .ok location) :
    ∃ directory, location = directory ++ [key.fileName ++ ".tmp"] := by
  rw [key.temporary_eq] at located
  exact Tree.exists_of_locate_join key.isPlain_temporary located

/-- A model that is moved to its path shows there, and nothing is left at the temporary path. -/
theorem item?_of_moved {made written : Tree}
    (wrote : made.write (key.path cache ++ ".tmp") model.toBytes = .ok written)
    (renamed : written.rename (key.path cache ++ ".tmp") (key.path cache) = .ok after) :
    ∃ temporary final, after.locate (key.path cache ++ ".tmp") = .ok temporary ∧
      after.locate (key.path cache) = .ok final ∧ temporary ≠ final ∧
      ∀ other, after.item? other =
        if other = final then some (.file model.toBytes)
        else if other = temporary then none else made.item? other := by
  have keeps : Tree.Keeps Marked written after :=
    .rename model.marked_toBytes (Tree.read_write wrote) renamed
  obtain ⟨directory, name, -, stood, shown⟩ := Tree.item?_write wrote
  obtain ⟨target, last, stands, shown'⟩ :=
    Tree.item?_rename stood (by simp) ((shown _).trans (if_pos rfl)) renamed
  obtain ⟨_, temporary⟩ := exists_of_locate_temporary stood
  obtain ⟨_, final⟩ := exists_of_locate_path stands
  have apart : directory ++ [name] ≠ target ++ [last] := by
    rw [temporary, final]
    intro same
    exact key.fileName_ne_temporary key (by simpa using (List.append_inj' same rfl).2.symm)
  refine ⟨_, _, ?_, stands, apart, ?_⟩
  · apply keeps.locate_of_not_file stood
    simp [shown', apart]
  · intro other
    rw [shown', shown]
    by_cases same : other = directory ++ [name] <;> simp [same]

theorem stored_of_writes (writes : Writes model (key.path cache) before (.ok ()) after) :
    Stored (key.path cache) model.toBytes before after := by
  have held := read_of_writes writes
  have working := (keeps_of_writes writes).working.symm
  cases writes with
  | moved made wrote renamed =>
      obtain ⟨temporary, final, left, stands, apart, shown⟩ := item?_of_moved wrote renamed
      have gone : after.item? temporary = none := by
        rw [shown, if_neg apart, if_pos rfl]
      refine ⟨held, Tree.isPresent_eq_false left gone, working, ?_⟩
      intro location notFinal notTemporary
      -- The temporary file has come and gone: what else is new was made for the cache.
      have same : after.item? location =
          (before.makeDirectories (key.path cache).parent).2.item? location := by
        rw [shown, if_neg, if_neg]
        · rintro rfl
          exact notTemporary left
        · rintro rfl
          exact notFinal stands
      rcases (Tree.Grows.makeDirectories (key.path cache).parent before).item location with
        old | ⟨nothing, new, path, member, located⟩
      · exact .inl (same.trans old)
      · refine .inr ⟨nothing, same.trans new, path, member, ?_⟩
        have kept : Tree.Keeps Marked (before.makeDirectories (key.path cache).parent).2 after :=
          .trans (.write model.marked_toBytes wrote)
            (.rename model.marked_toBytes (Tree.read_write wrote) renamed)
        exact kept.locate_of_not_file located (by simp [same, new])

/-- Writing a model leaves the files with other names as they are. -/
theorem item?_of_writes {outcome : Except Failure Unit}
    (writes : Writes model (key.path cache) before outcome after) {directory : List String}
    {name : String} (notFinal : name ≠ key.fileName) (notTemporary : name ≠ key.fileName ++ ".tmp")
    {content : ByteArray} (file : before.item? (directory ++ [name]) = some (.file content)) :
    after.item? (directory ++ [name]) = some (.file content) := by
  have grown : (before.makeDirectories (key.path cache).parent).2.item? (directory ++ [name]) =
      some (.file content) := (Tree.Grows.makeDirectories _ before).item?_eq file
  have differ {other : List String} {last : String} (distinct : name ≠ last)
      (ends : ∃ above, other = above ++ [last]) : directory ++ [name] ≠ other := by
    obtain ⟨above, rfl⟩ := ends
    intro same
    exact distinct (by simpa using (List.append_inj' same rfl).2)
  cases writes with
  | unstarted | unwritten => exact grown
  | unmoved made wrote =>
      obtain ⟨_, _, -, stood, shown⟩ := Tree.item?_write wrote
      rw [shown, if_neg (differ notTemporary (exists_of_locate_temporary stood)), grown]
  | moved made wrote renamed =>
      obtain ⟨temporary, final, left, stands, -, shown⟩ := item?_of_moved wrote renamed
      rw [shown, if_neg (differ notFinal (exists_of_locate_path stands)),
        if_neg (differ notTemporary (exists_of_locate_temporary left)), grown]

/-- Asking for a model with another key leaves the file of this one as it is. -/
theorem read_of_calls {source : Source} {backend : Backend} {training : Training}
    {outcome : Except Failure Model} (calls : Calls source backend training before outcome after)
    (other : key ≠ training.key backend) {bytes : ByteArray}
    (held : before.read (key.path cache) = .ok bytes) :
    after.read (key.path cache) = .ok bytes := by
  have keeps := keeps_of_calls calls
  obtain ⟨location, located, file⟩ := Tree.item?_of_read held
  obtain ⟨directory, rfl⟩ := exists_of_locate_path located
  have notFinal : key.fileName ≠ (training.key backend).fileName :=
    fun same => other (ModelKey.fileName_inj same)
  have notTemporary := key.fileName_ne_temporary (training.key backend)
  have kept {model : Model} {result : Except Failure Unit}
      (writes : Writes model ((training.key backend).path source.cache) before result after) :
      after.read (key.path cache) = .ok bytes :=
    keeps.read_of_item? located file (item?_of_writes writes notFinal notTemporary file)
  cases calls with
  | stored | untrained => exact held
  | unwritten absent trains writes => exact kept writes
  | written absent trains writes => exact kept writes

/-- What may happen after a model was made: files change, but not the model's own, and models are
asked for, from the same cache or with other keys. -/
inductive Later (key : ModelKey) (cache : Path) (start : Workspace) : Workspace → Prop
  | start : Later key cache start start
  | changed {middle after : Workspace} (earlier : Later key cache start middle)
      (same : after.tree.read (key.path cache) = middle.tree.read (key.path cache)) :
      Later key cache start after
  | asked {middle : Workspace} (earlier : Later key cache start middle) {source : Source}
      {backend : Backend} {training : Training}
      (apart : source.cache = cache ∨ training.key backend ≠ key) :
      Later key cache start ((loadOrTrain source backend training).run.run middle).2

theorem read_of_later {start later : Workspace} (reached : Later key cache start later)
    {bytes : ByteArray} (held : start.tree.read (key.path cache) = .ok bytes) :
    later.tree.read (key.path cache) = .ok bytes := by
  induction reached with
  | start => exact held
  | changed earlier same induction => rw [same, induction]
  | @asked middle earlier source backend training apart induction =>
      by_cases same : training.key backend = key
      · -- The file that is asked for is there, so nothing is written.
        obtain rfl : source.cache = cache := apart.resolve_right (not_not_intro same)
        subst same
        rw [run_loadOrTrain (Tree.isPresent_of_read induction)]
        exact induction
      · exact read_of_calls (calls_run source backend training middle) (Ne.symm same) induction

theorem run_of_read {source : Source} {backend : Backend} {training : Training}
    {workspace : Workspace} (same : model.backend = backend)
    (held : workspace.tree.read ((training.key backend).path source.cache) = .ok model.toBytes) :
    (loadOrTrain source backend training).run.run workspace = (.ok model.ofBits, workspace) := by
  rw [run_loadOrTrain (Tree.isPresent_of_read held)]
  exact congrArg (·, workspace) (read_eq_ofBits same held)

section Absent

variable {source : Source} {backend : Backend} {training : Training} {before : Workspace}
  (absent : before.tree.isPresent ((training.key backend).path source.cache) = false)

include absent

theorem run_of_untrained {failure : Failure}
    (fails : source.train before.tree backend training = .error failure) :
    ((loadOrTrain source backend training).run.run before).1 = .error failure ∧
      ((loadOrTrain source backend training).run.run before).2.tree = before.tree := by
  have calls := calls_run source backend training before
  generalize ((loadOrTrain source backend training).run.run before).1 = outcome at calls ⊢
  generalize ((loadOrTrain source backend training).run.run before).2.tree = left at calls ⊢
  cases calls with
  | stored present => exact absurd (present.symm.trans absent) (by decide)
  | untrained absent fails' =>
      rw [fails] at fails'
      cases fails'
      exact ⟨rfl, rfl⟩
  | unwritten absent trains | written absent trains =>
      rw [fails] at trains
      cases trains

theorem run_of_trained {trained : Model} {outcome : Except Failure Unit} {after : Tree}
    (trains : source.train before.tree backend training = .ok trained)
    (writes : Writes trained ((training.key backend).path source.cache) before.tree outcome after) :
    ((loadOrTrain source backend training).run.run before).1 =
        outcome.map (fun _ => trained.ofBits) ∧
      ((loadOrTrain source backend training).run.run before).2.tree = after := by
  have calls := calls_run source backend training before
  generalize ((loadOrTrain source backend training).run.run before).1 = result at calls ⊢
  generalize ((loadOrTrain source backend training).run.run before).2.tree = left at calls ⊢
  cases calls with
  | stored present => exact absurd (present.symm.trans absent) (by decide)
  | untrained absent fails =>
      rw [trains] at fails
      cases fails
  | unwritten absent trains' writes' | written absent trains' writes' =>
      obtain rfl := Except.ok.inj (trains.symm.trans trains')
      obtain ⟨rfl, rfl⟩ := writes.unique writes'
      exact ⟨rfl, rfl⟩

theorem fails_iff {failure : Failure} :
    ((loadOrTrain source backend training).run.run before).1 = .error failure ↔
      source.train before.tree backend training = .error failure ∨
        ∃ trained left, source.train before.tree backend training = .ok trained ∧
          Writes trained ((training.key backend).path source.cache) before.tree (.error failure)
            left := by
  constructor
  · intro fails
    cases trains : source.train before.tree backend training with
    | error cause =>
        rw [(run_of_untrained absent trains).1] at fails
        exact .inl fails
    | ok trained =>
        obtain ⟨outcome, left, writes⟩ :=
          exists_writes trained ((training.key backend).path source.cache) before.tree
        rw [(run_of_trained absent trains writes).1] at fails
        cases outcome with
        | error cause =>
            cases fails
            exact .inr ⟨trained, left, rfl, writes⟩
        | ok => cases fails
  · rintro (fails | ⟨trained, left, trains, writes⟩)
    · exact (run_of_untrained absent fails).1
    · exact (run_of_trained absent trains writes).1

theorem exists_writes_of_gives {after : Workspace} {found : Model}
    (gives : (loadOrTrain source backend training).Gives before found after) :
    ∃ trained, source.train before.tree backend training = .ok trained ∧ found = trained.ofBits ∧
      Writes trained ((training.key backend).path source.cache) before.tree (.ok ())
        after.tree := by
  have calls := calls_of_gives gives
  generalize after.tree = left at calls ⊢
  cases calls with
  | stored present => exact absurd (present.symm.trans absent) (by decide)
  | written absent trains writes => exact ⟨_, trains, rfl, writes⟩

theorem exists_gives_of_trained {trained : Model} {left : Tree}
    (trains : source.train before.tree backend training = .ok trained)
    (writes : Writes trained ((training.key backend).path source.cache) before.tree (.ok ()) left) :
    ∃ after, (loadOrTrain source backend training).Gives before trained.ofBits after :=
  ⟨_, Work.gives_of_fst_eq (run_of_trained absent trains writes).1⟩

end Absent

theorem run_of_later {source : Source} {backend : Backend} {training : Training}
    {start later : Workspace} (same : model.backend = backend)
    (held : start.tree.read ((training.key backend).path source.cache) = .ok model.toBytes)
    (reached : Later (training.key backend) source.cache start later) {source' : Source}
    {training' : Training} (sameCache : source'.cache = source.cache)
    (sameKey : training'.key backend = training.key backend) :
    (loadOrTrain source' backend training').run.run later = (.ok model.ofBits, later) := by
  have held' := read_of_later reached held
  rw [← sameCache, ← sameKey] at held'
  exact run_of_read same held'

/-- What asking for a model that has no file comes to. -/
structure Persists (source : Source) (backend : Backend) (training : Training)
    (before : Workspace) : Prop where
  untrained : ∀ failure, source.train before.tree backend training = .error failure →
    ((loadOrTrain source backend training).run.run before).1 = .error failure ∧
      ((loadOrTrain source backend training).run.run before).2.tree = before.tree
  fails : ∀ failure, ((loadOrTrain source backend training).run.run before).1 = .error failure ↔
    source.train before.tree backend training = .error failure ∨
      ∃ trained left, source.train before.tree backend training = .ok trained ∧
        Writes trained ((training.key backend).path source.cache) before.tree (.error failure) left
  succeeds : ∀ found after, (loadOrTrain source backend training).Gives before found after →
    ∃ trained, source.train before.tree backend training = .ok trained ∧ found = trained.ofBits ∧
      (ofBytes? trained.toBytes = some trained → found = trained) ∧
      Stored ((training.key backend).path source.cache) trained.toBytes before.tree after.tree ∧
      ∀ later, Later (training.key backend) source.cache after later →
        ∀ (source' : Source) (training' : Training), source'.cache = source.cache →
          training'.key backend = training.key backend →
            (loadOrTrain source' backend training').run.run later = (.ok found, later)
  apart : ∀ (key other : ModelKey) (cache : Path),
    (key.path cache = other.path cache → key = other) ∧
      key.path cache ≠ other.path cache ++ ".tmp"

def firstTraining : Training := ⟨2, 5, 1, 1, 5, 7, 0⟩

def firstModel : Model :=
  .trainRows [["METHOD:main", "CALL:f"]] (.ofEntries [("METHOD:main", 1), ("CALL:f", 1)]) none
    firstTraining

theorem train_firstModel :
    train .wordRows [["METHOD:main", "CALL:f"]] firstTraining = .ok firstModel := by
  have built : Vocabulary.build [["METHOD:main", "CALL:f"]] firstTraining.minCount =
      .ofEntries [("METHOD:main", 1), ("CALL:f", 1)] := by
    simp [Vocabulary.build, Vocabulary.getD_tally, Vocabulary.distinct, firstTraining,
      List.mergeSort_of_pairwise]
  rw [train, built]
  rfl

def firstContent : String :=
  "\x7b\"label\":\"bad\",\"cwe\":121,\"nodes\":[" ++
    "\x7b\"nodeType\":\"METHOD\",\"value\":\"main\"\x7d," ++
    "\x7b\"nodeType\":\"CALL\",\"value\":\" f \"\x7d]\x7d"

def firstCorpus : Workspace :=
  ⟨⟨.directory [("corpus", .directory [("a.json", .file firstContent.toUTF8)])], []⟩, []⟩

def firstSource : Source := ⟨"corpus", "vocabulary", "new/cache"⟩

theorem train_firstCorpus :
    firstSource.train firstCorpus.tree .wordRows firstTraining = .ok firstModel :=
  Source.train_eq_ok.mpr ⟨by decide +kernel, [["METHOD:main", "CALL:f"]], by decide +kernel,
    by decide, train_firstModel⟩

def firstPath : Path := "new/cache/word2vec_vs2_w5.model"

theorem path_firstTraining : (firstTraining.key .wordRows).path firstSource.cache = firstPath := by
  decide +kernel

theorem absent_firstCorpus :
    firstCorpus.tree.isPresent ((firstTraining.key .wordRows).path firstSource.cache) = false := by
  rw [path_firstTraining]
  decide +kernel

theorem exists_writes_firstModel :
    ∃ after, Writes firstModel firstPath firstCorpus.tree (.ok ()) after := by
  have made : (firstCorpus.tree.makeDirectories firstPath.parent).1 = .ok () := by decide +kernel
  have writable : ((firstCorpus.tree.makeDirectories firstPath.parent).2.write
      (firstPath ++ ".tmp") firstModel.toBytes >>= fun written =>
        written.rename (firstPath ++ ".tmp") firstPath).isOk = true := by decide +kernel
  obtain ⟨after, moved⟩ := exists_of_isOk writable
  obtain ⟨written, wrote, renamed⟩ := bind_eq_ok.mp moved
  exact ⟨after, .moved made wrote renamed⟩

theorem exists_gives_firstModel :
    ∃ after, (loadOrTrain firstSource .wordRows firstTraining).Gives firstCorpus firstModel.ofBits
      after := by
  obtain ⟨left, writes⟩ := exists_writes_firstModel
  rw [← path_firstTraining] at writes
  exact exists_gives_of_trained absent_firstCorpus train_firstCorpus writes

end DefectGraphs.Token.Model
