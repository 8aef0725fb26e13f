import DefectGraphs.Proofs.Token.Codec
import DefectGraphs.Proofs.Token.ModelPath
import DefectGraphs.Proofs.Workspace

/-!
What is left of a tree of files when a token model is loaded or trained: the only new files have the
model's bytes, which no text has.
-/

namespace DefectGraphs

open Files

section Marked

/-- The first byte is that of the mark of a model. -/
def Marked (bytes : ByteArray) : Prop :=
  bytes.data[0]? = some 0xFF

theorem Marked.push {bytes : ByteArray} (marked : Marked bytes) (byte : UInt8) :
    Marked (bytes.push byte) := by
  have start : 0 < bytes.data.size := (Array.getElem?_eq_some_iff.mp marked).1
  unfold Marked at marked ⊢
  rw [ByteArray.data_push, Array.getElem?_push_lt start, ← marked, Array.getElem?_eq_getElem start]

theorem Marked.pushNumber {bytes : ByteArray} (marked : Marked bytes) (number : Nat) :
    Marked (pushNumber bytes number) := by
  fun_induction Files.pushNumber bytes number with
  | case1 => exact marked.push _
  | case2 bytes number large induction => exact induction (marked.push _)

theorem Marked.pushWord {bytes : ByteArray} (marked : Marked bytes) (word : UInt32) :
    Marked (pushWord bytes word) :=
  (((marked.push _).push _).push _).push _

theorem Marked.pushCounted {push : ByteArray → α → ByteArray}
    (keeps : ∀ {bytes : ByteArray}, Marked bytes → ∀ element, Marked (push bytes element))
    {bytes : ByteArray} (marked : Marked bytes) (elements : Array α) :
    Marked (pushCounted push bytes elements) := by
  unfold Files.pushCounted
  apply Array.foldl_induction (fun _ bytes => Marked bytes) (marked.pushNumber _)
  intro _ _ pushed
  exact keeps pushed _

theorem Marked.not_isValidUTF8 {bytes : ByteArray} (marked : Marked bytes) :
    ¬bytes.IsValidUTF8 := by
  intro valid
  obtain ⟨start, first⟩ := Array.getElem?_eq_some_iff.mp marked
  have begins := valid.isUTF8FirstByte_getElem_zero start
  rw [show bytes[0] = 0xFF from first] at begins
  exact absurd begins (by decide)

end Marked

namespace Token

theorem marked_pushNumber_mark : Marked (pushNumber .empty Model.mark) := by
  have first : Marked (ByteArray.empty.push (Model.mark % 128 + 128).toUInt8) := by
    unfold Marked
    rfl
  rw [pushNumber, if_neg (by decide)]
  exact first.pushNumber _

theorem Marked.pushEntry {bytes : ByteArray} (marked : Marked bytes) (entry : String × Nat) :
    Marked (pushEntry bytes entry) :=
  (Marked.pushCounted (fun marked c => marked.pushNumber c.toNat) marked _).pushNumber _

theorem Marked.pushGrams {bytes : ByteArray} (marked : Marked bytes) (table : GramTable) :
    Marked (pushGrams bytes table) :=
  ((marked.pushNumber _).pushNumber _).pushNumber _

theorem Model.marked_toBytes (model : Model) : Marked model.toBytes := by
  have start := marked_pushNumber_mark.pushNumber model.vectorSize
  have grams := Marked.pushCounted Marked.pushGrams start model.grams.toArray
  have entries := Marked.pushCounted Marked.pushEntry grams model.vocabulary.entries.toArray
  exact Marked.pushCounted (Marked.pushCounted fun marked component => marked.pushWord _) entries _

/-- The model that the files of a tree give. -/
def Source.train (source : Source) (tree : Tree) (backend : Backend) (training : Training) :
    Except Failure Model := do
  if !tree.isDirectory (source.directory tree) then
    throw (.missingCorpus (source.directory tree))
  let sentences ← Graph.readSentences tree (source.directory tree)
  if sentences.flatten.length = 0 then
    throw (.emptyCorpus (source.directory tree))
  Model.train backend sentences training

theorem Source.train_eq_ok {source : Source} {tree : Tree} {backend : Backend} {training : Training}
    {model : Model} :
    source.train tree backend training = .ok model ↔
      tree.isDirectory (source.directory tree) = true ∧
        ∃ sentences, Graph.readSentences tree (source.directory tree) = .ok sentences ∧
          sentences.flatten ≠ [] ∧ Model.train backend sentences training = .ok model := by
  simp only [Source.train, guard_eq_ok, bind_eq_ok, Bool.not_eq_true', Bool.not_eq_false,
    List.length_eq_zero_iff]

/-- Training writes nothing but notices. -/
theorem run_trainFromFiles (source : Source) (backend : Backend) (training : Training)
    (before : Workspace) :
    ∃ notices, (trainFromFiles source backend training).run.run before =
      (source.train before.tree backend training, { before with notices }) := by
  simp only [trainFromFiles, Source.train, Work.run_bind, Work.run_tree]
  split
  · exact ⟨_, rfl⟩
  · simp only [Work.run_bind, Work.run_note, Work.run_ofExcept]
    cases Graph.readSentences before.tree (source.directory before.tree) with
    | error failure => exact ⟨_, rfl⟩
    | ok sentences =>
        rw [ok_bind]
        dsimp only
        split
        · exact ⟨_, rfl⟩
        · simp only [Work.run_bind, Work.run_note, Work.run_ofExcept]
          exact ⟨_, rfl⟩

namespace Model

theorem backend_train {backend : Backend} {sentences : List (List String)} {training : Training}
    {model : Model} (trained : train backend sentences training = .ok model) :
    model.backend = backend := by
  obtain ⟨-, -, rfl⟩ := train_eq_ok.mp trained
  cases backend <;> rfl

/-- What writing a model comes to, and the tree that it leaves. -/
inductive Writes (model : Model) (path : Path) (before : Tree) : Except Failure Unit → Tree → Prop
  | unstarted {fault : Fault}
      (blocked : (before.makeDirectories path.parent).1 = .error fault) :
      Writes model path before (.error (.io path.parent fault))
        (before.makeDirectories path.parent).2
  | unwritten {fault : Fault}
      (made : (before.makeDirectories path.parent).1 = .ok ())
      (blocked : (before.makeDirectories path.parent).2.write (path ++ ".tmp") model.toBytes =
        .error fault) :
      Writes model path before (.error (.io (path ++ ".tmp") fault))
        (before.makeDirectories path.parent).2
  | unmoved {written : Tree} {fault : Fault}
      (made : (before.makeDirectories path.parent).1 = .ok ())
      (wrote : (before.makeDirectories path.parent).2.write (path ++ ".tmp") model.toBytes =
        .ok written)
      (blocked : written.rename (path ++ ".tmp") path = .error fault) :
      Writes model path before (.error (.io path fault)) written
  | moved {written after : Tree}
      (made : (before.makeDirectories path.parent).1 = .ok ())
      (wrote : (before.makeDirectories path.parent).2.write (path ++ ".tmp") model.toBytes =
        .ok written)
      (renamed : written.rename (path ++ ".tmp") path = .ok after) :
      Writes model path before (.ok ()) after

theorem run_of_writes {model : Model} {path : Path} {before after : Tree}
    {outcome : Except Failure Unit} (writes : Writes model path before outcome after)
    (notices : List Notice) :
    (model.write path).run.run ⟨before, notices⟩ = (outcome, ⟨after, notices⟩) := by
  simp only [write, Work.run_bind, Work.run_makeDirectories, Work.run_change]
  cases writes with
  | unstarted blocked => simp only [blocked, Except.mapError]
  | unwritten made blocked => simp only [made, Except.mapError, blocked]
  | unmoved made wrote blocked => simp only [made, Except.mapError, wrote, blocked]
  | moved made wrote renamed => simp only [made, Except.mapError, wrote, renamed]

theorem Writes.unique {model : Model} {path : Path} {before after other : Tree}
    {outcome result : Except Failure Unit} (writes : Writes model path before outcome after)
    (writes' : Writes model path before result other) : outcome = result ∧ after = other := by
  have same := (run_of_writes writes []).symm.trans (run_of_writes writes' [])
  exact ⟨congrArg Prod.fst same, congrArg (·.2.tree) same⟩

theorem exists_writes (model : Model) (path : Path) (before : Tree) :
    ∃ outcome after, Writes model path before outcome after := by
  cases made : (before.makeDirectories path.parent).1 with
  | error fault => exact ⟨_, _, .unstarted made⟩
  | ok =>
      cases wrote : (before.makeDirectories path.parent).2.write (path ++ ".tmp")
          model.toBytes with
      | error fault => exact ⟨_, _, .unwritten made wrote⟩
      | ok written =>
          cases renamed : written.rename (path ++ ".tmp") path with
          | error fault => exact ⟨_, _, .unmoved made wrote renamed⟩
          | ok after => exact ⟨_, _, .moved made wrote renamed⟩

theorem read_of_writes {model : Model} {path : Path} {before after : Tree}
    (writes : Writes model path before (.ok ()) after) : after.read path = .ok model.toBytes := by
  cases writes with
  | moved made wrote renamed => exact Tree.read_rename (Tree.read_write wrote) renamed

theorem keeps_of_writes {model : Model} {path : Path} {before after : Tree}
    {outcome : Except Failure Unit} (writes : Writes model path before outcome after) :
    Tree.Keeps Marked before after := by
  have keeps : Tree.Keeps Marked before (before.makeDirectories path.parent).2 :=
    (Tree.Grows.makeDirectories path.parent before).keeps Marked
  cases writes with
  | unstarted | unwritten => exact keeps
  | unmoved made wrote => exact keeps.trans (.write model.marked_toBytes wrote)
  | moved made wrote renamed =>
      apply keeps.trans
      exact .trans (.write model.marked_toBytes wrote)
        (.rename model.marked_toBytes (Tree.read_write wrote) renamed)

/-- What asking for a model can come to, and the tree that it leaves. -/
inductive Calls (source : Source) (backend : Backend) (training : Training) (before : Tree) :
    Except Failure Model → Tree → Prop
  | stored {outcome : Except Failure Model}
      (present : before.isPresent ((training.key backend).path source.cache) = true)
      (reads : read backend before ((training.key backend).path source.cache) = outcome) :
      Calls source backend training before outcome before
  | untrained {failure : Failure}
      (absent : before.isPresent ((training.key backend).path source.cache) = false)
      (fails : source.train before backend training = .error failure) :
      Calls source backend training before (.error failure) before
  | unwritten {trained : Model} {failure : Failure} {after : Tree}
      (absent : before.isPresent ((training.key backend).path source.cache) = false)
      (trains : source.train before backend training = .ok trained)
      (writes : Writes trained ((training.key backend).path source.cache) before
        (.error failure) after) :
      Calls source backend training before (.error failure) after
  | written {trained : Model} {after : Tree}
      (absent : before.isPresent ((training.key backend).path source.cache) = false)
      (trains : source.train before backend training = .ok trained)
      (writes : Writes trained ((training.key backend).path source.cache) before (.ok ()) after) :
      Calls source backend training before (.ok trained.ofBits) after

theorem loadOrTrain_eq (source : Source) (backend : Backend) (training : Training) :
    loadOrTrain source backend training = (do
      let path := (training.key backend).path source.cache
      if !(← Work.tree).isPresent path then
        let model ← trainFromFiles source backend training
        model.write path
        Work.note (.createdModel backend path)
      Work.ofExcept (read backend (← Work.tree) path)) :=
  rfl

/-- A model that has its file is read from it, and nothing is written. -/
theorem run_loadOrTrain {source : Source} {backend : Backend} {training : Training}
    {before : Workspace}
    (present : before.tree.isPresent ((training.key backend).path source.cache) = true) :
    (loadOrTrain source backend training).run.run before =
      (read backend before.tree ((training.key backend).path source.cache), before) := by
  simp only [loadOrTrain_eq, Work.run_bind, Work.run_tree, present, Bool.not_true,
    Bool.false_eq_true, if_false, Work.run_ofExcept]

theorem read_eq_ofBits {backend : Backend} {tree : Tree} {path : Path} {model : Model}
    (same : model.backend = backend) (held : tree.read path = .ok model.toBytes) :
    read backend tree path = .ok model.ofBits := by
  have own : model.ofBits.backend = backend := same
  rw [read, held]
  dsimp only
  rw [ofBytes?_toBytes, Option.filter_some_pos (by simpa using own)]

theorem calls_run (source : Source) (backend : Backend) (training : Training)
    (before : Workspace) :
    Calls source backend training before.tree
      ((loadOrTrain source backend training).run.run before).1
      ((loadOrTrain source backend training).run.run before).2.tree := by
  cases present : before.tree.isPresent ((training.key backend).path source.cache) with
  | true =>
      rw [run_loadOrTrain present]
      exact .stored present rfl
  | false =>
      obtain ⟨notices, ran⟩ := run_trainFromFiles source backend training before
      simp only [loadOrTrain_eq, Work.run_bind, Work.run_tree, present, Bool.not_false, if_true, ran]
      cases trains : source.train before.tree backend training with
      | error failure => exact .untrained present trains
      | ok trained =>
          obtain ⟨outcome, after, writes⟩ :=
            exists_writes trained ((training.key backend).path source.cache) before.tree
          dsimp only
          rw [run_of_writes writes]
          cases outcome with
          | error failure => exact .unwritten present trains writes
          | ok =>
              obtain ⟨-, sentences, -, -, succeeds⟩ := Source.train_eq_ok.mp trains
              simp only [Work.run_note, Work.run_ofExcept,
                read_eq_ofBits (backend_train succeeds) (read_of_writes writes)]
              exact .written present trains writes

theorem calls_of_gives {source : Source} {backend : Backend} {training : Training}
    {before after : Workspace} {found : Model}
    (gives : (loadOrTrain source backend training).Gives before found after) :
    Calls source backend training before.tree (.ok found) after.tree := by
  have calls := calls_run source backend training before
  rwa [gives] at calls

theorem keeps_of_calls {source : Source} {backend : Backend} {training : Training}
    {before after : Tree} {outcome : Except Failure Model}
    (calls : Calls source backend training before outcome after) :
    Tree.Keeps Marked before after := by
  cases calls with
  | stored present reads => exact .refl Marked before
  | untrained absent fails => exact .refl Marked before
  | unwritten absent trains writes => exact keeps_of_writes writes
  | written absent trains writes => exact keeps_of_writes writes

/-- No file is lost when a model is loaded or trained, and none turns into another text. -/
theorem keeps_loadOrTrain (source : Source) (backend : Backend) (training : Training)
    (before : Workspace) : Work.Keeps Marked (loadOrTrain source backend training) before :=
  keeps_of_calls (calls_run source backend training before)

end Model

end Token

end DefectGraphs
