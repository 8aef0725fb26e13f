import DefectGraphs.Proofs.Balance.Settled
import DefectGraphs.Proofs.Dataset.Canonical
import DefectGraphs.Proofs.Random.Shuffle

/-!
What calls on a new data set make of its folds while no file changes. A fold is there when a load
that included it succeeded, and shuffles are all that keeps it from its canonical contents.
-/

namespace DefectGraphs.Dataset

open DefectGraphs.Graph Label Split

/-- What every state that calls lead to has in common, beside what they change. -/
structure Settled (start : Dataset) (tree : Files.Tree) (state : Dataset × Workspace) : Prop where
  tree_eq : state.2.tree = tree
  same : ∃ vectors loaded stream, state.1 = { start with vectors, loaded, stream }
  stored : ∀ held, state.1.vectors = some held → start.Stored tree held
  reordered : ∀ fold records, state.1.loaded fold = some records →
    ∃ whole, start.canonical tree fold = .ok whole ∧ records.Perm whole

namespace Settled

variable {start : Dataset} {tree : Files.Tree} {state : Dataset × Workspace}

theorem canonical_eq (settled : Settled start tree state) :
    state.1.canonical = start.canonical := by
  obtain ⟨_, _, _, same⟩ := settled.same
  rw [same]
  rfl

theorem stored_iff (settled : Settled start tree state) {held : Vectors} :
    state.1.Stored tree held ↔ start.Stored tree held := by
  obtain ⟨_, _, _, same⟩ := settled.same
  rw [same]
  constructor
  · intro stored
    exact ⟨stored.read, stored.faithful⟩
  · intro stored
    exact ⟨stored.read, stored.faithful⟩

theorem modelPath_eq (settled : Settled start tree state) :
    state.1.modelPath = start.modelPath := by
  obtain ⟨_, _, _, same⟩ := settled.same
  rw [same]
  rfl

theorem loads (settled : Settled start tree state)
    (present : tree.isPresent start.modelPath = true) (folds : List Fold) :
    state.1.Loads tree folds (loadOutcome state folds) (call state (.load folds)).1 ∧
      (call state (.load folds)).2.tree = tree := by
  have holds (held : Vectors) (there : state.1.vectors = some held) : state.1.Stored tree held :=
    settled.stored_iff.mpr (settled.stored held there)
  rw [← settled.modelPath_eq] at present
  obtain ⟨rfl, -⟩ := settled
  exact loads_load present holds folds

theorem of_loads {folds : List Fold} {outcome : Except Failure Nat} {after : Dataset × Workspace}
    (settled : Settled start tree state) (loads : state.1.Loads tree folds outcome after.1)
    (tree_eq : after.2.tree = tree) : Settled start tree after := by
  obtain ⟨after, workspace⟩ := after
  obtain ⟨vectors, loaded, stream, same⟩ := settled.same
  cases loads with
  | failed stored unread =>
      refine ⟨tree_eq, ⟨_, _, _, by rw [same]⟩, ?_, settled.reordered⟩
      intro held there
      exact settled.stored_iff.mp (stored held there)
  | succeeded stored requested read replaced =>
      subst replaced
      refine ⟨tree_eq, ⟨_, _, _, by rw [setFolds_eq, same]⟩, ?_, ?_⟩
      · intro held there
        rw [setFolds_eq] at there
        cases there
        exact settled.stored_iff.mp stored
      · intro fold records holds
        rcases loaded_setFolds holds with listed | before
        · have given := read _ listed
          rw [settled.canonical_eq] at given
          exact ⟨records, given, .refl _⟩
        · exact settled.reordered fold records before

theorem load (settled : Settled start tree state)
    (present : tree.isPresent start.modelPath = true) (folds : List Fold) :
    Settled start tree (call state (.load folds)) := by
  obtain ⟨loads, tree_eq⟩ := settled.loads present folds
  exact settled.of_loads loads tree_eq

theorem shuffle (settled : Settled start tree state) (fold : Fold) :
    Settled start tree (call state (.shuffle fold)) := by
  rcases call_shuffle state fold with ⟨-, same⟩ | ⟨records, held, shuffled⟩
  · rwa [same]
  · obtain ⟨_, _, _, same⟩ := settled.same
    rw [shuffled]
    refine ⟨settled.tree_eq, ⟨_, _, _, by rw [same]; rfl⟩, settled.stored, ?_⟩
    intro other others holds
    rw [loaded_setFold] at holds
    split at holds
    · rename_i same
      cases holds
      subst same
      obtain ⟨whole, given, reordered⟩ := settled.reordered _ records held
      exact ⟨whole, given, (Random.shuffle_perm state.1.stream records).trans reordered⟩
    · exact settled.reordered other others holds

theorem call (settled : Settled start tree state)
    (present : tree.isPresent start.modelPath = true) (first : Call) :
    Settled start tree (call state first) := by
  cases first with
  | load folds => exact settled.load present folds
  | shuffle fold => exact settled.shuffle fold

theorem run (settled : Settled start tree state)
    (present : tree.isPresent start.modelPath = true) (calls : List Call) :
    Settled start tree (calls.foldl Dataset.call state) := by
  induction calls generalizing state with
  | nil => exact settled
  | cons first rest induction => exact induction (settled.call present first)

end Settled

theorem settled_ofSettings {split : Nat} {source : Token.Source} {path : Files.Path}
    {settings : Settings} {start : Dataset} {workspace : Workspace}
    (opened : ofSettings split source path settings = .ok start) :
    Settled start workspace.tree (start, workspace) := by
  obtain rfl := eq_of_ofSettings opened
  refine ⟨rfl, ⟨_, _, _, rfl⟩, ?_, ?_⟩
  · intro held there
    cases there
  · intro fold records holds
    cases holds

theorem isLevel_of_canonical_train {dataset : Dataset} {tree : Files.Tree}
    {whole records : List (Record Target)} (given : dataset.canonical tree .train = .ok whole)
    (perm : records.Perm whole) (stratum : Balance.Stratum) :
    Balance.IsLevel (records.filter fun record =>
      Balance.stratumOf dataset.settings.stratifyBy record == stratum) := by
  obtain ⟨read, -, contains⟩ := exists_fileRecords given
  cases contains with
  | train =>
      exact (Balance.isLevel_filter_oversample dataset.settings.stratifyBy read stratum).of_perm
        (perm.filter _)

/-- All that needs the records of the fold fails for want of a load. -/
def Refuses (dataset : Dataset) (fold : Fold) : Prop :=
  dataset.records fold = .error (.foldNotLoaded fold.name) ∧
    dataset.shuffle fold = .error (.foldNotLoaded fold.name) ∧
    dataset.batches fold = .error (.foldNotLoaded fold.name)

def Answers (dataset : Dataset) (fold : Fold) : Prop :=
  (∃ records, dataset.records fold = .ok records) ∧
    (∃ shuffled, dataset.shuffle fold = .ok shuffled) ∧
    ∃ batches, dataset.batches fold = .ok batches

theorem refuses_of_loaded {dataset : Dataset} {fold : Fold} (missing : dataset.loaded fold = none) :
    dataset.Refuses fold := by
  have records : dataset.records fold = .error (.foldNotLoaded fold.name) := by
    rw [Dataset.records, missing]
  refine ⟨records, ?_, ?_⟩
  · rw [shuffle, records]
    rfl
  · rw [batches, records]
    rfl

theorem answers_of_loaded {dataset : Dataset} {fold : Fold}
    (there : (dataset.loaded fold).isSome) : dataset.Answers fold := by
  obtain ⟨held, holds⟩ := Option.isSome_iff_exists.mp there
  have records : dataset.records fold = .ok held := records_eq_ok.mpr holds
  refine ⟨⟨held, records⟩, ?_, ?_⟩
  · rw [shuffle, records]
    exact ⟨_, rfl⟩
  · rw [batches, records]
    exact ⟨_, rfl⟩

theorem records_call_shuffle (state : Dataset × Workspace) {fold other : Fold}
    (apart : other ≠ fold) :
    (call state (.shuffle fold)).1.records other = state.1.records other := by
  rcases call_shuffle state fold with ⟨-, same⟩ | ⟨records, -, shuffled⟩
  · rw [same]
  · rw [shuffled, Dataset.records, loaded_setFold, if_neg apart]
    rfl

/-- What the folds of a data set hold after calls on a new one, while no file changes. -/
structure HoldsCanonical (start : Dataset) (workspace : Workspace) (calls : List Call)
    (reached : Dataset × Workspace) : Prop where
  files : reached.2.tree = workspace.tree
  reordered : ∀ fold records, reached.1.records fold = .ok records →
    ∃ whole, start.canonical workspace.tree fold = .ok whole ∧ records.Perm whole
  /-- Training is on as many safe records as others in every stratum that has both. -/
  level : ∀ records, reached.1.records .train = .ok records → ∀ stratum,
    Balance.IsLevel (records.filter fun record =>
      Balance.stratumOf start.settings.stratifyBy record == stratum)
  reloaded : ∀ folds files, loadOutcome reached folds = .ok files → ∀ fold ∈ folds,
    ∃ whole, start.canonical workspace.tree fold = .ok whole ∧
      (call reached (.load folds)).1.records fold = .ok whole
  loads : ∀ folds, folds ≠ [] →
    (∀ fold ∈ folds, ∃ whole, start.canonical workspace.tree fold = .ok whole) →
      ∃ files, loadOutcome reached folds = .ok files
  apart : ∀ fold other, other ≠ fold →
    (call reached (.shuffle fold)).1.records other = reached.1.records other
  refuses : ∀ fold, ¬Included (start, workspace) calls fold → reached.1.Refuses fold
  answers : ∀ fold, Included (start, workspace) calls fold → reached.1.Answers fold

/-- In every state that calls lead to, the loaded folds hold their canonical contents in some
order. -/
theorem reached_holdsCanonical {split : Nat} {source : Token.Source} {path : Files.Path}
    {settings : Settings} {start : Dataset} {workspace : Workspace}
    (opened : ofSettings split source path settings = .ok start)
    (present : workspace.tree.isPresent start.modelPath = true) (calls : List Call) :
    HoldsCanonical start workspace calls (calls.foldl call (start, workspace)) := by
  have loaded := isSome_loaded_iff (loaded_ofSettings opened) workspace calls
  have reached := (settled_ofSettings opened).run present calls
  generalize calls.foldl call (start, workspace) = state at reached loaded ⊢
  refine ⟨reached.tree_eq, ?_, ?_, ?_, ?_, ?_, ?_, ?_⟩
  · intro fold records given
    exact reached.reordered fold records (records_eq_ok.mp given)
  · intro records given stratum
    obtain ⟨whole, canonical, perm⟩ := reached.reordered .train records (records_eq_ok.mp given)
    exact isLevel_of_canonical_train canonical perm stratum
  · intro folds files succeeded fold member
    obtain ⟨loads, -⟩ := reached.loads present folds
    rw [succeeded] at loads
    obtain ⟨whole, given, holds⟩ := loads.loaded_eq member
    rw [reached.canonical_eq] at given
    exact ⟨whole, given, records_eq_ok.mpr holds⟩
  · intro folds nonempty readable
    obtain ⟨loads, -⟩ := reached.loads present folds
    rw [← reached.canonical_eq] at readable
    exact loads.succeeds nonempty readable
  · intro fold other apart
    exact records_call_shuffle state apart
  · intro fold excluded
    rw [← loaded, Bool.not_eq_true, Option.isSome_eq_false_iff, Option.isNone_iff_eq_none]
      at excluded
    exact refuses_of_loaded excluded
  · intro fold included
    exact answers_of_loaded ((loaded fold).mpr included)

/-- Two unsafe graphs and a safe one to train on, and a graph to test on. -/
def unevenTrain : Workspace :=
  ⟨⟨.directory [("corpus", .directory [("a.json", oneNode "bad"), ("b.json", twoNodes "bad"),
      ("c.json", threeNodes "good"), ("d.json", oneNode "good")]),
    ("cache", .directory [("word2vec_vs100_w5.model", .file smallVectors.toBytes)]),
    ("split.txt", .file
      "0:TRAIN:a.json\n0:TRAIN:b.json\n0:TRAIN:c.json\n0:TEST:d.json\n".toUTF8)], []⟩, []⟩

/-- The safe graph is trained on twice; a shuffle moves its copy, and another load undoes that. -/
theorem reached_holdsCanonical_unevenTrain :
    ∃ start, ofSettings 0 ⟨"corpus", "corpus", "cache"⟩ "split.txt"
        { Settings.default with parallel := false } = .ok start ∧
      unevenTrain.tree.isPresent start.modelPath = true ∧
      let calls : List Call := [.load [.train, .test], .shuffle .train]
      let reached := calls.foldl call (start, unevenTrain)
      HoldsCanonical start unevenTrain calls reached ∧
        Included (start, unevenTrain) calls .train ∧
        ¬Included (start, unevenTrain) calls .validation ∧
        ((call (start, unevenTrain) (.load [.train, .test])).1.filenames .train).toOption =
          some ["a.json", "b.json", "c.json", "c.json"] ∧
        (reached.1.filenames .train).toOption = some ["c.json", "a.json", "c.json", "b.json"] ∧
        ((call reached (.load [.train])).1.filenames .train).toOption =
          some ["a.json", "b.json", "c.json", "c.json"] := by
  obtain ⟨start, opened, present, there, missing, names⟩ : ∃ start,
      ofSettings 0 ⟨"corpus", "corpus", "cache"⟩ "split.txt"
          { Settings.default with parallel := false } = .ok start ∧
        unevenTrain.tree.isPresent start.modelPath = true ∧
        let loaded := call (start, unevenTrain) (.load [.train, .test])
        let shuffled := call loaded (.shuffle .train)
        (shuffled.1.loaded .train).isSome = true ∧ (shuffled.1.loaded .validation).isSome = false ∧
          (loaded.1.filenames .train).toOption = some ["a.json", "b.json", "c.json", "c.json"] ∧
          (shuffled.1.filenames .train).toOption = some ["c.json", "a.json", "c.json", "b.json"] ∧
          ((call shuffled (.load [.train])).1.filenames .train).toOption =
            some ["a.json", "b.json", "c.json", "c.json"] :=
    ⟨_, rfl, by decide +kernel, by decide +kernel⟩
  have empty := loaded_ofSettings opened
  have included := isSome_loaded_iff empty unevenTrain [.load [.train, .test], .shuffle .train]
  refine ⟨start, opened, present, reached_holdsCanonical opened present _,
    (included .train).mp there, ?_, names⟩
  intro loaded
  exact Bool.false_ne_true (missing.symm.trans ((included .validation).mpr loaded))

end DefectGraphs.Dataset
