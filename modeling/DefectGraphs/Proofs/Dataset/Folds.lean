import DefectGraphs.Proofs.Dataset.Canonical
import Mathlib.Data.List.Pairwise

/-!
No file is in two folds of a data set, whatever calls are made: in every state each fold that a load
has included holds the files that the manifest lists for it, and the three folds together hold the
corpus.
-/

namespace DefectGraphs.Dataset

open DefectGraphs.Graph Label Split

/-- The records have just these names, some of them perhaps more than once. -/
def Names (records : List (Record Target)) (names : List String) : Prop :=
  ∀ name, name ∈ records.map Record.filename ↔ name ∈ names

theorem Reads.names {dataset : Dataset} {manifest : Manifest} {fold : Fold}
    {records : List (Record Target)} (reads : dataset.Reads manifest fold records) :
    Names records (manifest.filenames dataset.split fold) := by
  obtain ⟨read, named, contains⟩ := reads
  intro name
  rw [← named]
  simp only [List.mem_map, contains.mem_iff]

theorem Names.shuffle {records : List (Record Target)} {names : List String}
    (named : Names records names) (stream : Random.Stream) :
    Names (Random.shuffle stream records).1 names := by
  intro name
  rw [((Random.shuffle_perm stream records).map Record.filename).mem_iff]
  exact named name

/-- A data set on one split of a manifest, while the files are those of the origin and new ones that
no manifest can be read from. -/
structure Follows (manifest : Manifest) (split : Nat) (path : Files.Path) (origin : Files.Tree)
    (state : Dataset × Workspace) : Prop where
  split_eq : state.1.split = split
  manifest_eq : state.1.manifest = path
  keeps : Files.Tree.Keeps Marked origin state.2.tree
  named : ∀ fold records, state.1.loaded fold = some records →
    Names records (manifest.filenames split fold)

section Run

variable {manifest : Manifest} {split : Nat} {path : Files.Path} {origin : Files.Tree}
  {state : Dataset × Workspace}

theorem Follows.load (follows : Follows manifest split path origin state)
    (only : ∀ tree found, Files.Tree.Keeps Marked origin tree →
      Manifest.load tree path = .ok found → found = manifest) (folds : List Fold) :
    Follows manifest split path origin (call state (.load folds)) := by
  obtain ⟨kept, vectors, ⟨_, -, same⟩ | ⟨_, found, loaded, -, found_eq, -, reads, replaced⟩⟩ :=
    call_load state folds
  · refine ⟨?_, ?_, follows.keeps.trans kept, ?_⟩
    · rw [same]
      exact follows.split_eq
    · rw [same]
      exact follows.manifest_eq
    · rw [same]
      exact follows.named
  · obtain rfl : found = manifest :=
      only state.2.tree found follows.keeps (follows.manifest_eq ▸ found_eq)
    refine ⟨?_, ?_, follows.keeps.trans kept, ?_⟩
    · rw [replaced, setFolds_eq]
      exact follows.split_eq
    · rw [replaced, setFolds_eq]
      exact follows.manifest_eq
    · intro fold records holds
      rw [replaced] at holds
      rcases loaded_setFolds holds with requested | before
      · have named := (reads _ requested).names
        rwa [follows.split_eq] at named
      · exact follows.named fold records before

theorem Follows.shuffle (follows : Follows manifest split path origin state) (fold : Fold) :
    Follows manifest split path origin (call state (.shuffle fold)) := by
  rcases call_shuffle state fold with ⟨-, same⟩ | ⟨records, held, shuffled⟩
  · rwa [same]
  · rw [shuffled]
    refine ⟨follows.split_eq, follows.manifest_eq, follows.keeps, ?_⟩
    intro other others holds
    rw [loaded_setFold] at holds
    split at holds
    · rename_i same
      cases holds
      subst same
      exact (follows.named _ records held).shuffle state.1.stream
    · exact follows.named other others holds

/-- What every call keeps, every run keeps. -/
theorem Follows.run (follows : Follows manifest split path origin state)
    (only : ∀ tree found, Files.Tree.Keeps Marked origin tree →
      Manifest.load tree path = .ok found → found = manifest) (calls : List Call) :
    Follows manifest split path origin (calls.foldl call state) := by
  induction calls generalizing state with
  | nil => exact follows
  | cons call rest induction =>
      apply induction
      cases call with
      | load folds => exact follows.load only folds
      | shuffle fold => exact follows.shuffle fold

theorem follows_ofSettings {source : Token.Source} {settings : Settings} {dataset : Dataset}
    {workspace : Workspace} (opened : ofSettings split source path settings = .ok dataset) :
    Follows manifest split path workspace.tree (dataset, workspace) := by
  obtain rfl := eq_of_ofSettings opened
  refine ⟨rfl, rfl, .refl _ _, ?_⟩
  intro fold records holds
  cases holds

end Run

/-- The folds that were included in a load are there. They hold the files of the manifest, none of
which is in two of them. -/
structure FoldsApart (included : Fold → Prop) (dataset : Dataset) (manifest : Manifest)
    (split : Nat) (corpus : List String) : Prop where
  loaded : ∀ fold, included fold ↔ ∃ names, dataset.filenames fold = .ok names
  listed : ∀ fold names, dataset.filenames fold = .ok names →
    ∀ name, name ∈ names ↔ name ∈ manifest.filenames split fold
  apart : ∀ first second, first ≠ second → ∀ names others,
    dataset.filenames first = .ok names → dataset.filenames second = .ok others →
      ∀ name ∈ names, name ∉ others
  whole : (∀ fold, included fold) →
    ∀ name, name ∈ corpus ↔ ∃ fold names, dataset.filenames fold = .ok names ∧ name ∈ names

theorem filenames_eq_ok {dataset : Dataset} {fold : Fold} {names : List String} :
    dataset.filenames fold = .ok names ↔
      ∃ records, dataset.loaded fold = some records ∧ records.map Record.filename = names := by
  rw [filenames, map_eq_ok]
  simp only [records_eq_ok]

theorem Follows.foldsApart {manifest : Manifest} {split : Nat} {path : Files.Path}
    {origin : Files.Tree} {state : Dataset × Workspace} {corpus : List String}
    {included : Fold → Prop} (follows : Follows manifest split path origin state)
    (there : ∀ fold, (state.1.loaded fold).isSome ↔ included fold) (distinct : corpus.Nodup)
    (shared : (Fold.all.flatMap (manifest.filenames split)).Perm corpus) :
    FoldsApart included state.1 manifest split corpus := by
  have loaded (fold : Fold) : included fold ↔ ∃ names, state.1.filenames fold = .ok names := by
    rw [← there, Option.isSome_iff_exists]
    constructor
    · intro held
      obtain ⟨records, holds⟩ := held
      exact ⟨_, filenames_eq_ok.mpr ⟨records, holds, rfl⟩⟩
    · intro given
      obtain ⟨names, named⟩ := given
      obtain ⟨records, holds, -⟩ := filenames_eq_ok.mp named
      exact ⟨records, holds⟩
  have listed (fold : Fold) (names : List String) (given : state.1.filenames fold = .ok names)
      (name : String) : name ∈ names ↔ name ∈ manifest.filenames split fold := by
    obtain ⟨records, held, rfl⟩ := filenames_eq_ok.mp given
    exact follows.named fold records held name
  refine ⟨loaded, listed, ?_, ?_⟩
  · intro first second other names others given givenOther name member member'
    have disjoint := (List.nodup_flatMap.mp (shared.nodup_iff.mpr distinct)).2
    have : Std.Symm (Function.onFun List.Disjoint (manifest.filenames split)) :=
      ⟨fun _ _ => List.disjoint_symm⟩
    have apart := disjoint.forall first.mem_all second.mem_all other
    exact apart ((listed first names given name).mp member)
      ((listed second others givenOther name).mp member')
  · intro full name
    rw [← shared.mem_iff, List.mem_flatMap]
    constructor
    · rintro ⟨fold, -, member⟩
      obtain ⟨names, given⟩ := (loaded fold).mp (full fold)
      exact ⟨fold, names, given, (listed fold names given name).mpr member⟩
    · rintro ⟨fold, names, given, member⟩
      exact ⟨fold, fold.mem_all, (listed fold names given name).mp member⟩

/-- Nothing leaks from one fold into another, whatever calls are made on a new manifest. -/
theorem folds_apart {directory path : Files.Path} {splits seed : Nat} {manifest : Manifest}
    {before generated : Workspace} {corpus : List String} {split : Nat} {source : Token.Source}
    {settings : Settings} {start : Dataset} (word : splits < UInt64.size)
    (absent : before.tree.isPresent path = false)
    (files : graphNames before.tree directory = .ok corpus) (distinct : corpus.Nodup)
    (unbroken : ∀ name ∈ corpus, '\n' ∉ name.toList)
    (made : (Manifest.loadOrGenerate directory path splits seed).Gives before manifest generated)
    (within : split < splits) (opened : ofSettings split source path settings = .ok start)
    (calls : List Call) :
    FoldsApart (Included (start, generated) calls) (calls.foldl call (start, generated)).1 manifest
      split corpus := by
  have read := Manifest.read_of_loadOrGenerate absent made
  obtain ⟨-, -, names, strata, -, listed, -, rfl, -⟩ :=
    (Manifest.gives_loadOrGenerate absent).mp made
  obtain rfl : corpus = names := by simpa [files] using listed
  have fit := Manifest.fitsLine_of_stratified (Nat.le_of_lt word) files unbroken strata seed
  have started : Follows (stratified corpus strata splits seed) split path generated.tree
      (start, generated) := follows_ofSettings opened
  have reached := started.run (fun _ _ keeps => Manifest.load_eq keeps
    (fun _ => Marked.not_isValidUTF8) read fit) calls
  exact reached.foldsApart (isSome_loaded_iff (loaded_ofSettings opened) generated calls) distinct
    (stratified_partitions corpus strata splits seed within)

/-- The files of four unsafe graphs and a safe one, and a model of their nodes. -/
def fiveGraphs : Workspace :=
  ⟨⟨.directory [("corpus", .directory [("a.json", oneNode "bad"), ("b.json", oneNode "bad"),
      ("c.json", oneNode "good"), ("d.json", oneNode "bad"), ("e.json", oneNode "bad")]),
    ("cache", .directory [("word2vec_vs100_w5.model", .file smallVectors.toBytes)])], []⟩, []⟩

def fiveNames : List String :=
  ["a.json", "b.json", "c.json", "d.json", "e.json"]

def fiveManifest : Manifest :=
  stratified fiveNames ["bad:121:-", "bad:121:-", "good:121:-", "bad:121:-", "bad:121:-"] 4 42

theorem filenames_fiveManifest : Fold.all.map (fiveManifest.filenames 1) =
    [["a.json", "c.json", "e.json"], ["d.json"], ["b.json"]] := by
  have splits : List.range 4 = [0, 1, 2, 3] := rfl
  unfold fiveManifest stratified divisions
  simp only [splits, divideEach, divide, carve, List.mergeSort_eq_insertionSort]
  decide +kernel

/-- The workspace after the manifest has been written. -/
def fiveSplit : Workspace :=
  ⟨{ fiveGraphs.tree with
      root := fiveGraphs.tree.root.set (.file fiveManifest.text.toUTF8) ["split.txt"] },
    [.wroteManifest 4 5 "split.txt"]⟩

theorem graphNames_fiveGraphs : graphNames fiveGraphs.tree "corpus" = .ok fiveNames := by
  have located : fiveGraphs.tree.locate "corpus" = .ok ["corpus"] := by decide +kernel
  let entries := (fiveGraphs.tree.root.at? ["corpus"]).elim [] (·.entries)
  have found : fiveGraphs.tree.node "corpus" = .ok (.directory entries) := by
    rw [Files.Tree.node, bind_eq_ok]
    exact ⟨_, located, rfl⟩
  have listed : fiveGraphs.tree.list "corpus" = .ok entries := by
    rw [Files.Tree.list, found, bind_eq_ok]
    refine ⟨_, rfl, ?_⟩
    have ordered : entries.Pairwise fun left right => decide (left.1 ≤ right.1) = true := by
      decide +kernel
    rw [Files.Node.entries, List.mergeSort_of_pairwise ordered]
    rfl
  rw [graphNames, listed]
  decide +kernel

theorem isPresent_fiveGraphs : fiveGraphs.tree.isPresent "split.txt" = false := by
  decide +kernel

theorem gives_fiveGraphs : (Manifest.loadOrGenerate "corpus" "split.txt" 4 42).Gives fiveGraphs
    fiveManifest fiveSplit := by
  have strata : (fiveNames.mapM fun name =>
      readStratum fiveGraphs.tree (Files.Path.join "corpus" name)) =
        .ok ["bad:121:-", "bad:121:-", "good:121:-", "bad:121:-", "bad:121:-"] := by
    decide +kernel
  have free : ¬fiveGraphs.tree.root.HasDirectory ["split.txt"] := by
    unfold Files.Node.HasDirectory
    decide +kernel
  have placed : fiveGraphs.tree.place "split.txt" = .ok (.entry [] "split.txt") := by
    decide +kernel
  have wrote : (fiveManifest.write "split.txt").Gives fiveGraphs () _ :=
    Manifest.gives_write_of_parent (by decide +kernel) (Files.Tree.write_eq_ok.mpr
      ⟨[], "split.txt", placed, by decide +kernel, by decide +kernel, free, rfl⟩)
  exact (Manifest.gives_loadOrGenerate isPresent_fiveGraphs).mpr ⟨by decide, by decide +kernel, _,
    _, _, graphNames_fiveGraphs, strata, rfl, wrote, rfl⟩

theorem load_fiveSplit : Manifest.load fiveSplit.tree "split.txt" = .ok fiveManifest := by
  apply Manifest.load_of_read (Manifest.read_of_loadOrGenerate isPresent_fiveGraphs gives_fiveGraphs)
  exact Manifest.fitsLine_of_stratified (by decide) graphNames_fiveGraphs (by decide) _ _

/-- The names of the three folds of the second split. The only safe graph is trained on twice. -/
def fiveFolds : Fold → List String
  | .train => ["a.json", "e.json", "c.json", "c.json"]
  | .validation => ["d.json"]
  | .test => ["b.json"]

/-- A new data set on the second split. -/
def fiveStart : Dataset :=
  ⟨1, ⟨"corpus", "corpus", "cache"⟩, "split.txt", .default, none, fun _ => none,
    .ofSeed Settings.default.seed⟩

theorem stored_fiveSplit : fiveStart.Stored fiveSplit.tree ⟨smallVectors.ofBits, .empty⟩ := by
  have located : fiveSplit.tree.locate fiveStart.modelPath =
      .ok ["cache", "word2vec_vs100_w5.model"] := by decide +kernel
  have read : fiveSplit.tree.read fiveStart.modelPath = .ok smallVectors.toBytes :=
    Files.Tree.read_eq_ok.mpr ⟨_, located, rfl⟩
  exact ⟨Token.Model.read_eq_ofBits rfl read, Token.Cache.faithful_empty _⟩

theorem filenames_canonical_fiveSplit (fold : Fold) :
    (fiveStart.canonical fiveSplit.tree fold).map (·.map Record.filename) =
      .ok (fiveFolds fold) := by
  obtain ⟨train, validation, test, -⟩ :
      fiveManifest.filenames 1 .train = ["a.json", "c.json", "e.json"] ∧
        fiveManifest.filenames 1 .validation = ["d.json"] ∧
        fiveManifest.filenames 1 .test = ["b.json"] ∧ True := by
    simpa [Fold.all] using filenames_fiveManifest
  rw [canonical_eq load_fiveSplit stored_fiveSplit, plainFold, fiveStart]
  apply toOption_eq_some.mp
  cases fold with
  | train =>
      rw [train]
      decide +kernel
  | validation =>
      rw [validation]
      decide +kernel
  | test =>
      rw [test]
      decide +kernel

theorem folds_apart_fiveGraphs :
    (Manifest.loadOrGenerate "corpus" "split.txt" 4 42).Gives fiveGraphs fiveManifest fiveSplit ∧
      ofSettings 1 ⟨"corpus", "corpus", "cache"⟩ "split.txt" Settings.default = .ok fiveStart ∧
      let calls : List Call := [.load Fold.all, .shuffle .train, .load [.test]]
      FoldsApart (Included (fiveStart, fiveSplit) calls)
          (calls.foldl call (fiveStart, fiveSplit)).1 fiveManifest 1 fiveNames ∧
        (∀ fold, Included (fiveStart, fiveSplit) calls fold) ∧
        ∀ fold, (call (fiveStart, fiveSplit) (.load Fold.all)).1.filenames fold =
          .ok (fiveFolds fold) := by
  have opened :
      ofSettings 1 ⟨"corpus", "corpus", "cache"⟩ "split.txt" Settings.default = .ok fiveStart := rfl
  have present : fiveSplit.tree.isPresent fiveStart.modelPath = true := by decide +kernel
  obtain ⟨loads, -⟩ := loads_load present (fun _ held => absurd held (by simp [fiveStart])) Fold.all
  obtain ⟨files, succeeded⟩ := loads.succeeds (by decide) fun fold _ => by
    obtain ⟨whole, given, -⟩ := map_eq_ok.mp (filenames_canonical_fiveSplit fold)
    exact ⟨whole, given⟩
  rw [succeeded] at loads
  refine ⟨gives_fiveGraphs, opened, ?_, ?_, ?_⟩
  · exact folds_apart (by decide) isPresent_fiveGraphs graphNames_fiveGraphs (by decide) (by decide)
      gives_fiveGraphs (by decide) opened _
  · intro fold
    exact ⟨[], Fold.all, _, files, rfl, fold.mem_all, succeeded⟩
  · intro fold
    exact loads.filenames_eq fold.mem_all (filenames_canonical_fiveSplit fold)

end DefectGraphs.Dataset
