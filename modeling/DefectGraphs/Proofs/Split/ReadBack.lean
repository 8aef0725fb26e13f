import DefectGraphs.Proofs.Split.Store

/-!
A manifest that was made is the one that is read ever after, just when no file name in it has a line
feed. A name with a line feed takes two lines, which are not those of any entry that was written.
-/

namespace DefectGraphs.Split

open Files

theorem exists_entry_stratified {filenames : List String} (labels : List String) {splits : Nat}
    (some : 0 < splits) (seed : Nat) {name : String} (member : name ∈ filenames) :
    ∃ entry ∈ (stratified filenames labels splits seed).entries, entry.filename = name := by
  have shared := (stratified_partitions filenames labels splits seed some).mem_iff.mpr member
  obtain ⟨fold, -, listed⟩ := List.mem_flatMap.mp shared
  obtain ⟨entry, kept, named⟩ := List.mem_map.mp listed
  exact ⟨entry, List.mem_of_mem_filter kept, named⟩

namespace Manifest

/-- Whoever asks for the manifest at a path is given this one, and no file is changed. -/
structure StandsAt (manifest : Manifest) (path : Path) (workspace : Workspace) : Prop where
  load : Manifest.load workspace.tree path = .ok manifest
  reuse : ∀ directory splits seed, (loadOrGenerate directory path splits seed).Gives workspace
    manifest { workspace with notices := workspace.notices ++ [.reusedManifest path] }

theorem load_eq_ok {tree : Tree} {path : Path} {manifest : Manifest} :
    load tree path = .ok manifest ↔
      ∃ text, tree.readText path = .ok text ∧ parse text = .ok manifest := by
  unfold load
  constructor
  · intro loaded
    split at loaded
    · split at loaded
      · exact ⟨_, ‹_›, loaded⟩
      · cases loaded
    · cases loaded
  · rintro ⟨text, told, parsed⟩
    obtain ⟨content, read, -⟩ := Tree.readText_eq_ok.mp told
    rw [if_pos (Tree.isFile_of_read read), told]
    exact parsed

theorem standsAt_of_load {manifest : Manifest} {path : Path} {workspace : Workspace}
    (loaded : Manifest.load workspace.tree path = .ok manifest) :
    manifest.StandsAt path workspace := by
  refine ⟨loaded, ?_⟩
  intro directory splits seed
  obtain ⟨text, told, -⟩ := load_eq_ok.mp loaded
  obtain ⟨content, read, -⟩ := Tree.readText_eq_ok.mp told
  have present : workspace.tree.isPresent path = true := Tree.isPresent_of_read read
  simp only [loadOrGenerate, Work.gives_bind, Work.gives_tree]
  refine ⟨_, _, ⟨rfl, rfl⟩, ?_⟩
  rw [present, if_pos rfl]
  simp only [Work.gives_bind, Work.gives_note, Work.gives_ofExcept]
  exact ⟨(), _, rfl, loaded, rfl⟩

theorem unbroken_of_load {tree : Tree} {path : Path} {names strata : List String} {splits : Nat}
    (some : 0 < splits) {seed : Nat}
    (loaded : load tree path = .ok (stratified names strata splits seed)) :
    ∀ name ∈ names, '\n' ∉ name.toList := by
  intro name member
  obtain ⟨text, -, parsed⟩ := load_eq_ok.mp loaded
  obtain ⟨entry, listed, rfl⟩ := exists_entry_stratified strata some seed member
  exact (fitsLine_of_parse parsed entry listed).unbroken

/-- While its file is left alone, the manifest that was made is the one that is read, unless a name
is broken by a line feed. -/
theorem loadOrGenerate_standsAt_iff {directory path : Path} {splits seed : Nat}
    {before after : Workspace} {manifest : Manifest} {names : List String}
    (word : splits < UInt64.size) (absent : before.tree.isPresent path = false)
    (listed : Graph.graphNames before.tree directory = .ok names)
    (made : (loadOrGenerate directory path splits seed).Gives before manifest after)
    {later : Workspace} (same : later.tree.read path = after.tree.read path) :
    manifest.StandsAt path later ↔ ∀ name ∈ names, '\n' ∉ name.toList := by
  have read : later.tree.read path = .ok manifest.text.toUTF8 :=
    same.trans (read_of_loadOrGenerate absent made)
  obtain ⟨enough, -, names', strata, -, listed', -, rfl, -⟩ := (gives_loadOrGenerate absent).mp made
  obtain rfl : names = names' := by simpa [listed] using listed'
  constructor
  · intro stands
    exact unbroken_of_load (Nat.lt_of_lt_of_le (by decide) enough) stands.load
  · intro unbroken
    apply standsAt_of_load
    exact load_of_read read (fitsLine_of_stratified (Nat.le_of_lt word) listed unbroken strata seed)

/-- A corpus of one graph, which has one node. -/
def graphNamed (name : String) : Workspace :=
  let graph : Files.Node := .file ("\x7b\"label\": \"good\", \"nodes\": " ++
    "[\x7b\"nodeType\": \"CALL\", \"value\": \"f\"\x7d], \"astEdges\": [], " ++
    "\"cfgEdges\": [], \"reachingDefEdges\": [], \"cdgEdges\": []\x7d").toUTF8
  ⟨⟨.directory [("data", .directory [(name, graph)])], []⟩, []⟩

theorem loadOrGenerate_standsAt_iff_plainName : ∃ manifest after,
    (loadOrGenerate "data" "split.txt" 3 42).Gives (graphNamed "a b:c.json") manifest after ∧
      (manifest.StandsAt "split.txt" after ↔ ∀ name ∈ ["a b:c.json"], '\n' ∉ name.toList) ∧
      manifest.StandsAt "split.txt" after := by
  have absent : (graphNamed "a b:c.json").tree.isPresent "split.txt" = false := by decide +kernel
  have listed : Graph.graphNames (graphNamed "a b:c.json").tree "data" = .ok ["a b:c.json"] := by
    decide +kernel
  have succeeds : ((loadOrGenerate "data" "split.txt" 3 42).run.run
      (graphNamed "a b:c.json")).1.isOk = true := by decide +kernel
  obtain ⟨manifest, given⟩ := exists_of_isOk succeeds
  have made := Work.gives_of_fst_eq given
  have stands := loadOrGenerate_standsAt_iff (by decide) absent listed made rfl
  exact ⟨manifest, _, made, stands, stands.mpr (by decide)⟩

/-- A name of two lines: the second is no entry. -/
theorem loadOrGenerate_lineFeed_notRead : ∃ manifest after,
    (graphNamed "a\nb.json").tree.isPresent "split.txt" = false ∧
      (loadOrGenerate "data" "split.txt" 3 42).Gives (graphNamed "a\nb.json") manifest after ∧
      manifest.filenames 0 .test = ["a\nb.json"] ∧
      Manifest.load after.tree "split.txt" = .error (.malformedLine 2 "b.json") ∧
      ((loadOrGenerate "data" "split.txt" 3 42).run.run after).1 =
        .error (.malformedLine 2 "b.json") := by
  have absent : (graphNamed "a\nb.json").tree.isPresent "split.txt" = false := by decide +kernel
  obtain ⟨made, refused, again⟩ :
      let made := (loadOrGenerate "data" "split.txt" 3 42).run.run (graphNamed "a\nb.json")
      made.1 = .ok ⟨[⟨0, .test, "a\nb.json"⟩, ⟨1, .validation, "a\nb.json"⟩,
          ⟨2, .validation, "a\nb.json"⟩]⟩ ∧
        Manifest.load made.2.tree "split.txt" = .error (.malformedLine 2 "b.json") ∧
        ((loadOrGenerate "data" "split.txt" 3 42).run.run made.2).1 =
          .error (.malformedLine 2 "b.json") := by
    decide +kernel
  exact ⟨_, _, absent, Work.gives_of_fst_eq made, by decide, refused, again⟩

end Manifest

end DefectGraphs.Split
