import DefectGraphs.Proofs.Split.Partition
import DefectGraphs.Proofs.Split.RoundTrip
import DefectGraphs.Proofs.Workspace
import DefectGraphs.Split.Store

/-!
The manifest that is made for a corpus is the one that is read from its file.
-/

namespace DefectGraphs

open Files Text

theorem toLower_of_isBlank {c : Char} (blank : isBlank c = true) : c.toLower = c := by
  have noUpper : ¬(65 ≤ c.toNat ∧ c.toNat ≤ 90) := by
    simp only [isBlank, Bool.or_eq_true, Bool.and_eq_true, decide_eq_true_eq, beq_iff_eq] at blank
    omega
  unfold Char.toLower
  rw [dif_neg]
  simpa [UInt32.le_iff_toNat_le] using noUpper

namespace Graph

/-- The name of a graph file ends in the last letter of its extension. -/
theorem getLast?_of_isGraphName {name : String} (graph : isGraphName name = true) :
    ∃ c ∈ name.toList.getLast?, c.toLower = 'n' := by
  obtain ⟨ending, told, lower⟩ := (Option.any_eq_true _ _).mp graph
  simp only [Path.extensionOfName, Option.ite_none_right_eq_some, Option.some.injEq] at told
  obtain ⟨-, rfl⟩ := told
  have letters : (name.toList.reverse.takeWhile (· != '.')).map Char.toLower =
      ['n', 'o', 's', 'j'] := by
    have reversed := congrArg String.toList (eq_of_beq lower)
    rw [String.toList_ofList, String.toList_ofList, List.map_reverse] at reversed
    exact List.reverse_injective reversed
  cases last : name.toList.reverse with
  | nil => simp [last] at letters
  | cons c rest =>
      refine ⟨c, ?_, ?_⟩
      · rw [← List.head?_reverse, last]
        rfl
      · rw [last, List.takeWhile_cons] at letters
        split at letters
        · exact (List.cons.inj letters).1
        · simp at letters

theorem isBlank_getLast?_of_isGraphName {name : String} (graph : isGraphName name = true) {c : Char}
    (last : c ∈ name.toList.getLast?) : isBlank c = false := by
  obtain ⟨c', last', lower⟩ := getLast?_of_isGraphName graph
  obtain rfl : c = c' := Option.mem_unique last last'
  by_contra blank
  rw [Bool.not_eq_false] at blank
  rw [toLower_of_isBlank blank] at lower
  subst lower
  exact absurd blank (by decide)

theorem isGraphName_of_mem {tree : Tree} {directory : Path} {names : List String}
    (listed : graphNames tree directory = .ok names) {name : String} (member : name ∈ names) :
    isGraphName name = true := by
  unfold graphNames at listed
  split at listed
  · cases listed
  · cases listed
    obtain ⟨entry, kept, rfl⟩ := List.mem_map.mp member
    exact (Bool.and_eq_true_iff.mp (List.mem_filter.mp kept).2).2

end Graph

namespace Split

theorem fromUTF8?_toUTF8 (text : String) : String.fromUTF8? text.toUTF8 = some text :=
  dif_pos text.isValidUTF8

namespace Manifest

theorem gives_write {manifest : Manifest} {path : Path} {before after : Workspace} {result : Unit}
    (written : (manifest.write path).Gives before result after) :
    after.tree.read path = .ok manifest.text.toUTF8 := by
  unfold write at written
  have wrote : ∃ start : Workspace, (Work.change path (·.write path manifest.text.toUTF8)).Gives
      start () after := by
    split at written
    · obtain ⟨_, middle, -, wrote⟩ := Work.gives_bind.mp written
      exact ⟨middle, wrote⟩
    · exact ⟨before, written⟩
  obtain ⟨start, wrote⟩ := wrote
  obtain ⟨changed, placed, rfl⟩ := Work.gives_change.mp wrote
  exact Tree.read_write placed

theorem gives_write_of_parent {manifest : Manifest} {path : Path} {before : Workspace}
    {changed : Tree} (working : path.parent.isEmpty = true)
    (written : before.tree.write path manifest.text.toUTF8 = .ok changed) :
    (manifest.write path).Gives before () { before with tree := changed } := by
  rw [write, if_neg (by simp [working])]
  exact Work.gives_change.mpr ⟨changed, written, rfl⟩

/-- A manifest that is made is that of the corpus, and it is written. -/
theorem gives_loadOrGenerate {directory path : Path} {splits seed : Nat}
    {before after : Workspace} {manifest : Manifest} (absent : before.tree.isPresent path = false) :
    (loadOrGenerate directory path splits seed).Gives before manifest after ↔
      minSplits ≤ splits ∧ before.tree.isDirectory directory = true ∧ ∃ names strata written,
        Graph.graphNames before.tree directory = .ok names ∧
        (names.mapM fun name => readStratum before.tree (directory.join name)) = .ok strata ∧
        manifest = stratified names strata splits seed ∧
        (manifest.write path).Gives before () written ∧
        after = { written with
          notices := written.notices ++ [.wroteManifest splits names.length path] } := by
  simp only [loadOrGenerate, Work.gives_bind, Work.gives_tree]
  constructor
  · rintro ⟨_, _, ⟨rfl, rfl⟩, made⟩
    rw [absent, if_neg Bool.false_ne_true] at made
    simp only [Work.gives_guard, Work.gives_bind, Work.gives_ofExcept, Work.gives_note,
      Work.gives_pure] at made
    obtain ⟨enough, present, names, _, ⟨listed, rfl⟩, strata, _, ⟨read, rfl⟩, _, written, wrote, _,
      _, rfl, rfl, rfl⟩ := made
    exact ⟨Nat.le_of_not_lt enough, by simpa using present, names, strata, written, listed, read,
      rfl, wrote, rfl⟩
  · rintro ⟨enough, present, names, strata, written, listed, read, rfl, wrote, rfl⟩
    refine ⟨_, _, ⟨rfl, rfl⟩, ?_⟩
    rw [absent, if_neg Bool.false_ne_true]
    simp only [Work.gives_guard, Work.gives_bind, Work.gives_ofExcept, Work.gives_note,
      Work.gives_pure]
    exact ⟨Nat.not_lt.mpr enough, by simp [present], names, _, ⟨listed, rfl⟩, strata, _,
      ⟨read, rfl⟩, (), written, wrote, (), _, rfl, rfl, rfl⟩

theorem read_of_loadOrGenerate {directory path : Path} {splits seed : Nat}
    {before after : Workspace} {manifest : Manifest} (absent : before.tree.isPresent path = false)
    (made : (loadOrGenerate directory path splits seed).Gives before manifest after) :
    after.tree.read path = .ok manifest.text.toUTF8 := by
  obtain ⟨-, -, names, strata, written, -, -, -, wrote, same⟩ :=
    (gives_loadOrGenerate absent).mp made
  have read := gives_write wrote
  rwa [same]

theorem load_of_read {tree : Tree} {path : Path} {manifest : Manifest}
    (read : tree.read path = .ok manifest.text.toUTF8)
    (fit : ∀ entry ∈ manifest.entries, entry.FitsLine) : load tree path = .ok manifest := by
  have told : tree.readText path = .ok manifest.text :=
    Tree.readText_eq_ok.mpr ⟨_, read, fromUTF8?_toUTF8 manifest.text⟩
  rw [load, if_pos (Tree.isFile_of_read read), told]
  exact parse_text fit

/-- Files that are no texts do not hide a manifest: what can be read later is what was written. -/
theorem load_eq {before after : Tree} {path : Path} {manifest found : Manifest}
    {isNew : ByteArray → Prop} (keeps : Tree.Keeps isNew before after)
    (noText : ∀ content, isNew content → ¬content.IsValidUTF8)
    (read : before.read path = .ok manifest.text.toUTF8)
    (fit : ∀ entry ∈ manifest.entries, entry.FitsLine) (loaded : load after path = .ok found) :
    found = manifest := by
  unfold load at loaded
  split at loaded
  · split at loaded
    · rename_i text told
      obtain ⟨content, readLater, decoded⟩ := Tree.readText_eq_ok.mp told
      rcases keeps.read_eq read readLater with new | rfl
      · rw [String.fromUTF8?, dif_neg (noText content new)] at decoded
        cases decoded
      · rw [fromUTF8?_toUTF8] at decoded
        cases decoded
        rw [parse_text fit] at loaded
        cases loaded
        rfl
    · cases loaded
  · cases loaded

theorem fitsLine_of_stratified {tree : Tree} {directory : Path} {names : List String}
    {splits : Nat} (few : splits ≤ UInt64.size)
    (listed : Graph.graphNames tree directory = .ok names)
    (unbroken : ∀ name ∈ names, '\n' ∉ name.toList) (strata : List String) (seed : Nat) :
    ∀ entry ∈ (stratified names strata splits seed).entries, entry.FitsLine := by
  intro entry member
  obtain ⟨split_lt, named⟩ := mem_entries_stratified member
  have graph := Graph.isGraphName_of_mem listed named
  refine ⟨Nat.lt_of_lt_of_le split_lt few, ?_, unbroken _ named, ?_⟩
  · intro empty
    obtain ⟨c, last, -⟩ := Graph.getLast?_of_isGraphName graph
    simp [empty] at last
  · exact fun _ => Graph.isBlank_getLast?_of_isGraphName graph

end Manifest

end Split

end DefectGraphs
