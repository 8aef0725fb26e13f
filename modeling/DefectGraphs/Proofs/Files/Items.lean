import DefectGraphs.Proofs.Files.Tree

/-!
What is seen in a tree of files after an operation on it. A file that is written shows at its own
place, one that is moved is gone from the place it had, and making directories adds only these.
-/

namespace DefectGraphs.Files.Tree

def item? (tree : Tree) (location : List String) : Option Node.Item :=
  tree.root.item? location

theorem item?_of_read {tree : Tree} {path : Path} {content : ByteArray}
    (read : tree.read path = .ok content) :
    ∃ location, tree.locate path = .ok location ∧ tree.item? location = some (.file content) := by
  obtain ⟨location, located, present⟩ := read_eq_ok.mp read
  exact ⟨location, located, Node.item?_eq_file.mpr present⟩

theorem isPresent_eq_false {tree : Tree} {path : Path} {location : List String}
    (located : tree.locate path = .ok location) (nothing : tree.item? location = none) :
    tree.isPresent path = false := by
  have missing : tree.root.at? location = none := Node.item?_eq_none.mp nothing
  simp only [isPresent, node, located, bind, Except.bind, missing]
  rfl

theorem Keeps.locate_of_not_file {isNew : ByteArray → Prop} {before after : Tree}
    (keeps : Keeps isNew before after) {path : Path} {location : List String}
    (located : before.locate path = .ok location)
    (plain : ∀ content, after.item? location ≠ some (.file content)) :
    after.locate path = .ok location := by
  apply keeps.locate located
  intro turned
  cases present : after.root.at? location with
  | none => simp [present] at turned
  | some node =>
      cases node with
      | file content => exact absurd (Node.item?_eq_file.mpr present) (plain content)
      | directory entries => simp [present, Node.isFile] at turned

/-- A file at a place that is left alone is read as before. -/
theorem Keeps.read_of_item? {isNew : ByteArray → Prop} {before after : Tree}
    (keeps : Keeps isNew before after) {path : Path} {location : List String} {content : ByteArray}
    (located : before.locate path = .ok location)
    (earlier : before.item? location = some (.file content))
    (later : after.item? location = some (.file content)) : after.read path = .ok content := by
  have present : before.root.at? location = some (.file content) := Node.item?_eq_file.mp earlier
  refine read_eq_ok.mpr ⟨location, ?_, Node.item?_eq_file.mp later⟩
  apply keeps.locate located
  intro
  rw [present]
  rfl

theorem item?_write {tree changed : Tree} {path : Path} {content : ByteArray}
    (written : tree.write path content = .ok changed) :
    ∃ directory name, tree.place path = .ok (.entry directory name) ∧
      changed.locate path = .ok (directory ++ [name]) ∧
      ∀ other, changed.item? other =
        if other = directory ++ [name] then some (.file content) else tree.item? other := by
  have keeps : Keeps (fun _ => True) tree changed := .write trivial written
  obtain ⟨directory, name, placed, located, noSlash, free, rfl⟩ := write_eq_ok.mp written
  refine ⟨directory, name, placed, ?_, ?_⟩
  · rw [locate_entry (keeps.place placed)]
    refine ⟨located, ?_⟩
    simp [noSlash]
  · exact Node.item?_set rfl (hasDirectory_of_place placed) free

theorem item?_makeDirectory {tree changed : Tree} {path : Path}
    (made : tree.makeDirectory path = .ok changed) :
    ∃ location, changed.working = tree.working ∧ tree.item? location = none ∧
      (∀ other, changed.item? other =
        if other = location then some .directory else tree.item? other) ∧
      changed.locate path = .ok location := by
  obtain ⟨directory, name, placed, located, free, rfl⟩ := makeDirectory_eq_ok made
  have free' : ¬tree.root.HasDirectory (directory ++ [name]) := by
    simp [Node.HasDirectory, free]
  have keeps : Keeps (fun _ => False) tree
      { tree with root := tree.root.set (.directory []) (directory ++ [name]) } :=
    ⟨.setDirectory free', rfl⟩
  have leaf : (Node.directory []).entries = [] := rfl
  have shown := Node.item?_set leaf (hasDirectory_of_place placed) free'
  refine ⟨directory ++ [name], rfl, Node.item?_eq_none.mpr free, shown, ?_⟩
  rw [locate_entry (keeps.place placed)]
  refine ⟨located, ?_⟩
  have directory' := Node.item?_eq_directory.mp ((shown _).trans (if_pos rfl))
  obtain ⟨entries, present⟩ := Node.hasDirectory_iff.mp directory'
  simp [present, Node.isFile]

theorem item?_rename {tree changed : Tree} {path target : Path} {location : List String}
    {content : ByteArray} (located : tree.locate path = .ok location) (inner : location ≠ [])
    (file : tree.item? location = some (.file content))
    (renamed : tree.rename path target = .ok changed) :
    ∃ directory name, changed.locate target = .ok (directory ++ [name]) ∧
      ∀ other, changed.item? other =
        if other = directory ++ [name] then some (.file content)
        else if other = location then none else tree.item? other := by
  have held : tree.read path = .ok content :=
    read_eq_ok.mpr ⟨location, located, Node.item?_eq_file.mp file⟩
  simp only [rename, held, remove, located, bind_eq_ok, guard_eq_ok] at renamed
  obtain ⟨_, same, rest, ⟨_, same', -, erased⟩, written⟩ := renamed
  cases same
  cases same'
  cases erased
  obtain ⟨directory, name, -, stands, shown⟩ := item?_write written
  refine ⟨directory, name, stands, ?_⟩
  intro other
  rw [shown, item?, Node.item?_erase file inner]
  rfl

/-- All that is new are directories, to each of which one of some paths leads. -/
structure Grows (paths : List Path) (before after : Tree) : Prop where
  working : after.working = before.working
  item : ∀ location, after.item? location = before.item? location ∨
    (before.item? location = none ∧ after.item? location = some .directory ∧
      ∃ path ∈ paths, after.locate path = .ok location)

namespace Grows

variable {paths : List Path} {first second third tree changed : Tree}

theorem item?_eq (grows : Grows paths first second) {location : List String} {item : Node.Item}
    (present : first.item? location = some item) : second.item? location = some item := by
  rcases grows.item location with same | ⟨nothing, -⟩
  · exact same.trans present
  · rw [nothing] at present
    cases present

theorem keeps (grows : Grows paths first second) (isNew : ByteArray → Prop) :
    Keeps isNew first second := by
  refine ⟨⟨?_, ?_⟩, grows.working.symm⟩
  · intro location directory
    exact Node.item?_eq_directory.mp (grows.item?_eq (Node.item?_eq_directory.mpr directory))
  · intro location content present
    have file : second.item? location = some (.file content) := Node.item?_eq_file.mpr present
    rcases grows.item location with same | ⟨-, directory, -⟩
    · exact .inr (Node.item?_eq_file.mp (same.symm.trans file))
    · rw [directory] at file
      cases file

theorem refl (paths : List Path) (tree : Tree) : Grows paths tree tree :=
  ⟨rfl, fun _ => .inl rfl⟩

theorem trans (earlier : Grows paths first second) (later : Grows paths second third) :
    Grows paths first third := by
  refine ⟨later.working.trans earlier.working, ?_⟩
  intro location
  rcases later.item location with same | ⟨nothing, new⟩
  · rcases earlier.item location with same' | ⟨nothing, directory, path, member, located⟩
    · exact .inl (same.trans same')
    · have directory' := same.trans directory
      refine .inr ⟨nothing, directory', path, member, ?_⟩
      apply (later.keeps fun _ => False).locate_of_not_file located
      intro content
      rw [directory']
      exact fun same => by cases same
  · rcases earlier.item location with same' | ⟨-, directory, -⟩
    · exact .inr ⟨same'.symm.trans nothing, new⟩
    · rw [directory] at nothing
      cases nothing

theorem makeDirectory {path : Path} (member : path ∈ paths)
    (made : first.makeDirectory path = .ok second) : Grows paths first second := by
  obtain ⟨location, working, nothing, shown, located⟩ := item?_makeDirectory made
  refine ⟨working, ?_⟩
  intro other
  rw [shown]
  by_cases same : other = location
  · subst same
    exact .inr ⟨nothing, if_pos rfl, path, member, located⟩
  · exact .inl (if_neg same)

theorem ensureDirectory {path : Path} (member : path ∈ paths) (tree : Tree) :
    Grows paths tree (ensureDirectory tree path).2 := by
  unfold Tree.ensureDirectory
  split
  · exact .makeDirectory member ‹_›
  · exact .refl paths tree

theorem ensureAfter {path : Path} (member : path ∈ paths)
    {above : Tree → Except Fault Unit × Tree} (grows : ∀ tree, Grows paths tree (above tree).2)
    (tree : Tree) : Grows paths tree (ensureAfter path above tree).2 := by
  have here : Grows paths tree (Tree.ensureDirectory tree path).2 := ensureDirectory member tree
  unfold Tree.ensureAfter
  split
  · rename_i failed made
    rw [made] at here
    split
    · rename_i ready prepared
      have lower := grows failed
      rw [prepared] at lower
      exact (here.trans lower).trans (ensureDirectory member ready)
    · exact here.trans (grows failed)
  · exact here

theorem ensureDirectories {others : List Path} (within : ∀ path ∈ others, path ∈ paths)
    (tree : Tree) : Grows paths tree (ensureDirectories others tree).2 := by
  induction others generalizing tree with
  | nil => exact .refl paths tree
  | cons path rest induction =>
      apply ensureAfter (within path List.mem_cons_self)
      exact induction fun other member => within other (List.mem_cons_of_mem path member)

theorem makeDirectories (path : Path) (tree : Tree) :
    Grows (path :: path.ancestors) tree (tree.makeDirectories path).2 := by
  unfold Tree.makeDirectories
  split
  · exact .refl _ tree
  · apply ensureAfter List.mem_cons_self
    exact ensureDirectories fun other member => List.mem_cons_of_mem path member

end Grows

end DefectGraphs.Files.Tree
