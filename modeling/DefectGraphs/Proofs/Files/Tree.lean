import DefectGraphs.Proofs.Files.Node
import DefectGraphs.Proofs.Outcome

/-!
What the operations on a tree of files keep: directories stay where they are, paths lead where they
led, and files hold what they held, but for the one content that is written.
-/

namespace DefectGraphs.Files.Tree

theorem entryLocation_eq_ok {directory : List String} {name : String} {location : List String}
    (located : entryLocation directory name = .ok location) : location = directory ++ [name] := by
  simp only [entryLocation, guard_eq_ok] at located
  cases located.2
  rfl

theorem walk_of_hasDirectory {root : Node} {location : List String}
    (directory : root.HasDirectory location) (move : Move) (rest : List Move) :
    walk root location (move :: rest) =
      match move with
      | .stay => walk root location rest
      | .up => walk root location.dropLast rest
      | .enter name =>
        if rest.isEmpty then .ok (.entry location name)
        else if name.utf8ByteSize > nameLimit then .error .nameTooLong
        else walk root (location ++ [name]) rest := by
  obtain ⟨entries, present⟩ := Node.hasDirectory_iff.mp directory
  cases move <;> simp only [walk, present]

theorem hasDirectory_of_walk {root : Node} {location : List String} {move : Move}
    {rest : List Move} {place : Place} (walked : walk root location (move :: rest) = .ok place) :
    root.HasDirectory location := by
  unfold walk at walked
  split at walked
  · cases walked
  · cases walked
  · exact Node.hasDirectory_iff.mpr ⟨_, ‹_›⟩

/-- The places that paths lead to depend on the directories alone. -/
theorem walk_mono {before after : Node}
    (kept : ∀ location, before.HasDirectory location → after.HasDirectory location)
    {moves : List Move} {location : List String} {place : Place}
    (walked : walk before location moves = .ok place) : walk after location moves = .ok place := by
  induction moves generalizing location with
  | nil => rwa [walk] at walked ⊢
  | cons move rest induction =>
      have directory := hasDirectory_of_walk walked
      rw [walk_of_hasDirectory directory] at walked
      rw [walk_of_hasDirectory (kept location directory)]
      cases move with
      | stay => exact induction walked
      | up => exact induction walked
      | enter name =>
          dsimp only at walked ⊢
          split at walked
          · rwa [if_pos ‹_›]
          · rw [if_neg ‹_›]
            split at walked
            · cases walked
            · rw [if_neg ‹_›]
              exact induction walked

theorem hasDirectory_of_walk_entry {root : Node} {moves : List Move}
    {location directory : List String} {name : String}
    (walked : walk root location moves = .ok (.entry directory name)) :
    root.HasDirectory directory := by
  induction moves generalizing location with
  | nil =>
      rw [walk] at walked
      cases walked
  | cons move rest induction =>
      have here := hasDirectory_of_walk walked
      rw [walk_of_hasDirectory here] at walked
      cases move with
      | stay => exact induction walked
      | up => exact induction walked
      | enter name =>
          dsimp only at walked
          split at walked
          · cases walked
            exact here
          · split at walked
            · cases walked
            · exact induction walked

/-- Entries are those of directories that exist. -/
theorem hasDirectory_of_place {tree : Tree} {path : Path} {directory : List String} {name : String}
    (placed : tree.place path = .ok (.entry directory name)) :
    tree.root.HasDirectory directory := by
  simp only [place, guard_eq_ok] at placed
  exact hasDirectory_of_walk_entry placed.2.2.2

/-! Operations that succeed, by what they change. -/

theorem write_eq_ok {tree changed : Tree} {path : Path} {content : ByteArray} :
    tree.write path content = .ok changed ↔
      ∃ directory name, tree.place path = .ok (.entry directory name) ∧
        entryLocation directory name = .ok (directory ++ [name]) ∧ ¬endsInSlash path ∧
        ¬tree.root.HasDirectory (directory ++ [name]) ∧
        changed = { tree with root := tree.root.set (.file content) (directory ++ [name]) } := by
  simp only [write, bind_eq_ok]
  constructor
  · rintro ⟨place, placed, written⟩
    cases place with
    | directory location => cases written
    | entry directory name =>
        simp only [guard_eq_ok, bind_eq_ok] at written
        obtain ⟨noSlash, location, located, free, same⟩ := written
        obtain rfl := entryLocation_eq_ok located
        cases same
        exact ⟨directory, name, placed, located, noSlash, free, rfl⟩
  · rintro ⟨directory, name, placed, located, noSlash, free, rfl⟩
    refine ⟨_, placed, ?_⟩
    simp only [guard_eq_ok, bind_eq_ok]
    exact ⟨noSlash, _, located, free, rfl⟩

theorem makeDirectory_eq_ok {tree changed : Tree} {path : Path}
    (made : tree.makeDirectory path = .ok changed) :
    ∃ directory name, tree.place path = .ok (.entry directory name) ∧
      entryLocation directory name = .ok (directory ++ [name]) ∧
      tree.root.at? (directory ++ [name]) = none ∧
      changed = { tree with root := tree.root.set (.directory []) (directory ++ [name]) } := by
  simp only [makeDirectory, bind_eq_ok] at made
  obtain ⟨place, placed, made⟩ := made
  cases place with
  | directory location => cases made
  | entry directory name =>
      simp only [guard_eq_ok, bind_eq_ok] at made
      obtain ⟨location, located, free, same⟩ := made
      obtain rfl := entryLocation_eq_ok located
      cases same
      exact ⟨directory, name, placed, located, by simpa using free, rfl⟩

theorem read_eq_ok {tree : Tree} {path : Path} {content : ByteArray} :
    tree.read path = .ok content ↔
      ∃ location, tree.locate path = .ok location ∧
        tree.root.at? location = some (.file content) := by
  simp only [read, node, bind_eq_ok]
  constructor
  · rintro ⟨node, ⟨location, located, found⟩, reads⟩
    refine ⟨location, located, ?_⟩
    cases present : tree.root.at? location with
    | none =>
        rw [present] at found
        cases found
    | some child =>
        rw [present] at found
        cases found
        cases node with
        | file content =>
            cases reads
            rfl
        | directory entries => cases reads
  · rintro ⟨location, located, present⟩
    exact ⟨.file content, ⟨location, located, by rw [present]; rfl⟩, rfl⟩

theorem node_of_read {tree : Tree} {path : Path} {content : ByteArray}
    (read : tree.read path = .ok content) : tree.node path = .ok (.file content) := by
  obtain ⟨location, located, present⟩ := read_eq_ok.mp read
  rw [node, bind_eq_ok]
  exact ⟨location, located, by rw [present]; rfl⟩

theorem isFile_of_read {tree : Tree} {path : Path} {content : ByteArray}
    (read : tree.read path = .ok content) : tree.isFile path = true := by
  rw [isFile, node_of_read read]
  rfl

theorem isPresent_of_read {tree : Tree} {path : Path} {content : ByteArray}
    (read : tree.read path = .ok content) : tree.isPresent path = true := by
  rw [isPresent, node_of_read read]
  rfl

theorem readText_eq_ok {tree : Tree} {path : Path} {text : String} :
    tree.readText path = .ok text ↔
      ∃ content, tree.read path = .ok content ∧ String.fromUTF8? content = some text := by
  simp only [readText, bind_eq_ok]
  refine exists_congr fun content => and_congr_right fun _ => ?_
  cases String.fromUTF8? content with
  | none => simp [throw_ne_ok]
  | some found => simp [pure, Except.pure]

/-- The trees before and after some work whose new files have contents of one kind. -/
structure Keeps (isNew : ByteArray → Prop) (before after : Tree) : Prop where
  root : before.root.Keeps isNew after.root
  working : before.working = after.working

namespace Keeps

variable {isNew : ByteArray → Prop} {first second third : Tree}

theorem refl (isNew : ByteArray → Prop) (tree : Tree) : Keeps isNew tree tree :=
  ⟨.refl isNew tree.root, rfl⟩

theorem trans (earlier : Keeps isNew first second) (later : Keeps isNew second third) :
    Keeps isNew first third :=
  ⟨earlier.root.trans later.root, earlier.working.trans later.working⟩

theorem place {path : Path} {place : Place} (keeps : Keeps isNew first second)
    (placed : first.place path = .ok place) : second.place path = .ok place := by
  simp only [Tree.place, guard_eq_ok] at placed ⊢
  obtain ⟨text, nonempty, short, walked⟩ := placed
  exact ⟨text, nonempty, short, walk_mono keeps.root.directory (keeps.working ▸ walked)⟩

theorem write {path : Path} {content : ByteArray} (new : isNew content)
    (written : first.write path content = .ok second) : Keeps isNew first second := by
  obtain ⟨directory, name, -, -, -, free, rfl⟩ := write_eq_ok.mp written
  exact ⟨.setFile free new, rfl⟩

theorem remove {path : Path} {removed : ByteArray} (read : first.read path = .ok removed)
    (erased : first.remove path = .ok second) : Keeps isNew first second := by
  obtain ⟨location, located, present⟩ := read_eq_ok.mp read
  simp only [Tree.remove, bind_eq_ok, guard_eq_ok] at erased
  obtain ⟨location', located', -, same⟩ := erased
  obtain rfl : location = location' := by simpa [located] using located'
  cases same
  exact ⟨.erase present, rfl⟩

theorem rename {path target : Path} {content : ByteArray} (new : isNew content)
    (read : first.read path = .ok content) (renamed : first.rename path target = .ok second) :
    Keeps isNew first second := by
  simp only [Tree.rename, bind_eq_ok] at renamed
  obtain ⟨content', read', rest, removed, written⟩ := renamed
  obtain rfl : content = content' := by simpa [read] using read'
  exact (remove read removed).trans (write new written)

end Keeps

/-! What is read after a change. -/

theorem locate_entry {tree : Tree} {path : Path} {directory location : List String} {name : String}
    (placed : tree.place path = .ok (.entry directory name)) :
    tree.locate path = .ok location ↔
      entryLocation directory name = .ok location ∧
        ¬(endsInSlash path && (tree.root.at? location).any Node.isFile) = true := by
  simp only [locate, bind_eq_ok]
  constructor
  · rintro ⟨place, same, ends⟩
    obtain rfl : .entry directory name = place := by simpa [placed] using same
    simp only [bind_eq_ok, guard_eq_ok] at ends
    obtain ⟨location', entered, free, last⟩ := ends
    cases last
    exact ⟨entered, free⟩
  · rintro ⟨entered, free⟩
    refine ⟨_, placed, ?_⟩
    simp only [bind_eq_ok, guard_eq_ok]
    exact ⟨location, entered, free, rfl⟩

theorem locate_eq_ok {tree : Tree} {path : Path} {location : List String}
    (located : tree.locate path = .ok location) :
    ∃ place, tree.place path = .ok place ∧
      match place with
      | .directory directory => location = directory
      | .entry directory name => location = directory ++ [name] := by
  have located' := located
  simp only [locate, bind_eq_ok] at located'
  obtain ⟨place, placed, ends⟩ := located'
  refine ⟨place, placed, ?_⟩
  cases place with
  | directory directory =>
      cases ends
      rfl
  | entry directory name => exact entryLocation_eq_ok ((locate_entry placed).mp located).1

/-- A path that led somewhere still does, unless a file has come there. -/
theorem Keeps.locate {isNew : ByteArray → Prop} {before after : Tree}
    (keeps : Keeps isNew before after) {path : Path} {location : List String} (located : before.locate path = .ok location)
    (steady : (after.root.at? location).any Node.isFile = true →
      (before.root.at? location).any Node.isFile = true) :
    after.locate path = .ok location := by
  obtain ⟨place, placed, leads⟩ := locate_eq_ok located
  cases place with
  | directory directory =>
      rw [Tree.locate, keeps.place placed, leads]
      rfl
  | entry directory name =>
      rw [locate_entry placed] at located
      rw [locate_entry (keeps.place placed)]
      refine ⟨located.1, ?_⟩
      intro turned
      rw [Bool.and_eq_true] at turned
      apply located.2
      rw [Bool.and_eq_true]
      exact ⟨turned.1, steady turned.2⟩

theorem read_write {tree changed : Tree} {path : Path} {content : ByteArray}
    (written : tree.write path content = .ok changed) : changed.read path = .ok content := by
  have keeps : Keeps (fun _ => True) tree changed := .write trivial written
  obtain ⟨directory, name, placed, located, noSlash, free, rfl⟩ := write_eq_ok.mp written
  rw [read_eq_ok]
  refine ⟨directory ++ [name], ?_, ?_⟩
  · rw [locate_entry (keeps.place placed)]
    refine ⟨located, ?_⟩
    simp [noSlash]
  · have found := Node.at?_set_append tree.root (.file content) (directory ++ [name]) []
    simpa using found

theorem read_rename {tree changed : Tree} {path target : Path} {content : ByteArray}
    (read : tree.read path = .ok content) (renamed : tree.rename path target = .ok changed) :
    changed.read target = .ok content := by
  simp only [rename, bind_eq_ok] at renamed
  obtain ⟨content', read', rest, -, written⟩ := renamed
  obtain rfl : content = content' := by simpa [read] using read'
  exact read_write written

/-- A path at which something can be read later leads to what it led to. -/
theorem Keeps.read_eq {isNew : ByteArray → Prop} {earlier later : ByteArray} {before after : Tree}
    (keeps : Keeps isNew before after) {path : Path} (first : before.read path = .ok earlier)
    (second : after.read path = .ok later) : isNew later ∨ later = earlier := by
  obtain ⟨location, located, present⟩ := read_eq_ok.mp first
  obtain ⟨location', located', present'⟩ := read_eq_ok.mp second
  obtain ⟨place, placed, leads⟩ := locate_eq_ok located
  obtain ⟨place', placed', leads'⟩ := locate_eq_ok located'
  obtain rfl : place = place' := by simpa [keeps.place placed] using placed'
  obtain rfl : location = location' := by cases place <;> simp_all
  rcases keeps.root.file location later present' with new | old
  · exact .inl new
  · right
    simpa [present] using old.symm

end DefectGraphs.Files.Tree
