import DefectGraphs.Proofs.Files.Tree

/-!
Paths that end in the name of a file: whatever directory they speak of, the name is the last part
of the place that they lead to.
-/

namespace DefectGraphs.Files

/-- What stands before the names that are joined to a base. -/
def Path.opening (base : Path) : String :=
  if base.isEmpty then ""
  else if base.toList.getLast? == some '/' then base
  else base ++ "/"

theorem Path.opening_eq (base : Path) :
    base.opening = "" ∨ ∃ above, base.opening.toList = above ++ ['/'] := by
  unfold opening
  split
  · exact .inl rfl
  · right
    split
    · exact List.getLast?_eq_some_iff.mp (eq_of_beq ‹_›)
    · exact ⟨base.toList, by simp⟩

/-- A name that stands for an entry of a directory. -/
structure Path.IsPlain (name : String) : Prop where
  unbroken : '/' ∉ name.toList
  nonempty : name ≠ ""
  notHere : name ≠ "."
  notAbove : name ≠ ".."

namespace Path.IsPlain

variable {name : String}

theorem of_length (unbroken : '/' ∉ name.toList) (long : 2 < name.toList.length) :
    IsPlain name where
  unbroken := unbroken
  nonempty := by
    rintro rfl
    exact absurd long (by decide)
  notHere := by
    rintro rfl
    exact absurd long (by decide)
  notAbove := by
    rintro rfl
    exact absurd long (by decide)

theorem not_isAbsolute (plain : IsPlain name) : Path.isAbsolute name = false := by
  rw [Path.isAbsolute, beq_eq_false_iff_ne]
  intro first
  exact plain.unbroken (List.mem_of_mem_head? first)

theorem join_eq (plain : IsPlain name) (base : Path) : base.join name = base.opening ++ name := by
  unfold Path.join Path.opening
  rw [plain.not_isAbsolute, Bool.false_or]
  split
  · exact String.empty_append.symm
  · split <;> rfl

theorem join_append (plain : IsPlain name) {ending : String} (plain' : IsPlain (name ++ ending))
    (base : Path) : base.join name ++ ending = base.join (name ++ ending) := by
  rw [plain.join_eq, plain'.join_eq, String.append_assoc]

theorem join_inj (plain : IsPlain name) {other : String} (plain' : IsPlain other) {base : Path}
    (same : base.join name = base.join other) : name = other := by
  rw [plain.join_eq, plain'.join_eq, ← String.toList_inj, String.toList_append,
    String.toList_append] at same
  exact String.toList_inj.mp (List.append_cancel_left same)

theorem exists_pieces_join (plain : IsPlain name) (base : Path) :
    ∃ above, (base.join name).pieces = above ++ [name] := by
  have alone : name.toList.splitOn '/' = [name.toList] := List.splitOn_eq_singleton plain.unbroken
  rw [plain.join_eq, Path.pieces, String.toList_append]
  rcases base.opening_eq with none | ⟨above, ends⟩
  · rw [none, String.toList_empty, List.nil_append, alone, List.map_singleton, String.ofList_toList]
    exact ⟨[], rfl⟩
  · have parts : (above ++ '/' :: name.toList).splitOn '/' =
        above.splitOn '/' ++ [name.toList] := by
      rw [← alone]
      exact List.splitOnP_append_cons above name.toList (beq_self_eq_true '/')
    rw [ends, List.append_assoc, List.singleton_append, parts, List.map_append, List.map_singleton,
      String.ofList_toList]
    exact ⟨_, rfl⟩

theorem exists_moves_join (plain : IsPlain name) (base : Path) :
    ∃ above, Tree.moves (base.join name) = above ++ [.enter name] := by
  obtain ⟨above, pieces⟩ := plain.exists_pieces_join base
  have named : ([name].filter (· != "")).map (fun piece =>
      if piece = "." then Move.stay else if piece = ".." then .up else .enter piece) =
        [.enter name] := by
    simp [plain.nonempty, plain.notHere, plain.notAbove]
  rw [Tree.moves, pieces, List.filter_append, List.map_append, named]
  exact ⟨_, rfl⟩

end Path.IsPlain

namespace Tree

theorem exists_entry_of_walk {root : Node} {name : String} {moves : List Move}
    {location : List String} {place : Place}
    (walked : walk root location (moves ++ [.enter name]) = .ok place) :
    ∃ directory, place = .entry directory name := by
  induction moves generalizing location with
  | nil =>
      have here := hasDirectory_of_walk walked
      rw [List.nil_append, walk_of_hasDirectory here] at walked
      cases walked
      exact ⟨location, rfl⟩
  | cons move rest induction =>
      have here := hasDirectory_of_walk walked
      rw [List.cons_append, walk_of_hasDirectory here] at walked
      cases move with
      | stay => exact induction walked
      | up => exact induction walked
      | enter first =>
          dsimp only at walked
          rw [if_neg (by simp)] at walked
          split at walked
          · cases walked
          · exact induction walked

theorem exists_entry_of_place {tree : Tree} {base : Path} {name : String}
    (plain : Path.IsPlain name) {place : Place} (placed : tree.place (base.join name) = .ok place) :
    ∃ directory, place = .entry directory name := by
  obtain ⟨above, moves⟩ := plain.exists_moves_join base
  simp only [Tree.place, guard_eq_ok, moves] at placed
  exact exists_entry_of_walk placed.2.2.2

theorem exists_of_locate_join {tree : Tree} {base : Path} {name : String}
    (plain : Path.IsPlain name) {location : List String}
    (located : tree.locate (base.join name) = .ok location) :
    ∃ directory, location = directory ++ [name] := by
  obtain ⟨place, placed, leads⟩ := locate_eq_ok located
  obtain ⟨directory, rfl⟩ := exists_entry_of_place plain placed
  exact ⟨directory, leads⟩

end Tree

end DefectGraphs.Files
