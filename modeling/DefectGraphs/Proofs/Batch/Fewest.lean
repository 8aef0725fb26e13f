import DefectGraphs.Proofs.Batch.Greedy
import Mathlib.Order.Bounds.Basic

/-!
The greedy cut has the fewest groups. It stays ahead of every other division of the sequence: what the
cut has left after some groups is an end of what the other division has left after as many.
-/

namespace DefectGraphs

section Cut

variable (size : α → Nat) (bound : Nat)

/-- Consecutive groups that make up a sequence. None is empty, and each is within the ceiling or a
single element. -/
structure IsDivision (elements : List α) (groups : List (List α)) : Prop where
  flatten_eq : groups.flatten = elements
  ne_nil : ∀ group ∈ groups, group ≠ []
  bounded : ∀ group ∈ groups, (group.map size).sum ≤ bound ∨ group.length = 1

theorem isDivision_cut (elements : List α) :
    IsDivision size bound elements (cut size bound elements) where
  flatten_eq := flatten_cut size bound elements
  ne_nil _ := ne_nil_of_mem_cut size bound
  bounded _ := bounded_of_mem_cut size bound

variable {size bound}

theorem IsDivision.mono {larger : Nat} (higher : bound ≤ larger) {elements : List α}
    {groups : List (List α)} (division : IsDivision size bound elements groups) :
    IsDivision size larger elements groups where
  flatten_eq := division.flatten_eq
  ne_nil := division.ne_nil
  bounded group member := (division.bounded group member).imp_left (Nat.le_trans · higher)

theorem IsDivision.tail {elements group : List α} {groups : List (List α)}
    (division : IsDivision size bound elements (group :: groups)) :
    IsDivision size bound groups.flatten groups where
  flatten_eq := rfl
  ne_nil other later := division.ne_nil other (List.mem_cons_of_mem group later)
  bounded other later := division.bounded other (List.mem_cons_of_mem group later)

/-- What fits beside the elements of a group is taken whole. -/
theorem takeFitting_isSuffix {filled : Nat} {group : List α}
    (fits : filled + (group.map size).sum ≤ bound ∨ group = []) (after : List α) :
    (takeFitting size bound filled (group ++ after)).2 <:+ after := by
  induction group generalizing filled with
  | nil => exact ⟨_, takeFitting_append size bound filled after⟩
  | cons element rest induction =>
      have within : filled + ((element :: rest).map size).sum ≤ bound := by simpa using fits
      rw [List.map_cons, List.sum_cons] at within
      rw [List.cons_append, takeFitting, if_neg (by omega)]
      exact induction (.inl (by omega))

/-- The first group of the cut takes all that is left of a group of the division. -/
theorem takeFitting_isSuffix_of_group {element : α} {skipped rest : List α}
    (bounded : ((skipped ++ element :: rest).map size).sum ≤ bound ∨
      (skipped ++ element :: rest).length = 1) (after : List α) :
    (takeFitting size bound (size element) (rest ++ after)).2 <:+ after := by
  apply takeFitting_isSuffix
  rcases bounded with within | single
  · rw [List.map_append, List.sum_append, List.map_cons, List.sum_cons] at within
    exact .inl (by omega)
  · rw [List.length_append, List.length_cons] at single
    exact .inr (List.eq_nil_of_length_eq_zero (by omega))

/-- The cut of an end of a sequence has no more groups than a division of the whole. The induction is
on the groups of the division. -/
theorem IsDivision.length_cut_le {elements left : List α} {groups : List (List α)}
    (division : IsDivision size bound elements groups) (ends : left <:+ elements) :
    (cut size bound left).length ≤ groups.length := by
  induction groups generalizing elements left with
  | nil =>
      rw [← division.flatten_eq, List.flatten_nil, List.suffix_nil] at ends
      rw [ends, cut_nil]
  | cons group groups induction =>
      obtain ⟨skipped, whole⟩ := ends
      rw [← division.flatten_eq, List.flatten_cons, List.append_eq_append_iff] at whole
      rcases whole with ⟨opening, rfl, rfl⟩ | ⟨between, -, passed⟩
      · cases opening with
        | nil => exact Nat.le_succ_of_le (induction division.tail (List.suffix_refl _))
        | cons element rest =>
            have later := takeFitting_isSuffix_of_group
              (division.bounded _ List.mem_cons_self) groups.flatten
            rw [List.cons_append, cut_cons, List.length_cons, List.length_cons]
            exact Nat.succ_le_succ (induction division.tail later)
      · exact Nat.le_succ_of_le (induction division.tail ⟨between, passed.symm⟩)

theorem isLeast_length_cut (size : α → Nat) (bound : Nat) (elements : List α) :
    IsLeast {count | ∃ groups, IsDivision size bound elements groups ∧ groups.length = count}
      (cut size bound elements).length := by
  refine ⟨⟨_, isDivision_cut size bound elements, rfl⟩, ?_⟩
  rintro _ ⟨groups, division, rfl⟩
  exact division.length_cut_le (List.suffix_refl _)

theorem length_cut_anti (size : α → Nat) {larger : Nat} (higher : bound ≤ larger)
    (elements : List α) :
    (cut size larger elements).length ≤ (cut size bound elements).length :=
  ((isDivision_cut size bound elements).mono higher).length_cut_le (List.suffix_refl _)

end Cut

namespace Assembler

open DefectGraphs.Graph

theorem length_batches (assembler : Assembler) (records : List (Record α)) :
    (assembler.batches records).length =
      (cut Record.nodeCount assembler.maxNodes records).length := by
  rw [batches_eq_map_cut, List.length_map]

/-- A pass gives as many batches as the best division of its records into consecutive groups under
the ceiling has groups, so a higher ceiling never leads to more of them. -/
theorem batches_areFewest (assembler : Assembler) (records : List (Record α)) :
    (∀ calls, ((Pass.ofRecords assembler records).after calls).next.1.isSome = true ↔
      calls < (assembler.batches records).length) ∧
    IsLeast {count | ∃ groups, IsDivision Record.nodeCount assembler.maxNodes records groups ∧
      groups.length = count} (assembler.batches records).length ∧
    ∀ other : Assembler, assembler.maxNodes ≤ other.maxNodes →
      (other.batches records).length ≤ (assembler.batches records).length := by
  refine ⟨fun calls => ?_, ?_, fun other higher => ?_⟩
  · have given : ((Pass.ofRecords assembler records).after calls).next.1 =
        (assembler.batches records)[calls]? := Pass.next_after _ calls
    rw [given, Option.isSome_iff_ne_none, ne_eq, List.getElem?_eq_none_iff, Nat.not_le]
  · rw [length_batches]
    exact isLeast_length_cut Record.nodeCount assembler.maxNodes records
  · rw [length_batches, length_batches]
    exact length_cut_anti Record.nodeCount higher records

/-- A graph without nodes stands beside one that is too large by itself. -/
theorem batches_areFewest_emptyGraph :
    let large : Record Unit := ⟨"a.json", none, none, true, [], List.replicate 5 #[], ()⟩
    let empty : Record Unit := ⟨"b.json", none, none, true, [], [], ()⟩
    IsDivision Record.nodeCount 3 [large, empty, large] [[large], [empty], [large]] ∧
      (Assembler.batches ⟨3, 0⟩ [large, empty, large]).length ≤ 3 ∧ 3 ≤ 10 ∧
      (Assembler.batches ⟨10, 0⟩ [large, empty, large]).length ≤
        (Assembler.batches ⟨3, 0⟩ [large, empty, large]).length := by
  intro large empty
  have division :
      IsDivision Record.nodeCount 3 [large, empty, large] [[large], [empty], [large]] :=
    ⟨rfl, by simp, by simp⟩
  obtain ⟨-, least, fewer⟩ := batches_areFewest ⟨3, 0⟩ [large, empty, large]
  exact ⟨division, least.2 ⟨_, division, rfl⟩, by decide, fewer ⟨10, 0⟩ (by decide)⟩

end Assembler

end DefectGraphs
