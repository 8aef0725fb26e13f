import Mathlib.Algebra.GroupWithZero.Nat
import Mathlib.Data.List.Basic
import Mathlib.Data.List.Chain

/-!
The greedy cut of a sequence into consecutive groups under a ceiling, over any sizes. The groups make
up the sequence; none is empty; each is within the ceiling or a single element; and none could have
taken the element that opens the group after it.
-/

namespace DefectGraphs

section Cut

variable (size : α → Nat) (bound : Nat)

/-- The longest start of a list that fits beside what fills a group already, and the rest. -/
def takeFitting (filled : Nat) : List α → List α × List α
  | [] => ([], [])
  | element :: rest =>
    if bound < filled + size element then ([], element :: rest)
    else
      let (taken, left) := takeFitting (filled + size element) rest
      (element :: taken, left)

theorem takeFitting_append (filled : Nat) (elements : List α) :
    (takeFitting size bound filled elements).1 ++ (takeFitting size bound filled elements).2 =
      elements := by
  induction elements generalizing filled with
  | nil => rfl
  | cons element rest induction =>
      simp only [takeFitting]
      split
      · rfl
      · exact congrArg (List.cons element) (induction _)

theorem takeFitting_length_le (filled : Nat) (elements : List α) :
    (takeFitting size bound filled elements).2.length ≤ elements.length := by
  have lengths := congrArg List.length (takeFitting_append size bound filled elements)
  rw [List.length_append] at lengths
  omega

theorem takeFitting_total_le {filled : Nat} (fits : filled ≤ bound) (elements : List α) :
    filled + ((takeFitting size bound filled elements).1.map size).sum ≤ bound := by
  induction elements generalizing filled with
  | nil => simpa [takeFitting] using fits
  | cons element rest induction =>
      simp only [takeFitting]
      split
      next => simpa using fits
      next within =>
        have := induction (Nat.le_of_not_lt within)
        simp only [List.map_cons, List.sum_cons]
        omega

theorem takeFitting_of_total_le {filled : Nat} {elements : List α}
    (fits : filled + (elements.map size).sum ≤ bound) :
    takeFitting size bound filled elements = (elements, []) := by
  induction elements generalizing filled with
  | nil => rfl
  | cons element rest induction =>
      rw [List.map_cons, List.sum_cons, ← Nat.add_assoc] at fits
      rw [takeFitting, if_neg (by omega), induction fits]

/-- Beside an element that is too large by itself nothing fits, not even an element of size zero. -/
theorem takeFitting_of_bound_lt {filled : Nat} (large : bound < filled) (elements : List α) :
    takeFitting size bound filled elements = ([], elements) := by
  cases elements with
  | nil => rfl
  | cons element rest =>
      rw [takeFitting, if_pos (by omega)]

theorem takeFitting_maximal {filled : Nat} {elements rest : List α} {next : α}
    (left : (takeFitting size bound filled elements).2 = next :: rest) :
    bound < filled + ((takeFitting size bound filled elements).1.map size).sum + size next := by
  induction elements generalizing filled with
  | nil => simp [takeFitting] at left
  | cons element rest induction =>
      by_cases large : bound < filled + size element
      · simp only [takeFitting, large, ↓reduceIte] at left ⊢
        obtain ⟨rfl, -⟩ := List.cons.inj left
        simpa using large
      · simp only [takeFitting, large, ↓reduceIte] at left ⊢
        have := induction left
        simp only [List.map_cons, List.sum_cons]
        omega

/-- The groups of a sequence. A group opens with an element of any size and takes the elements after
it as long as they fit. -/
def cut : List α → List (List α)
  | [] => []
  | element :: rest =>
    let split := takeFitting size bound (size element) rest
    (element :: split.1) :: cut split.2
  termination_by elements => elements.length
  decreasing_by
    exact Nat.lt_succ_of_le (takeFitting_length_le size bound (size element) rest)

@[simp] theorem cut_nil : cut size bound ([] : List α) = [] := by
  rw [cut]

theorem cut_cons (element : α) (rest : List α) :
    cut size bound (element :: rest) =
      (element :: (takeFitting size bound (size element) rest).1) ::
        cut size bound (takeFitting size bound (size element) rest).2 := by
  rw [cut]

/-- Elements that fit together make up a single group. -/
theorem cut_of_total_le {elements : List α} (some : elements ≠ [])
    (fits : (elements.map size).sum ≤ bound) : cut size bound elements = [elements] := by
  obtain ⟨element, rest, rfl⟩ := List.exists_cons_of_ne_nil some
  rw [cut_cons, takeFitting_of_total_le size bound fits, cut_nil]

theorem flatten_cut (elements : List α) : (cut size bound elements).flatten = elements := by
  induction elements using cut.induct size bound with
  | case1 => simp
  | case2 element rest split induction =>
      rw [cut_cons, List.flatten_cons, induction, List.cons_append]
      exact congrArg (List.cons element) (takeFitting_append size bound _ rest)

theorem ne_nil_of_mem_cut {elements group : List α} (member : group ∈ cut size bound elements) :
    group ≠ [] := by
  induction elements using cut.induct size bound with
  | case1 => simp at member
  | case2 element rest split induction =>
      rw [cut_cons, List.mem_cons] at member
      rcases member with rfl | later
      · exact List.cons_ne_nil _ _
      · exact induction later

theorem bounded_of_mem_cut {elements group : List α} (member : group ∈ cut size bound elements) :
    (group.map size).sum ≤ bound ∨ group.length = 1 := by
  induction elements using cut.induct size bound with
  | case1 => simp at member
  | case2 element rest split induction =>
      rw [cut_cons, List.mem_cons] at member
      rcases member with rfl | later
      · by_cases fits : size element ≤ bound
        · left
          simpa using takeFitting_total_le size bound fits rest
        · right
          rw [takeFitting_of_bound_lt size bound (by omega)]
          rfl
      · exact induction later

/-- No group could have taken the element that opens the group after it. -/
theorem isChain_cut (elements : List α) :
    (cut size bound elements).IsChain fun group following =>
      ∀ next ∈ following.head?, bound < (group.map size).sum + size next := by
  induction elements using cut.induct size bound with
  | case1 => simp
  | case2 element rest split induction =>
      rw [cut_cons]
      cases left : (takeFitting size bound (size element) rest).2 with
      | nil => simp
      | cons next after =>
          have maximal := takeFitting_maximal size bound left
          rw [show split.2 = next :: after from left, cut_cons] at induction
          rw [cut_cons, List.isChain_cons_cons]
          refine ⟨?_, induction⟩
          simpa using maximal

end Cut

section Groups

variable {groups : List (List α)}

/-- The elements of the groups before a place are followed by the element that opens the group
there. -/
theorem getElem?_flatten_sum_take (groups : List (List α)) (place : Nat)
    (nonempty : ∀ group ∈ groups, group ≠ []) :
    groups.flatten[((groups.take place).map List.length).sum]? =
      groups[place]?.bind List.head? := by
  induction groups generalizing place with
  | nil => simp
  | cons group rest induction =>
      obtain ⟨element, others, rfl⟩ :=
        List.exists_cons_of_ne_nil (nonempty group List.mem_cons_self)
      cases place with
      | zero => simp
      | succ place =>
          have later := induction place fun group member =>
            nonempty group (List.mem_cons_of_mem _ member)
          rw [List.take_succ_cons, List.map_cons, List.sum_cons, List.flatten_cons,
            List.getElem?_append_right (Nat.le_add_right _ _), Nat.add_sub_cancel_left, later,
            List.getElem?_cons_succ]

/-- Only all groups together have as many elements as all groups. -/
theorem sum_length_take_eq_iff (groups : List (List α)) (places : Nat)
    (nonempty : ∀ group ∈ groups, group ≠ []) :
    ((groups.take places).map List.length).sum = groups.flatten.length ↔
      groups.length ≤ places := by
  constructor
  · intro whole
    by_contra fewer
    have opened := getElem?_flatten_sum_take groups places nonempty
    rw [whole, List.getElem?_eq_none (Nat.le_refl _),
      List.getElem?_eq_getElem (Nat.lt_of_not_le fewer), Option.bind_some, eq_comm,
      List.head?_eq_none_iff] at opened
    exact nonempty _ (List.getElem_mem _) opened
  · intro enough
    rw [List.take_of_length_le enough, List.length_flatten]

end Groups

end DefectGraphs
