import DefectGraphs.Grouping
import Mathlib.Data.List.Perm.Basic

/-!
Groups hold every element once, and their keys stand in the order in which they first appear.
-/

namespace DefectGraphs

section Appearance

variable [BEq κ]

/-- The values of a list, in the order in which each appears there for the first time. -/
structure FirstAppearances (values elements : List κ) : Prop where
  mem_iff : ∀ value, value ∈ values ↔ value ∈ elements
  ascending : values.Pairwise fun first second => elements.idxOf first < elements.idxOf second

theorem FirstAppearances.nodup {values elements : List κ}
    (appearances : FirstAppearances values elements) : values.Nodup := by
  apply appearances.ascending.imp
  rintro first _ before rfl
  exact Nat.lt_irrefl _ before

theorem eraseDups_induction {motive : List κ → Prop} (nil : motive [])
    (cons : ∀ element rest, motive (rest.filter (!· == element)) → motive (element :: rest))
    (elements : List κ) : motive elements := by
  match elements with
  | [] => exact nil
  | element :: rest =>
      exact cons element rest (eraseDups_induction nil cons (rest.filter (!· == element)))
termination_by elements.length
decreasing_by exact Nat.lt_succ_of_le (List.length_filter_le _ _)

variable [LawfulBEq κ]

theorem idxOf_filter_lt_iff {keep : κ → Bool} (elements : List κ) {first second : κ}
    (kept : keep first = true) (kept' : keep second = true) :
    (elements.filter keep).idxOf first < (elements.filter keep).idxOf second ↔
      elements.idxOf first < elements.idxOf second := by
  induction elements with
  | nil => rfl
  | cons element rest induction =>
      by_cases begins : element = first
      · subst begins
        by_cases same : element = second <;> simp [List.filter_cons_of_pos kept, same]
      · by_cases begins' : element = second
        · subst begins'
          simp [List.filter_cons_of_pos kept', begins]
        · rw [List.idxOf_cons_ne rest begins, List.idxOf_cons_ne rest begins',
            Nat.succ_lt_succ_iff, ← induction]
          cases holds : keep element <;> simp [holds, List.idxOf_cons_ne, begins, begins']

theorem firstAppearances_eraseDups (elements : List κ) :
    FirstAppearances elements.eraseDups elements := by
  refine ⟨fun value => List.mem_eraseDups, ?_⟩
  induction elements using eraseDups_induction with
  | nil => exact .nil
  | cons element rest induction =>
      have later : ∀ {value}, value ∈ (rest.filter (! · == element)).eraseDups →
          value ≠ element := by
        intro value member
        simpa using (List.mem_filter.mp (List.mem_eraseDups.mp member)).2
      rw [List.eraseDups_cons, List.pairwise_cons]
      constructor
      · intro value member
        simp [List.idxOf_cons_ne rest (later member).symm]
      · refine induction.imp_of_mem ?_
        intro first second member member' before
        have before' := (idxOf_filter_lt_iff rest (by simpa using later member)
          (by simpa using later member')).mp before
        rw [List.idxOf_cons_ne rest (later member).symm, List.idxOf_cons_ne rest
          (later member').symm]
        exact Nat.succ_lt_succ before'

end Appearance

section Groups

variable [BEq κ] [LawfulBEq κ] (key : α → κ)

/-- The elements of all keys, key after key, are the elements. -/
theorem flatMap_filter_perm {keys : List κ} (distinct : keys.Nodup) {elements : List α}
    (listed : ∀ element ∈ elements, key element ∈ keys) :
    (keys.flatMap fun value => elements.filter (key · == value)).Perm elements := by
  induction keys generalizing elements with
  | nil =>
      have none : elements = [] := List.eq_nil_iff_forall_not_mem.mpr fun element member =>
        List.not_mem_nil (listed element member)
      subst none
      exact .nil
  | cons value rest induction =>
      rw [List.nodup_cons] at distinct
      have others : (rest.flatMap fun other => elements.filter (key · == other)) =
          rest.flatMap fun other => (elements.filter (!key · == value)).filter (key · == other) := by
        apply List.flatMap_congr
        intro other later
        rw [List.filter_filter]
        apply List.filter_congr
        intro element _
        have apart : other ≠ value := fun same => distinct.1 (same ▸ later)
        by_cases same : key element = other <;> simp [same, apart]
      have remaining : (rest.flatMap fun other =>
          (elements.filter (!key · == value)).filter (key · == other)).Perm
            (elements.filter (!key · == value)) := by
        apply induction distinct.2
        intro element member
        obtain ⟨inside, other⟩ := List.mem_filter.mp member
        simpa [show key element ≠ value by simpa using other] using listed element inside
      rw [List.flatMap_cons, others]
      exact (remaining.append_left _).trans (List.filter_append_perm _ elements)

theorem mem_groupBy_iff (elements : List α) (group : κ × List α) :
    group ∈ groupBy key elements ↔
      group.1 ∈ elements.map key ∧ group.2 = elements.filter (key · == group.1) := by
  obtain ⟨value, members⟩ := group
  simp only [groupBy, List.mem_map, List.mem_eraseDups, Prod.mk.injEq]
  constructor
  · rintro ⟨_, listed, rfl, rfl⟩
    exact ⟨listed, rfl⟩
  · rintro ⟨listed, rfl⟩
    exact ⟨value, listed, rfl, rfl⟩

theorem firstAppearances_groupBy (elements : List α) :
    FirstAppearances ((groupBy key elements).map Prod.fst) (elements.map key) := by
  have keys : (groupBy key elements).map Prod.fst = (elements.map key).eraseDups := by
    simp [groupBy, Function.comp_def]
  rw [keys]
  exact firstAppearances_eraseDups _

theorem flatMap_groupBy_perm (elements : List α) :
    ((groupBy key elements).flatMap Prod.snd).Perm elements := by
  rw [groupBy, List.flatMap_map]
  apply flatMap_filter_perm key (firstAppearances_eraseDups _).nodup
  intro element member
  exact List.mem_eraseDups.mpr (List.mem_map_of_mem member)

theorem groupBy_cons (element : α) (rest : List α) :
    groupBy key (element :: rest) =
      (key element, element :: rest.filter (key · == key element)) ::
        groupBy key (rest.filter (!key · == key element)) := by
  have others : (rest.map key).filter (!· == key element) =
      (rest.filter (!key · == key element)).map key := by
    rw [List.filter_map]
    rfl
  rw [groupBy, groupBy, List.map_cons, List.eraseDups_cons, List.map_cons, others,
    List.filter_cons_of_pos (by simp)]
  congr 1
  apply List.map_congr_left
  intro value member
  obtain ⟨later, listed, rfl⟩ := List.mem_map.mp (List.mem_eraseDups.mp member)
  have apart : key later ≠ key element := by simpa using (List.mem_filter.mp listed).2
  rw [List.filter_cons_of_neg (by simpa using apart.symm), List.filter_filter]
  congr 1
  apply List.filter_congr
  intro other _
  by_cases same : key other = key later <;> simp [same, apart]

/-- Keys that tell the same elements apart make the same groups, whatever the keys are. -/
theorem map_snd_groupBy_congr [BEq μ] [LawfulBEq μ] {key : α → κ} {other : α → μ}
    (same : ∀ first second, key first = key second ↔ other first = other second)
    (elements : List α) :
    (groupBy key elements).map Prod.snd = (groupBy other elements).map Prod.snd := by
  match elements with
  | [] => rfl
  | element :: rest =>
      have alike : (fun later => key later == key element) =
          fun later => other later == other element := by
        funext later
        rw [Bool.eq_iff_iff, beq_iff_eq, beq_iff_eq, same]
      have others := map_snd_groupBy_congr same (rest.filter (!key · == key element))
      rw [groupBy_cons, groupBy_cons, List.map_cons, List.map_cons, others, alike]
      simp only [congrFun alike]
termination_by elements.length
decreasing_by exact Nat.lt_succ_of_le (List.length_filter_le _ _)

end Groups

section Divided

/-- Groups of different keys, each with some elements, all of them of its key. -/
structure IsGrouped (key : α → κ) (groups : List (κ × List α)) : Prop where
  distinct : (groups.map Prod.fst).Nodup
  nonempty : ∀ group ∈ groups, group.2 ≠ []
  keyed : ∀ group ∈ groups, ∀ element ∈ group.2, key element = group.1

theorem IsGrouped.tail {key : α → κ} {group : κ × List α} {groups : List (κ × List α)}
    (grouped : IsGrouped key (group :: groups)) : IsGrouped key groups where
  distinct := (List.nodup_cons.mp grouped.distinct).2
  nonempty other later := grouped.nonempty other (List.mem_cons_of_mem group later)
  keyed other later := grouped.keyed other (List.mem_cons_of_mem group later)

theorem IsGrouped.apart {key : α → κ} {group other : κ × List α} {groups : List (κ × List α)}
    (grouped : IsGrouped key (group :: groups)) (later : other ∈ groups) : group.1 ≠ other.1 := by
  have listed : other.1 ∈ groups.map Prod.fst := List.mem_map_of_mem later
  intro same
  exact (List.nodup_cons.mp grouped.distinct).1 (same ▸ listed)

variable [BEq κ] [LawfulBEq κ]

theorem eraseDups_filter (keep : κ → Bool) (elements : List κ) :
    (elements.filter keep).eraseDups = elements.eraseDups.filter keep := by
  induction elements using eraseDups_induction with
  | nil => rfl
  | cons element rest induction =>
      rw [List.filter_filter] at induction
      rw [List.eraseDups_cons]
      by_cases kept : keep element = true
      · rw [List.filter_cons_of_pos kept, List.filter_cons_of_pos kept, List.eraseDups_cons,
          List.filter_filter, ← induction]
        simp only [Bool.and_comm]
      · have others : rest.filter keep = rest.filter fun other => keep other && !other == element := by
          apply List.filter_congr
          intro other _
          by_cases same : other = element <;> simp [same, kept]
        rw [List.filter_cons_of_neg kept, List.filter_cons_of_neg kept, others, induction]

variable (key : α → κ)

theorem isGrouped_groupBy (elements : List α) : IsGrouped key (groupBy key elements) where
  distinct := (firstAppearances_groupBy key elements).nodup
  nonempty := by
    intro group member
    obtain ⟨listed, same⟩ := (mem_groupBy_iff key elements group).mp member
    obtain ⟨element, there, holds⟩ := List.mem_map.mp listed
    rw [same]
    exact List.ne_nil_of_mem (List.mem_filter.mpr ⟨there, by simpa using holds⟩)
  keyed := by
    intro group member element inside
    obtain ⟨-, same⟩ := (mem_groupBy_iff key elements group).mp member
    rw [same] at inside
    simpa using (List.mem_filter.mp inside).2

/-- The groups of one key: there is one, unless no element has the key. -/
theorem filter_groupBy (elements : List α) (value : κ) :
    (groupBy key elements).filter (·.1 == value) =
      groupBy key (elements.filter (key · == value)) := by
  have keys : (elements.filter (key · == value)).map key =
      (elements.map key).filter (· == value) := by
    rw [List.filter_map]
    rfl
  rw [groupBy, groupBy, keys, eraseDups_filter, List.filter_map]
  apply List.map_congr_left
  intro other member
  have same : other = value := by simpa using (List.mem_filter.mp member).2
  rw [same, List.filter_filter]
  simp only [Bool.and_self]

namespace IsGrouped

variable {key} {groups : List (κ × List α)}

theorem filter_flatMap (grouped : IsGrouped key groups) (value : κ) :
    (groups.flatMap Prod.snd).filter (key · == value) =
      (groups.filter (·.1 == value)).flatMap Prod.snd := by
  induction groups with
  | nil => rfl
  | cons group rest induction =>
      have keyed := grouped.keyed group List.mem_cons_self
      rw [List.flatMap_cons, List.filter_append, induction grouped.tail]
      by_cases same : group.1 = value
      · rw [List.filter_cons_of_pos (by simpa using same), List.flatMap_cons,
          List.filter_eq_self.mpr]
        intro element member
        simp [keyed element member, same]
      · rw [List.filter_cons_of_neg (by simpa using same), List.filter_eq_nil_iff.mpr,
          List.nil_append]
        intro element member
        simp [keyed element member, same]

theorem eraseDups_keys (grouped : IsGrouped key groups) :
    ((groups.flatMap Prod.snd).map key).eraseDups = groups.map Prod.fst := by
  induction groups with
  | nil => rfl
  | cons group rest induction =>
      obtain ⟨value, members⟩ := group
      have keyed := grouped.keyed _ List.mem_cons_self
      obtain ⟨element, others, rfl⟩ :=
        List.exists_cons_of_ne_nil (grouped.nonempty _ List.mem_cons_self)
      have none : (others.map key).filter (!· == value) = [] := by
        rw [List.filter_eq_nil_iff]
        intro other member
        obtain ⟨later, inside, rfl⟩ := List.mem_map.mp member
        simp [keyed later (List.mem_cons_of_mem element inside)]
      have all : ((rest.flatMap Prod.snd).map key).filter (!· == value) =
          (rest.flatMap Prod.snd).map key := by
        rw [List.filter_eq_self]
        intro other member
        obtain ⟨later, inside, rfl⟩ := List.mem_map.mp member
        obtain ⟨group, listed, inside⟩ := List.mem_flatMap.mp inside
        simpa [grouped.tail.keyed group listed later inside] using (grouped.apart listed).symm
      rw [List.flatMap_cons, List.map_append, List.map_cons, List.cons_append,
        List.eraseDups_cons, keyed element List.mem_cons_self, List.filter_append, none, all,
        List.nil_append, induction grouped.tail, List.map_cons]

theorem filter_eq_singleton (grouped : IsGrouped key groups) {group : κ × List α}
    (member : group ∈ groups) : groups.filter (·.1 == group.1) = [group] := by
  induction groups with
  | nil => cases member
  | cons first rest induction =>
      rcases List.mem_cons.mp member with rfl | later
      · rw [List.filter_cons_of_pos (by simp), List.filter_eq_nil_iff.mpr]
        intro other later
        simpa using (grouped.apart later).symm
      · rw [List.filter_cons_of_neg (by simpa using grouped.apart later),
          induction grouped.tail later]

/-- Grouping finds the groups that its elements were put together from. -/
theorem groupBy_flatMap (grouped : IsGrouped key groups) :
    groupBy key (groups.flatMap Prod.snd) = groups := by
  have whole : ∀ group ∈ groups,
      (group.1, (groups.flatMap Prod.snd).filter (key · == group.1)) = group := by
    intro group member
    rw [grouped.filter_flatMap, grouped.filter_eq_singleton member, List.flatMap_singleton]
  rw [groupBy, grouped.eraseDups_keys, List.map_map]
  exact (List.map_congr_left whole).trans (List.map_id' groups)

end IsGrouped

end Divided

end DefectGraphs
