import DefectGraphs.Proofs.Balance.Oversample
import Mathlib.Algebra.GroupWithZero.Nat

/-!
What oversampling makes of the strata of a list of records. Each becomes a stack: its two groups are
as they were, and as many records of the smaller one are drawn as it lacks.
-/

namespace DefectGraphs.Balance

open DefectGraphs.Graph DefectGraphs.Random

theorem length_draw {pool : Array α} (some : 0 < pool.size) (count : Nat) (stream : Stream) :
    (draw pool count stream).length = count := by
  induction count generalizing stream with
  | zero => rfl
  | succ count induction =>
      have within := stream.below_lt some
      rw [draw, List.length_append, induction, Array.getElem?_eq_getElem within]
      simp [Nat.add_comm]

namespace Stack

section Groups

variable (stratum : Stratum) {larger smaller : List (Record α)}

theorem records_ofGroups_nil (larger : List (Record α)) :
    (ofGroups stratum larger []).records = larger := by
  simp [ofGroups, records]

theorem length_drawn_ofGroups (some : smaller ≠ []) :
    (ofGroups stratum larger smaller).drawn.length = larger.length - smaller.length := by
  rw [ofGroups, if_neg (by simpa using some)]
  exact length_draw (by simpa [List.length_pos_iff] using some) _ _

/-- Copies bring the smaller group up to the larger one, which is of another kind. -/
theorem countP_records_ofGroups (kind : Record α → Bool) (fewer : smaller.length ≤ larger.length)
    (some : smaller ≠ []) (ofLarger : ∀ record ∈ larger, kind record = true)
    (ofSmaller : ∀ record ∈ smaller, kind record = false) :
    (ofGroups stratum larger smaller).records.countP kind = larger.length ∧
      (ofGroups stratum larger smaller).records.countP (!kind ·) = larger.length := by
  have ofCopies : ∀ record ∈ smaller ++ (ofGroups stratum larger smaller).drawn,
      kind record = false := by
    intro record member
    rcases List.mem_append.mp member with inGroup | drawn
    · exact ofSmaller record inGroup
    · exact ofSmaller record (mem_smaller_of_mem_ofGroups drawn)
  have counted : (smaller ++ (ofGroups stratum larger smaller).drawn).length = larger.length := by
    rw [List.length_append, length_drawn_ofGroups stratum some]
    omega
  have kindOfRest : (smaller ++ (ofGroups stratum larger smaller).drawn).countP kind = 0 :=
    List.countP_eq_zero.mpr fun record member => by simp [ofCopies record member]
  have otherOfRest : (smaller ++ (ofGroups stratum larger smaller).drawn).countP (!kind ·) =
      larger.length := by
    rw [← counted]
    exact List.countP_eq_length.mpr fun record member => by simp [ofCopies record member]
  have kindOfLarger : larger.countP kind = larger.length := List.countP_eq_length.mpr ofLarger
  have otherOfLarger : larger.countP (!kind ·) = 0 :=
    List.countP_eq_zero.mpr fun record member => by simp [ofLarger record member]
  have whole : (ofGroups stratum larger smaller).records =
      larger ++ (smaller ++ (ofGroups stratum larger smaller).drawn) := List.append_assoc _ _ _
  rw [whole]
  constructor
  · rw [List.countP_append, kindOfLarger, kindOfRest, Nat.add_zero]
  · rw [List.countP_append, otherOfLarger, otherOfRest, Nat.zero_add]

end Groups

/-- A stack of the members of a stratum, in which the safe ones count as the larger group when both
are of one size. -/
structure IsTopUp (stack : Stack α) (members : List (Record α)) : Prop where
  safeLarger : members.countP (!·.isSafe) ≤ members.countP (·.isSafe) →
    stack.larger = members.filter (·.isSafe) ∧ stack.smaller = members.filter (!·.isSafe)
  safeSmaller : members.countP (·.isSafe) < members.countP (!·.isSafe) →
    stack.larger = members.filter (!·.isSafe) ∧ stack.smaller = members.filter (·.isSafe)
  copies : ∀ record ∈ stack.drawn, record ∈ stack.smaller
  level : 0 < members.countP (·.isSafe) → 0 < members.countP (!·.isSafe) →
    stack.records.countP (·.isSafe) =
        max (members.countP (·.isSafe)) (members.countP (!·.isSafe)) ∧
      stack.records.countP (!·.isSafe) =
        max (members.countP (·.isSafe)) (members.countP (!·.isSafe))
  unchanged : members.countP (·.isSafe) = 0 ∨ members.countP (!·.isSafe) = 0 →
    stack.records = members

section Stratum

variable (stratum : Stratum) (members : List (Record α))

theorem ofStratum_of_safeLarger
    (least : members.countP (!·.isSafe) ≤ members.countP (·.isSafe)) :
    ofStratum stratum members =
      ofGroups stratum (members.filter (·.isSafe)) (members.filter (!·.isSafe)) := by
  rw [List.countP_eq_length_filter, List.countP_eq_length_filter] at least
  exact if_neg (Nat.not_lt.mpr least)

theorem ofStratum_of_safeSmaller
    (fewer : members.countP (·.isSafe) < members.countP (!·.isSafe)) :
    ofStratum stratum members =
      ofGroups stratum (members.filter (!·.isSafe)) (members.filter (·.isSafe)) := by
  rw [List.countP_eq_length_filter, List.countP_eq_length_filter] at fewer
  exact if_pos fewer

theorem records_ofStratum_of_oneSided
    (oneSided : members.countP (·.isSafe) = 0 ∨ members.countP (!·.isSafe) = 0) :
    (ofStratum stratum members).records = members := by
  rcases Nat.lt_or_ge (members.countP (·.isSafe)) (members.countP (!·.isSafe)) with fewer | least
  · have none : members.countP (·.isSafe) = 0 := by omega
    rw [List.countP_eq_zero] at none
    rw [ofStratum_of_safeSmaller stratum members fewer, List.filter_eq_nil_iff.mpr none,
      records_ofGroups_nil, List.filter_eq_self]
    simpa using none
  · have none : members.countP (!·.isSafe) = 0 := by omega
    rw [List.countP_eq_zero] at none
    rw [ofStratum_of_safeLarger stratum members least, List.filter_eq_nil_iff.mpr none,
      records_ofGroups_nil, List.filter_eq_self]
    simpa using none

theorem countP_records_ofStratum (safe : 0 < members.countP (·.isSafe))
    (other : 0 < members.countP (!·.isSafe)) :
    (ofStratum stratum members).records.countP (·.isSafe) =
        max (members.countP (·.isSafe)) (members.countP (!·.isSafe)) ∧
      (ofStratum stratum members).records.countP (!·.isSafe) =
        max (members.countP (·.isSafe)) (members.countP (!·.isSafe)) := by
  have someSafe : members.filter (·.isSafe) ≠ [] := by
    rwa [← List.length_pos_iff, ← List.countP_eq_length_filter]
  have someOther : members.filter (!·.isSafe) ≠ [] := by
    rwa [← List.length_pos_iff, ← List.countP_eq_length_filter]
  have ofSafe : ∀ record ∈ members.filter (·.isSafe), record.isSafe = true :=
    fun record member => (List.mem_filter.mp member).2
  have ofOther : ∀ record ∈ members.filter (!·.isSafe), record.isSafe = false :=
    fun record member => by simpa using (List.mem_filter.mp member).2
  rcases Nat.lt_or_ge (members.countP (·.isSafe)) (members.countP (!·.isSafe)) with fewer | least
  · rw [ofStratum_of_safeSmaller stratum members fewer, Nat.max_eq_right (Nat.le_of_lt fewer)]
    rw [List.countP_eq_length_filter, List.countP_eq_length_filter] at fewer
    have level := countP_records_ofGroups stratum (fun record => !record.isSafe)
      (Nat.le_of_lt fewer) someSafe (by simp) (by simp)
    rw [← List.countP_eq_length_filter] at level
    simpa using level.symm
  · rw [ofStratum_of_safeLarger stratum members least, Nat.max_eq_left least]
    rw [List.countP_eq_length_filter, List.countP_eq_length_filter] at least
    have level := countP_records_ofGroups stratum (fun record => record.isSafe) least
      someOther ofSafe ofOther
    rwa [← List.countP_eq_length_filter] at level

theorem isTopUp_ofStratum : (ofStratum stratum members).IsTopUp members where
  safeLarger := by
    intro least
    rw [ofStratum_of_safeLarger stratum members least]
    exact ⟨rfl, rfl⟩
  safeSmaller := by
    intro fewer
    rw [ofStratum_of_safeSmaller stratum members fewer]
    exact ⟨rfl, rfl⟩
  copies _ := mem_smaller_of_mem_drawn
  level := countP_records_ofStratum stratum members
  unchanged := records_ofStratum_of_oneSided stratum members

end Stratum

end Stack

def piles (fields : List StratumField) (records : List (Record α)) : List (Stratum × Stack α) :=
  (strata fields records).map fun (stratum, members) => (stratum, .ofStratum stratum members)

/-- The piles hold the records stratum by stratum, and the tallies tell what is in them. -/
structure TopsUp (fields : List StratumField) (records output : List (Record α))
    (tallies : List Tally) (piles : List (Stratum × Stack α)) : Prop where
  ordered : FirstAppearances (piles.map Prod.fst) (records.map (stratumOf fields))
  laidOut : output = piles.flatMap fun pair =>
    pair.2.larger ++ pair.2.smaller ++ pair.2.drawn
  toppedUp : ∀ pair ∈ piles,
    pair.2.IsTopUp (records.filter fun record => stratumOf fields record == pair.1)
  perm : output.Perm (records ++ piles.flatMap (·.2.drawn))
  tallied : tallies = piles.map fun (stratum, stack) =>
    let members := records.filter fun record => stratumOf fields record == stratum
    ⟨stratum, members.countP (·.isSafe), members.countP (!·.isSafe), stack.drawn.length⟩
  total : (tallies.map fun tally => tally.safe + tally.unsafeCount + tally.drawn).sum =
    output.length

section Oversample

variable (fields : List StratumField) (records : List (Record α))

theorem members_of_mem_strata {pair : Stratum × List (Record α)}
    (member : pair ∈ strata fields records) :
    pair.2 = records.filter fun record => stratumOf fields record == pair.1 :=
  ((mem_groupBy_iff (stratumOf fields) records pair).mp member).2

theorem oversample_eq :
    oversample fields records = (piles fields records).flatMap (·.2.records) := by
  rw [oversample, piles, List.flatMap_map]

theorem oversample_perm :
    (oversample fields records).Perm (records ++ (piles fields records).flatMap (·.2.drawn)) := by
  have groups : ((piles fields records).flatMap fun pair =>
      pair.2.larger ++ pair.2.smaller).Perm records := by
    rw [piles, List.flatMap_map]
    exact (List.Perm.flatMap_left _ fun pair _ => Stack.perm_ofStratum pair.1 pair.2).trans
      (flatMap_groupBy_perm (stratumOf fields) records)
  rw [oversample_eq]
  exact (List.flatMap_append_perm _ _ _).symm.trans (groups.append_right _)

theorem total_tallies :
    ((tallies fields records).map fun tally => tally.safe + tally.unsafeCount + tally.drawn).sum =
      (oversample fields records).length := by
  rw [oversample, List.length_flatMap, tallies, List.map_map]
  congr 1
  apply List.map_congr_left
  rintro ⟨stratum, members⟩ _
  have groups := (Stack.perm_ofStratum stratum members).length_eq
  have kinds : members.length = members.countP (·.isSafe) + members.countP (!·.isSafe) := by
    simpa using members.length_eq_countP_add_countP (·.isSafe)
  rw [List.length_append] at groups
  simp only [Function.comp_apply, Stack.records, List.length_append]
  omega

end Oversample

end DefectGraphs.Balance
