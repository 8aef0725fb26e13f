import DefectGraphs.Proofs.Balance.Apart
import Mathlib.Logic.Function.Iterate

/-!
Balancing settles after two rounds. The first leaves strata in which nothing is to be drawn; the
second can still put the safe records of a stratum before the others, and no later one changes
anything.
-/

namespace DefectGraphs.Balance

open DefectGraphs.Graph

/-- Safe and unsafe records are equally many, or all are of one kind. -/
def IsLevel (members : List (Record α)) : Prop :=
  members.countP (·.isSafe) = members.countP (!·.isSafe) ∨
    members.countP (·.isSafe) = 0 ∨ members.countP (!·.isSafe) = 0

theorem IsLevel.of_perm {members others : List (Record α)} (level : IsLevel members)
    (perm : others.Perm members) : IsLevel others := by
  rwa [IsLevel, perm.countP_eq, perm.countP_eq]

namespace Stack

variable (stratum : Stratum) {members : List (Record α)}

theorem isLevel_records (members : List (Record α)) :
    IsLevel (ofStratum stratum members).records := by
  rcases Nat.eq_zero_or_pos (members.countP (·.isSafe)) with none | safe
  · rw [records_ofStratum_of_oneSided stratum members (.inl none)]
    exact .inr (.inl none)
  · rcases Nat.eq_zero_or_pos (members.countP (!·.isSafe)) with none | other
    · rw [records_ofStratum_of_oneSided stratum members (.inr none)]
      exact .inr (.inr none)
    · obtain ⟨safeCount, otherCount⟩ := countP_records_ofStratum stratum members safe other
      exact .inl (safeCount.trans otherCount.symm)

theorem length_records (members : List (Record α)) :
    (ofStratum stratum members).records.length =
      members.length + (ofStratum stratum members).drawn.length := by
  rw [records, List.length_append, (perm_ofStratum stratum members).length_eq]

theorem drawn_of_isLevel (level : IsLevel members) : (ofStratum stratum members).drawn = [] := by
  rcases level with same | oneSided
  · rw [ofStratum_of_safeLarger stratum members (Nat.le_of_eq same.symm)]
    rw [List.countP_eq_length_filter, List.countP_eq_length_filter] at same
    simp [ofGroups, same, draw]
  · have lengths := length_records stratum members
    rw [records_ofStratum_of_oneSided stratum members oneSided] at lengths
    exact List.length_eq_zero_iff.mp (Nat.left_eq_add.mp lengths)

/-- Without draws the safe records stand before the others. -/
theorem records_of_isLevel (level : IsLevel members) :
    (ofStratum stratum members).records =
      members.filter (·.isSafe) ++ members.filter (!·.isSafe) := by
  have undrawn := drawn_of_isLevel stratum level
  rcases level with same | oneSided
  · rw [ofStratum_of_safeLarger stratum members (Nat.le_of_eq same.symm)] at undrawn ⊢
    rw [records, undrawn, List.append_nil]
    rfl
  · rw [records_ofStratum_of_oneSided stratum members oneSided]
    simp only [List.countP_eq_zero] at oneSided
    rcases oneSided with none | none
    · rw [List.filter_eq_nil_iff.mpr none, List.nil_append, List.filter_eq_self.mpr]
      simpa using none
    · rw [List.filter_eq_nil_iff.mpr none, List.append_nil, List.filter_eq_self.mpr]
      simpa using none

theorem records_records_of_isLevel (level : IsLevel members) :
    (ofStratum stratum (ofStratum stratum members).records).records =
      (ofStratum stratum members).records := by
  rw [records_of_isLevel stratum (isLevel_records stratum members),
    records_of_isLevel stratum level]
  simp

end Stack

section Rounds

variable (fields : List StratumField) (records : List (Record α))

theorem strata_oversample : strata fields (oversample fields records) = layers fields records := by
  rw [oversample_eq_flatMap_layers]
  exact (isGrouped_layers fields records).groupBy_flatMap

theorem isLevel_of_mem_strata {group : Stratum × List (Record α)}
    (member : group ∈ strata fields (oversample fields records)) : IsLevel group.2 := by
  rw [strata_oversample] at member
  obtain ⟨before, -, rfl⟩ := List.mem_map.mp member
  exact Stack.isLevel_records before.1 before.2

theorem isLevel_filter_oversample (stratum : Stratum) :
    IsLevel ((oversample fields records).filter fun record =>
      stratumOf fields record == stratum) := by
  by_cases there : stratum ∈ (oversample fields records).map (stratumOf fields)
  · have member : (stratum, (oversample fields records).filter fun record =>
        stratumOf fields record == stratum) ∈ strata fields (oversample fields records) :=
      (mem_groupBy_iff _ _ _).mpr ⟨there, rfl⟩
    exact isLevel_of_mem_strata fields records member
  · have none : (oversample fields records).filter (fun record =>
        stratumOf fields record == stratum) = [] := by
      rw [List.filter_eq_nil_iff]
      intro record member same
      exact there (List.mem_map.mpr ⟨record, member, by simpa using same⟩)
    rw [none]
    exact .inl rfl

theorem flatMap_drawn_oversample :
    (piles fields (oversample fields records)).flatMap (·.2.drawn) = [] := by
  rw [List.flatMap_eq_nil_iff]
  intro pile member
  obtain ⟨group, listed, rfl⟩ := List.mem_map.mp member
  exact Stack.drawn_of_isLevel group.1 (isLevel_of_mem_strata fields records listed)

theorem oversample_fixed :
    oversample fields (oversample fields (oversample fields records)) =
      oversample fields (oversample fields records) := by
  have alike : layers fields (oversample fields (oversample fields records)) =
      layers fields (oversample fields records) := by
    rw [layers, strata_oversample, layers, List.map_map]
    apply List.map_congr_left
    intro group listed
    exact congrArg (Prod.mk group.1) (Stack.records_records_of_isLevel group.1
      (isLevel_of_mem_strata fields records listed))
  rw [oversample_eq_flatMap_layers, alike, ← oversample_eq_flatMap_layers]

/-- Balanced records are balanced again without a draw: they come back in the same strata, and from
the second round on also in the same order. -/
theorem oversample_settles :
    (∀ tally ∈ tallies fields (oversample fields records), tally.drawn = 0) ∧
      (oversample fields (oversample fields records)).Perm (oversample fields records) ∧
      (strata fields (oversample fields (oversample fields records))).map Prod.fst =
        (strata fields (oversample fields records)).map Prod.fst ∧
      ∀ rounds, (oversample fields)^[rounds + 2] records =
        oversample fields (oversample fields records) := by
  refine ⟨?_, ?_, ?_, ?_⟩
  · intro tally member
    obtain ⟨group, listed, rfl⟩ := List.mem_map.mp member
    exact List.length_eq_zero_iff.mpr
      (Stack.drawn_of_isLevel group.1 (isLevel_of_mem_strata fields records listed))
  · have perm := oversample_perm fields (oversample fields records)
    rwa [flatMap_drawn_oversample, List.append_nil] at perm
  · rw [strata_oversample fields (oversample fields records), layers, List.map_map]
    rfl
  · intro rounds
    rw [Function.iterate_add_apply]
    exact Function.iterate_fixed (oversample_fixed fields records) rounds

end Rounds

end DefectGraphs.Balance
