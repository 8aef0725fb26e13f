import DefectGraphs.Balance.Oversample
import DefectGraphs.Proofs.Grouping

/-!
Balancing adds copies and nothing else: the records before and after are the same as a set.
-/

namespace DefectGraphs.Balance

open DefectGraphs.Graph DefectGraphs.Random

theorem mem_of_mem_draw {pool : Array α} {count : Nat} {stream : Stream} {element : α}
    (member : element ∈ draw pool count stream) : element ∈ pool := by
  induction count generalizing stream with
  | zero => simp [draw] at member
  | succ count induction =>
      rw [draw, List.mem_append] at member
      rcases member with drawn | later
      · exact Array.mem_of_getElem? (Option.mem_toList.mp drawn)
      · exact induction later

namespace Stack

theorem perm_ofStratum (stratum : Stratum) (members : List (Record α)) :
    ((ofStratum stratum members).larger ++ (ofStratum stratum members).smaller).Perm members := by
  have both := List.filter_append_perm (fun record : Record α => record.isSafe) members
  unfold ofStratum
  by_cases fewer : (members.filter (·.isSafe)).length < (members.filter (!·.isSafe)).length
  · simp only [if_pos fewer]
    exact List.perm_append_comm.trans both
  · simp only [if_neg fewer]
    exact both

theorem mem_smaller_of_mem_ofGroups {stratum : Stratum} {larger smaller : List (Record α)}
    {record : Record α} (member : record ∈ (ofGroups stratum larger smaller).drawn) :
    record ∈ smaller := by
  simp only [ofGroups] at member
  split at member
  · simp at member
  · simpa using mem_of_mem_draw member

theorem mem_smaller_of_mem_drawn {stratum : Stratum} {members : List (Record α)}
    {record : Record α} (member : record ∈ (ofStratum stratum members).drawn) :
    record ∈ (ofStratum stratum members).smaller := by
  unfold ofStratum at member ⊢
  by_cases fewer : (members.filter (·.isSafe)).length < (members.filter (!·.isSafe)).length
  · simp only [if_pos fewer] at member ⊢
    exact mem_smaller_of_mem_ofGroups member
  · simp only [if_neg fewer] at member ⊢
    exact mem_smaller_of_mem_ofGroups member

theorem mem_records_iff (stratum : Stratum) (members : List (Record α)) (record : Record α) :
    record ∈ (ofStratum stratum members).records ↔ record ∈ members := by
  rw [← (perm_ofStratum stratum members).mem_iff, records, List.mem_append, or_iff_left_iff_imp]
  intro drawn
  exact List.mem_append_right _ (mem_smaller_of_mem_drawn drawn)

end Stack

theorem mem_oversample_iff (fields : List StratumField) (records : List (Record α))
    (record : Record α) : record ∈ oversample fields records ↔ record ∈ records := by
  rw [← (flatMap_groupBy_perm (stratumOf fields) records).mem_iff]
  simp only [oversample, strata, List.mem_flatMap, Stack.mem_records_iff]

end DefectGraphs.Balance
