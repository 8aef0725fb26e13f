import DefectGraphs.Proofs.Balance.Strata

/-!
Strata are balanced apart from each other. What is made of a stratum hangs on its safe and its unsafe
records, each in their order, wherever these and the records of other strata stand in the list.
-/

namespace DefectGraphs.Balance

open DefectGraphs.Graph

section Alone

variable (fields : List StratumField) (records : List (Record α)) (stratum : Stratum)

theorem filter_strata :
    (strata fields records).filter (·.1 == stratum) =
      strata fields (records.filter (stratumOf fields · == stratum)) :=
  filter_groupBy (stratumOf fields) records stratum

theorem filter_piles :
    (piles fields records).filter (·.1 == stratum) =
      piles fields (records.filter (stratumOf fields · == stratum)) := by
  rw [piles, piles, ← filter_strata, List.filter_map]
  rfl

theorem filter_tallies :
    (tallies fields records).filter (·.stratum == stratum) =
      tallies fields (records.filter (stratumOf fields · == stratum)) := by
  rw [tallies, tallies, ← filter_strata, List.filter_map]
  rfl

/-- The strata with the records that are laid out for each. -/
def layers : List (Stratum × List (Record α)) :=
  (strata fields records).map fun (stratum, members) =>
    (stratum, (Stack.ofStratum stratum members).records)

theorem oversample_eq_flatMap_layers :
    oversample fields records = (layers fields records).flatMap Prod.snd := by
  rw [oversample, layers, List.flatMap_map]

theorem isGrouped_layers : IsGrouped (stratumOf fields) (layers fields records) where
  distinct := by
    have keys : (layers fields records).map Prod.fst = (strata fields records).map Prod.fst := by
      rw [layers, List.map_map]
      rfl
    rw [keys]
    exact (isGrouped_groupBy (stratumOf fields) records).distinct
  nonempty := by
    intro layer member
    obtain ⟨group, listed, rfl⟩ := List.mem_map.mp member
    obtain ⟨record, inside⟩ := List.exists_mem_of_ne_nil _
      ((isGrouped_groupBy (stratumOf fields) records).nonempty group listed)
    exact List.ne_nil_of_mem ((Stack.mem_records_iff group.1 group.2 record).mpr inside)
  keyed := by
    intro layer member record inside
    obtain ⟨group, listed, rfl⟩ := List.mem_map.mp member
    exact (isGrouped_groupBy (stratumOf fields) records).keyed group listed record
      ((Stack.mem_records_iff group.1 group.2 record).mp inside)

theorem filter_oversample :
    (oversample fields records).filter (stratumOf fields · == stratum) =
      oversample fields (records.filter (stratumOf fields · == stratum)) := by
  rw [oversample_eq_flatMap_layers, (isGrouped_layers fields records).filter_flatMap,
    oversample_eq_flatMap_layers, layers, layers, ← filter_strata, List.filter_map]
  rfl

end Alone

/-- The safe records of the stratum are the same in both lists, in the same order, and so are the
unsafe ones. -/
def SameGroups (fields : List StratumField) (stratum : Stratum) (records others : List (Record α)) :
    Prop :=
  ∀ isSafe : Bool,
    (records.filter (stratumOf fields · == stratum)).filter (·.isSafe == isSafe) =
      (others.filter (stratumOf fields · == stratum)).filter (·.isSafe == isSafe)

/-- What oversampling makes of the stratum is the same for both lists. -/
structure SameFor (fields : List StratumField) (stratum : Stratum)
    (records others : List (Record α)) : Prop where
  output : (oversample fields records).filter (stratumOf fields · == stratum) =
    (oversample fields others).filter (stratumOf fields · == stratum)
  piles : (piles fields records).filter (·.1 == stratum) =
    (piles fields others).filter (·.1 == stratum)
  tallies : (tallies fields records).filter (·.stratum == stratum) =
    (tallies fields others).filter (·.stratum == stratum)

section Groups

variable {fields : List StratumField} {stratum : Stratum} {records others : List (Record α)}

/-- Records of one stratum make up that stratum alone. -/
theorem strata_filter (nonempty : records.filter (stratumOf fields · == stratum) ≠ []) :
    strata fields (records.filter (stratumOf fields · == stratum)) =
      [(stratum, records.filter (stratumOf fields · == stratum))] := by
  have single : IsGrouped (stratumOf fields)
      [(stratum, records.filter (stratumOf fields · == stratum))] := by
    refine ⟨List.pairwise_singleton _ _, ?_, ?_⟩
    · simpa using nonempty
    · simp
  simpa [strata] using single.groupBy_flatMap

theorem SameGroups.eq_nil_iff (same : SameGroups fields stratum records others) :
    records.filter (stratumOf fields · == stratum) = [] ↔
      others.filter (stratumOf fields · == stratum) = [] := by
  have parts (members : List (Record α)) :
      members = [] ↔ ∀ isSafe, members.filter (·.isSafe == isSafe) = [] := by
    constructor
    · rintro rfl isSafe
      rfl
    · intro empty
      rw [List.eq_nil_iff_forall_not_mem]
      intro record member
      have inside : record ∈ members.filter (·.isSafe == record.isSafe) :=
        List.mem_filter.mpr ⟨member, beq_self_eq_true record.isSafe⟩
      rw [empty record.isSafe] at inside
      exact List.not_mem_nil inside
  rw [parts, parts (others.filter _)]
  exact forall_congr' fun isSafe => by rw [same isSafe]

/-- What is made of a stratum is the same when its groups are, if it does not hang on how the two
groups stand among each other. -/
theorem SameGroups.map_strata (same : SameGroups fields stratum records others)
    (make : Stratum × List (Record α) → β)
    (made : make (stratum, records.filter (stratumOf fields · == stratum)) =
      make (stratum, others.filter (stratumOf fields · == stratum))) :
    (strata fields (records.filter (stratumOf fields · == stratum))).map make =
      (strata fields (others.filter (stratumOf fields · == stratum))).map make := by
  by_cases empty : records.filter (stratumOf fields · == stratum) = []
  · rw [empty, same.eq_nil_iff.mp empty]
  · rw [strata_filter empty, strata_filter (mt same.eq_nil_iff.mpr empty), List.map_singleton,
      List.map_singleton, made]

theorem SameGroups.safe (same : SameGroups fields stratum records others) :
    (records.filter (stratumOf fields · == stratum)).filter (·.isSafe) =
      (others.filter (stratumOf fields · == stratum)).filter (·.isSafe) := by
  simpa only [beq_true] using same true

theorem SameGroups.notSafe (same : SameGroups fields stratum records others) :
    (records.filter (stratumOf fields · == stratum)).filter (!·.isSafe) =
      (others.filter (stratumOf fields · == stratum)).filter (!·.isSafe) := by
  simpa only [beq_false] using same false

theorem SameGroups.ofStratum (same : SameGroups fields stratum records others) :
    Stack.ofStratum stratum (records.filter (stratumOf fields · == stratum)) =
      Stack.ofStratum stratum (others.filter (stratumOf fields · == stratum)) := by
  rw [Stack.ofStratum, Stack.ofStratum, same.safe, same.notSafe]

theorem SameGroups.sameFor (same : SameGroups fields stratum records others) :
    SameFor fields stratum records others := by
  have alike : piles fields (records.filter (stratumOf fields · == stratum)) =
      piles fields (others.filter (stratumOf fields · == stratum)) :=
    same.map_strata _ (congrArg (Prod.mk stratum) same.ofStratum)
  refine ⟨?_, ?_, ?_⟩
  · rw [filter_oversample, filter_oversample, oversample_eq, oversample_eq, alike]
  · rw [filter_piles, filter_piles, alike]
  · rw [filter_tallies, filter_tallies]
    apply same.map_strata
    simp only [List.countP_eq_length_filter, same.safe, same.notSafe, same.ofStratum]

end Groups

theorem stratumOf_congr {fields others : List StratumField}
    (same : ∀ field, field ∈ fields ↔ field ∈ others) :
    (stratumOf fields : Record α → Stratum) = stratumOf others := by
  funext record
  simp only [stratumOf, Stratum.select, List.contains_iff_mem, same]

/-- Oversampling does with the records of a stratum what it does with them alone, whatever stands
between them and however the safe ones stand among the unsafe ones. Which fields are selected
matters, and not how they are listed. -/
theorem oversample_apart (fields : List StratumField) (records : List (Record α)) :
    (∀ stratum,
      (oversample fields records).filter (stratumOf fields · == stratum) =
          oversample fields (records.filter (stratumOf fields · == stratum)) ∧
        (tallies fields records).filter (·.stratum == stratum) =
          tallies fields (records.filter (stratumOf fields · == stratum)) ∧
        ∀ others, SameGroups fields stratum records others →
          SameFor fields stratum records others) ∧
      ∀ others : List StratumField, (∀ field, field ∈ fields ↔ field ∈ others) →
        oversample fields records = oversample others records ∧
          tallies fields records = tallies others records := by
  refine ⟨fun stratum => ⟨?_, ?_, fun others => SameGroups.sameFor⟩, fun others same => ?_⟩
  · exact filter_oversample fields records stratum
  · exact filter_tallies fields records stratum
  · simp only [oversample, tallies, strata, stratumOf_congr same, and_self]

def sample (filename : String) (cwe : Nat) (isSafe : Bool) : Record Unit where
  filename
  language := some .c
  cwe := some cwe
  isSafe
  channels := []
  features := []
  label := ()

theorem oversample_apart_interleaved :
    let records := [sample "a" 1 true, sample "x" 2 false, sample "b" 1 false, sample "c" 1 false]
    let others := [sample "b" 1 false, sample "a" 1 true, sample "c" 1 false]
    SameGroups [.cwe] ⟨some 1, none⟩ records others ∧ SameFor [.cwe] ⟨some 1, none⟩ records others ∧
      (∀ field, field ∈ [StratumField.cwe] ↔ field ∈ [StratumField.cwe, .cwe]) ∧
      oversample [.cwe] records = oversample [.cwe, .cwe] records := by
  intro records others
  have same : SameGroups [.cwe] ⟨some 1, none⟩ records others := by
    intro isSafe
    cases isSafe <;> rfl
  have listed : ∀ field, field ∈ [StratumField.cwe] ↔ field ∈ [StratumField.cwe, .cwe] := by simp
  obtain ⟨apart, anyOrder⟩ := oversample_apart [.cwe] records
  exact ⟨same, (apart ⟨some 1, none⟩).2.2 others same, listed, (anyOrder [.cwe, .cwe] listed).1⟩

end DefectGraphs.Balance
