import DefectGraphs.Proofs.Split.Shares

/-!
Which folds of a split have files. A test fold always has some, but shares are rounded label by
label: when every label is rare, all of them can be rounded to nothing, or to all that there is.
-/

namespace DefectGraphs.Split

theorem share_pos_iff {parts : Nat} (some : 0 < parts) (files : Nat) :
    0 < share parts files ↔ parts ≤ 2 * files := by
  rw [share, Nat.div_pos_iff]
  omega

/-- Of a single file the nearest share is nothing, unless it is one of two. -/
theorem share_lt_iff {parts : Nat} (several : 2 ≤ parts) (files : Nat) :
    share parts files < files ↔ 0 < files ∧ (2 < parts ∨ 1 < files) := by
  rcases Nat.lt_or_ge 1 files with many | few
  · have less := share_lt several many
    omega
  · obtain rfl | rfl : files = 0 ∨ files = 1 := by omega
    · simp
    · rw [share, Nat.div_lt_iff_lt_mul (by omega)]
      omega

theorem countP_hasLabel (labels : List String) (label : String) :
    (List.range labels.length).countP (hasLabel labels label) = labels.count label := by
  have listed : (List.range labels.length).map (labels[·]?) = labels.map Option.some := by
    apply List.ext_getElem (by simp)
    intro position _ _
    simp
  calc (List.range labels.length).countP (hasLabel labels label)
    _ = ((List.range labels.length).map (labels[·]?)).count (some label) := by
        rw [List.count, List.countP_map]
        rfl
    _ = labels.count label := by
        rw [listed, List.count_map_of_injective _ _ (Option.some_injective String)]

theorem sharesOut_of_mem_labelDivisions (labels : List String) (count : Nat) {splits : Nat}
    (seed : Nat) (enough : minSplits ≤ splits) (label : String) :
    ∀ pair ∈ labelDivisions labels count splits seed, ∃ rest,
      pair.2.SharesOut splits (hasLabel labels label)
        ((List.range count).countP (hasLabel labels label)) rest := by
  have isLabel : hasLabel labels label = (labels.toArray[·]? == some label) := by
    funext position
    simp [hasLabel]
  rw [isLabel]
  exact sharesOut_of_mem_divisions (labels.toArray[·]?) count seed enough (some label)

theorem tested_of_mem_labelDivisions (labels : List String) {count splits : Nat} (seed : Nat)
    (enough : minSplits ≤ splits) (many : splits ≤ count) :
    ∀ pair ∈ labelDivisions labels count splits seed,
      0 < pair.2.test.length ∧ pair.2.test.length < count := by
  intro pair member
  rw [length_test_of_mem_labelDivisions labels count splits seed pair member]
  unfold minSplits at enough
  have least : 0 < count / splits := Nat.div_pos many (by omega)
  have most : count / splits ≤ count / 3 := Nat.div_le_div_left enough (by decide)
  split <;> omega

namespace Division

/-- How many files of some kind lie outside the test fold. -/
def untested (division : Division) (isMember : Nat → Bool) : Nat :=
  division.tally isMember .train + division.tally isMember .validation

/-- Which folds have files, by the files of each label that are not tested. -/
structure Filled (division : Division) (splits : Nat) (labels : List String) : Prop where
  test : division.test ≠ []
  validation : division.validation ≠ [] ↔
    ∃ label, splits - 1 ≤ 2 * division.untested (hasLabel labels label)
  train : division.train ≠ [] ↔
    3 < splits ∨ ∃ label, 2 ≤ division.untested (hasLabel labels label)

theorem SharesOut.untested_eq {division : Division} {splits : Nat} {isMember : Nat → Bool}
    {files rest : Nat} (shared : division.SharesOut splits isMember files rest) :
    division.untested isMember = rest := by
  rw [untested, shared.train, Nat.sub_add_cancel shared.validation_le]

section Labelled

variable {division : Division} {labels : List String} {splits : Nat}
  (partitions : division.Partitions labels.length)

include partitions

theorem ne_nil_iff_tally_pos (fold : Fold) :
    division.positions fold ≠ [] ↔
      ∃ label, 0 < division.tally (hasLabel labels label) fold := by
  simp only [tally, List.countP_pos_iff]
  constructor
  · intro some
    obtain ⟨position, member⟩ := List.exists_mem_of_ne_nil _ some
    have within : position < labels.length := List.mem_range.mp
      (partitions.perm.mem_iff.mp (List.mem_flatMap.mpr ⟨fold, fold.mem_all, member⟩))
    refine ⟨labels[position], position, member, ?_⟩
    simp [hasLabel, List.getElem?_eq_getElem within]
  · rintro ⟨_, position, member, -⟩
    exact List.ne_nil_of_mem member

theorem exists_untested_pos (fewer : division.test.length < labels.length) :
    ∃ label, 0 < division.untested (hasLabel labels label) := by
  have sizes := partitions.perm.length_eq
  rw [Fold.flatMap_all, List.length_append, List.length_append, List.length_range] at sizes
  have some : division.positions .train ≠ [] ∨ division.positions .validation ≠ [] := by
    by_contra none
    simp only [not_or, not_not] at none
    rw [none.1, none.2] at sizes
    exact Nat.ne_of_lt fewer (by simpa [positions] using sizes)
  rcases some with some | some
  · obtain ⟨label, held⟩ := (ne_nil_iff_tally_pos partitions .train).mp some
    exact ⟨label, Nat.add_pos_left held _⟩
  · obtain ⟨label, held⟩ := (ne_nil_iff_tally_pos partitions .validation).mp some
    exact ⟨label, Nat.add_pos_right _ held⟩

theorem filled_of_sharesOut (enough : minSplits ≤ splits)
    (shared : ∀ label, ∃ files rest, division.SharesOut splits (hasLabel labels label) files rest)
    (tested : 0 < division.test.length ∧ division.test.length < labels.length) :
    division.Filled splits labels := by
  have parts : 2 ≤ splits - 1 := Nat.le_sub_one_of_lt enough
  have validation (label : String) : 0 < division.tally (hasLabel labels label) .validation ↔
      splits - 1 ≤ 2 * division.untested (hasLabel labels label) := by
    obtain ⟨_, rest, shared⟩ := shared label
    rw [shared.untested_eq, shared.validation]
    exact share_pos_iff (Nat.lt_of_lt_of_le (by decide) parts) rest
  have train (label : String) : 0 < division.tally (hasLabel labels label) .train ↔
      0 < division.untested (hasLabel labels label) ∧
        (2 < splits - 1 ∨ 1 < division.untested (hasLabel labels label)) := by
    obtain ⟨_, rest, shared⟩ := shared label
    rw [shared.untested_eq, shared.train, shared.validation, Nat.sub_pos_iff_lt]
    exact share_lt_iff parts rest
  refine ⟨List.ne_nil_of_length_pos tested.1, ?_, ?_⟩
  · exact (ne_nil_iff_tally_pos partitions .validation).trans (exists_congr validation)
  · refine (ne_nil_iff_tally_pos partitions .train).trans ?_
    simp only [train]
    constructor
    · rintro ⟨label, -, more | several⟩
      · exact .inl (by omega)
      · exact .inr ⟨label, several⟩
    · rintro (more | ⟨label, several⟩)
      · obtain ⟨label, some⟩ := exists_untested_pos partitions tested.2
        exact ⟨label, some, .inl (by omega)⟩
      · exact ⟨label, by omega, .inr several⟩

end Labelled

/-- A label that is as frequent as there are splits is in every fold. -/
theorem Filled.of_frequent {division : Division} {splits files rest : Nat} {labels : List String}
    {label : String} (filled : division.Filled splits labels) (enough : minSplits ≤ splits)
    (shared : division.SharesOut splits (hasLabel labels label) files rest)
    (frequent : splits ≤ files) (fold : Fold) : division.positions fold ≠ [] := by
  have third := three_mul_le_of_dealt enough shared.test
  have whole := shared.rest_eq
  unfold minSplits at enough
  cases fold with
  | train => exact filled.train.mpr (.inr ⟨label, by rw [shared.untested_eq]; omega⟩)
  | validation => exact filled.validation.mpr ⟨label, by rw [shared.untested_eq]; omega⟩
  | test => exact filled.test

end Division

section Corpus

variable {filenames labels : List String} {splits split : Nat} (seed : Nat)
  (enough : minSplits ≤ splits) (labelled : labels.length = filenames.length)
  (many : splits ≤ filenames.length) (within : split < splits)

include enough labelled many within

theorem exists_filled :
    ∃ division, (split, division) ∈ labelDivisions labels filenames.length splits seed ∧
      division.Filled splits labels := by
  obtain ⟨⟨number, division⟩, member, rfl⟩ := List.mem_map.mp
    (map_fst_labelDivisions labels filenames.length splits seed ▸ List.mem_range.mpr within)
  have partitions := labelDivisions_partition _ _ _ _ _ member
  refine ⟨division, member, ?_⟩
  apply Division.filled_of_sharesOut (labelled ▸ partitions) enough
  · exact fun label => ⟨_, sharesOut_of_mem_labelDivisions labels _ seed enough label _ member⟩
  · rw [labelled]
    exact tested_of_mem_labelDivisions labels seed enough many _ member

/-- When no two files share a label, all labels are rounded the same way. -/
theorem filenames_eq_nil_of_nodup (distinct : labels.Nodup) :
    (stratified filenames labels splits seed).filenames split
      (if splits = minSplits then .train else .validation) = [] := by
  obtain ⟨division, member, filled⟩ := exists_filled seed enough labelled many within
  have single (label : String) : division.untested (hasLabel labels label) ≤ 1 := by
    obtain ⟨rest, shared⟩ := sharesOut_of_mem_labelDivisions labels _ seed enough label _ member
    rw [← labelled, countP_hasLabel] at shared
    have once : labels.count label ≤ 1 := List.nodup_iff_count_le_one.mp distinct label
    have whole := shared.rest_eq
    rw [shared.untested_eq]
    omega
  rw [filenames_stratified filenames labels splits seed member, List.map_eq_nil_iff]
  by_contra some
  split at some
  · rename_i least
    rcases filled.train.mp some with more | ⟨label, several⟩
    · exact absurd least (Nat.ne_of_gt more)
    · exact absurd (single label) (Nat.not_le.mpr several)
  · rename_i more
    obtain ⟨label, several⟩ := filled.validation.mp some
    have one := single label
    unfold minSplits at enough more
    omega

end Corpus

/-- A corpus with no fewer files than splits leaves no test fold empty. Whether validation and train
have files depends on how many of one label are not tested, and when some label is as frequent as
there are splits they do. -/
theorem stratified_fills (filenames labels : List String) {splits split : Nat} (seed : Nat)
    (enough : minSplits ≤ splits) (labelled : labels.length = filenames.length)
    (many : splits ≤ filenames.length) (within : split < splits) :
    ∃ division : Division, division.Partitions filenames.length ∧
      (∀ fold, (stratified filenames labels splits seed).filenames split fold =
        (division.positions fold).map fun position => (filenames[position]?).getD "") ∧
      division.Filled splits labels ∧
      ((∃ label, splits ≤ labels.count label) → ∀ fold,
        (stratified filenames labels splits seed).filenames split fold ≠ []) := by
  obtain ⟨division, member, filled⟩ := exists_filled seed enough labelled many within
  have named := filenames_stratified filenames labels splits seed member
  refine ⟨division, labelDivisions_partition _ _ _ _ _ member, named, filled, ?_⟩
  rintro ⟨label, frequent⟩ fold
  obtain ⟨rest, shared⟩ := sharesOut_of_mem_labelDivisions labels _ seed enough label _ member
  rw [← labelled, countP_hasLabel] at shared
  rw [named, ne_eq, List.map_eq_nil_iff]
  exact filled.of_frequent enough shared frequent fold

theorem stratified_fills_frequentLabel :
    minSplits ≤ 3 ∧ ["good", "bad", "good", "good"].length = 4 ∧ 3 ≤ 4 ∧ 1 < 3 ∧
      ∃ division : Division, division.Partitions 4 ∧
        (∀ fold, (stratified ["a.json", "b.json", "c.json", "d.json"]
          ["good", "bad", "good", "good"] 3 42).filenames 1 fold = (division.positions fold).map
            fun position => (["a.json", "b.json", "c.json", "d.json"][position]?).getD "") ∧
        division.Filled 3 ["good", "bad", "good", "good"] ∧
        ∀ fold, (stratified ["a.json", "b.json", "c.json", "d.json"]
          ["good", "bad", "good", "good"] 3 42).filenames 1 fold ≠ [] := by
  have within : 1 < 3 := by decide
  obtain ⟨division, partitions, named, filled, frequent⟩ := stratified_fills
    ["a.json", "b.json", "c.json", "d.json"] ["good", "bad", "good", "good"] 42 (by decide) rfl
    (by decide) within
  exact ⟨by decide, rfl, by decide, within, division, partitions, named, filled,
    frequent ⟨"good", by decide⟩⟩

/-- Every file has a label of its own: with three splits each of the two that are not tested is
rounded up into validation, and with four splits each of the three is rounded down. -/
theorem stratified_ownLabels_emptyFolds :
    (minSplits ≤ 3 ∧ 3 ≤ ["a.json", "b.json", "c.json"].length ∧
      (stratified ["a.json", "b.json", "c.json"] ["good:-:-", "bad:121:-", "bad:122:-"] 3
        42).filenames 0 .train = []) ∧
    minSplits ≤ 4 ∧ 4 ≤ ["a.json", "b.json", "c.json", "d.json"].length ∧
      (stratified ["a.json", "b.json", "c.json", "d.json"]
        ["good:-:-", "bad:121:-", "bad:122:-", "bad:124:-"] 4 42).filenames 0 .validation = [] :=
  ⟨⟨by decide, by decide, filenames_eq_nil_of_nodup 42 (by decide) rfl (by decide) (by decide)
      (by decide)⟩,
    by decide, by decide, filenames_eq_nil_of_nodup 42 (by decide) rfl (by decide) (by decide)
      (by decide)⟩

end DefectGraphs.Split
