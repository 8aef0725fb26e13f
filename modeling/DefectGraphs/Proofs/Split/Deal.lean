import DefectGraphs.Proofs.Split.Partition
import Mathlib.Data.Int.CardIntervalMod

/-!
The deal of a corpus to the test folds: over all splits every file is dealt once, and no test fold
has two files more than another. With what each split does for itself, this is all that the manifest
of a corpus tells.
-/

namespace DefectGraphs.Split

open DefectGraphs.Random

theorem share_le {parts : Nat} (some : 0 < parts) (files : Nat) : share parts files ≤ files := by
  have half : parts / 2 < parts := Nat.div_lt_self some (by decide)
  have room : files ≤ files * parts := Nat.le_mul_of_pos_right files some
  rw [share, ← Nat.lt_succ_iff, Nat.div_lt_iff_lt_mul some, Nat.succ_mul]
  omega

theorem dealtTo_testSplits (splits : Nat) (order : List Nat) (count split : Nat) :
    dealtTo (testSplits splits order count) split =
      (List.range count).filter fun position => order.idxOf position % splits == split := by
  have numbered : (testSplits splits order count).zipIdx = (List.range count).map fun position =>
      (order.idxOf position % splits, position) := by
    apply List.ext_getElem (by simp [testSplits])
    intro place _ _
    simp [testSplits]
  rw [dealtTo, numbered, List.filter_map, List.map_map]
  simp [Function.comp_def]

theorem flatMap_dealtTo_perm {splits : Nat} (some : 0 < splits) (order : List Nat) (count : Nat) :
    ((List.range splits).flatMap (dealtTo (testSplits splits order count))).Perm
      (List.range count) := by
  rw [funext (dealtTo_testSplits splits order count)]
  apply flatMap_filter_perm _ List.nodup_range
  intro position _
  exact List.mem_range.mpr (Nat.mod_lt _ some)

theorem map_idxOf_eq_range {order : List Nat} (distinct : order.Nodup) :
    order.map (order.idxOf ·) = List.range order.length := by
  apply List.ext_getElem (by simp)
  intro place _ _
  simp [distinct.idxOf_getElem]

/-- The files are dealt in turn, so the first of the splits are those that may have one more. -/
theorem length_dealtTo {splits count : Nat} {order : List Nat}
    (dealt : order.Perm (List.range count)) {split : Nat} (within : split < splits) :
    (dealtTo (testSplits splits order count) split).length =
      count / splits + if split < count % splits then 1 else 0 := by
  have distinct : order.Nodup := dealt.nodup_iff.mpr List.nodup_range
  have length : order.length = count := by simpa using dealt.length_eq
  have some : 0 < splits := Nat.zero_lt_of_lt within
  calc (dealtTo (testSplits splits order count) split).length
    _ = (List.range count).countP (order.idxOf · % splits == split) := by
        rw [dealtTo_testSplits, List.countP_eq_length_filter]
    _ = order.countP (order.idxOf · % splits == split) := (dealt.countP_eq _).symm
    _ = (order.map (order.idxOf ·)).countP (· % splits == split) := by
        rw [List.countP_map]
        rfl
    _ = (List.range count).countP (· % splits == split) := by
        rw [map_idxOf_eq_range distinct, length]
    _ = count.count (· ≡ split [MOD splits]) := by
        simp only [Nat.count, Nat.ModEq, Nat.mod_eq_of_lt within]
        rfl
    _ = count / splits + if split < count % splits then 1 else 0 := by
        rw [Nat.count_modEq_card count some, Nat.mod_eq_of_lt within]

section Labels

variable [BEq κ] (labelOf : Nat → κ)

theorem test_of_mem_divideEach (splits : Nat) (testSplit : List Nat) (stream : Stream)
    (numbers : List Nat) :
    ∀ pair ∈ divideEach labelOf splits testSplit stream numbers,
      pair.2.test = dealtTo testSplit pair.1 := by
  induction numbers generalizing stream with
  | nil => simp [divideEach]
  | cons split rest induction =>
      rw [divideEach, List.forall_mem_cons]
      exact ⟨rfl, induction _⟩

theorem test_of_mem_divisions (count splits seed : Nat) :
    ∀ pair ∈ divisions labelOf count splits seed,
      pair.2.test =
        dealtTo (testSplits splits (dealOrder labelOf count (.ofSeed seed)).1 count) pair.1 :=
  test_of_mem_divideEach labelOf splits _ _ _

theorem flatMap_test_divisions (count splits seed : Nat) :
    (divisions labelOf count splits seed).flatMap (·.2.test) =
      (List.range splits).flatMap
        (dealtTo (testSplits splits (dealOrder labelOf count (.ofSeed seed)).1 count)) := by
  rw [← map_fst_divisions labelOf count splits seed, List.flatMap_map]
  exact List.flatMap_congr (test_of_mem_divisions labelOf count splits seed)

end Labels

def labelDivisions (labels : List String) (count splits seed : Nat) : List (Nat × Division) :=
  divisions (fun position => labels.toArray[position]?) count splits seed

section Divisions

variable (labels : List String) (count splits seed : Nat)

theorem map_fst_labelDivisions :
    (labelDivisions labels count splits seed).map Prod.fst = List.range splits :=
  map_fst_divisions _ count splits seed

theorem length_labelDivisions : (labelDivisions labels count splits seed).length = splits := by
  simpa using congrArg List.length (map_fst_labelDivisions labels count splits seed)

theorem labelDivisions_partition :
    ∀ pair ∈ labelDivisions labels count splits seed, pair.2.Partitions count :=
  divisions_partition _ count splits seed

theorem length_test_of_mem_labelDivisions :
    ∀ pair ∈ labelDivisions labels count splits seed,
      pair.2.test.length = count / splits + if pair.1 < count % splits then 1 else 0 := by
  intro pair member
  have numbered : pair.1 ∈ (labelDivisions labels count splits seed).map Prod.fst :=
    List.mem_map_of_mem member
  rw [map_fst_labelDivisions, List.mem_range] at numbered
  rw [test_of_mem_divisions _ _ _ _ pair member]
  exact length_dealtTo (dealOrder_perm _ _ _) numbered

end Divisions

/-- The manifest tells, of each split, folds of positions in the corpus. -/
structure Manifest.IsDivided (manifest : Manifest) (filenames : List String) (splits : Nat)
    (divided : List (Nat × Division)) : Prop where
  numbered : divided.map Prod.fst = List.range splits
  /-- The entries name the files at the positions, fold after fold and split after split. -/
  told : manifest.entries.map (fun entry => (entry.split, entry.fold, some entry.filename)) =
    divided.flatMap fun (split, division) => Fold.all.flatMap fun fold =>
      (division.positions fold).map fun position => (split, fold, filenames[position]?)
  length_entries : manifest.entries.length = splits * filenames.length
  partitions : ∀ pair ∈ divided, pair.2.Partitions filenames.length
  tested : (divided.flatMap (·.2.test)).Perm (List.range filenames.length)
  even : ∀ first ∈ divided, ∀ second ∈ divided,
    first.2.test.length ≤ second.2.test.length + 1

section Corpus

variable (filenames labels : List String) (splits seed : Nat)

theorem told_stratified :
    (stratified filenames labels splits seed).entries.map
        (fun entry => (entry.split, entry.fold, some entry.filename)) =
      (labelDivisions labels filenames.length splits seed).flatMap
        fun (split, division) => Fold.all.flatMap fun fold =>
          (division.positions fold).map fun position => (split, fold, filenames[position]?) := by
  rw [stratified, List.map_flatMap]
  apply List.flatMap_congr
  rintro ⟨split, division⟩ member
  have partitions := labelDivisions_partition _ _ _ _ _ member
  simp only [Division.entries, List.map_flatMap]
  apply List.flatMap_congr
  intro fold _
  rw [List.map_map]
  apply List.map_congr_left
  intro position inFold
  have within : position < filenames.length := List.mem_range.mp
    (partitions.perm.mem_iff.mp (List.mem_flatMap.mpr ⟨fold, fold.mem_all, inFold⟩))
  simp [List.getElem?_eq_getElem within]

theorem length_entries_stratified :
    (stratified filenames labels splits seed).entries.length = splits * filenames.length := by
  have each : ∀ pair ∈ labelDivisions labels filenames.length splits seed,
      (Fold.all.flatMap fun fold => (pair.2.positions fold).map fun position =>
        (pair.1, fold, filenames[position]?)).length = filenames.length := by
    intro pair member
    have partitions := labelDivisions_partition _ _ _ _ pair member
    simpa [List.length_flatMap] using partitions.perm.length_eq
  rw [← List.length_map, told_stratified, List.length_flatMap, List.map_congr_left each]
  simp [length_labelDivisions]

end Corpus

/-- Every split divides the corpus, and over all splits every file is tested once. No share that is
taken for validation is more than a label has. -/
theorem stratified_isDivided (filenames labels : List String) {splits : Nat} (seed : Nat)
    (enough : minSplits ≤ splits) :
    (∀ files, share (splits - 1) files ≤ files) ∧
      (stratified filenames labels splits seed).IsDivided filenames splits
        (labelDivisions labels filenames.length splits seed) := by
  unfold minSplits at enough
  refine ⟨share_le (by omega), map_fst_labelDivisions .., told_stratified ..,
    length_entries_stratified .., labelDivisions_partition _ _ _ _, ?_, ?_⟩
  · rw [labelDivisions, flatMap_test_divisions]
    exact flatMap_dealtTo_perm (by omega) _ _
  · intro first member second member'
    rw [length_test_of_mem_labelDivisions _ _ _ _ first member,
      length_test_of_mem_labelDivisions _ _ _ _ second member']
    split <;> split <;> omega

theorem stratified_isDivided_sharedName :
    minSplits ≤ 3 ∧ (∀ files, share (3 - 1) files ≤ files) ∧
      (stratified ["a.json", "b.json", "c.json", "a.json"] ["good", "bad", "good", "good"] 3
        42).IsDivided ["a.json", "b.json", "c.json", "a.json"] 3
        (labelDivisions ["good", "bad", "good", "good"] 4 3 42) :=
  ⟨by decide, stratified_isDivided ["a.json", "b.json", "c.json", "a.json"]
    ["good", "bad", "good", "good"] 42 (by decide)⟩

end DefectGraphs.Split
