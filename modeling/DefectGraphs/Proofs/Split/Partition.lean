import DefectGraphs.Proofs.Grouping
import DefectGraphs.Proofs.Random.Shuffle
import DefectGraphs.Split.Stratified
import Mathlib.Data.List.Sort
import Mathlib.Data.List.NodupEquivFin

/-!
Every split divides the corpus: each file lies in exactly one of the three folds, and the folds of
the manifest name the files of these positions.
-/

namespace DefectGraphs.Split

open DefectGraphs.Random

theorem flatten_shuffleEach_perm (stream : Stream) (lists : List (List α)) :
    (shuffleEach stream lists).1.flatten.Perm lists.flatten := by
  induction lists generalizing stream with
  | nil => exact .nil
  | cons list rest induction =>
      rw [shuffleEach, List.flatten_cons, List.flatten_cons]
      exact (shuffle_perm stream list).append (induction _)

theorem map_snd_zipIdx (testSplit : List Nat) :
    testSplit.zipIdx.map Prod.snd = List.range testSplit.length := by
  rw [List.zipIdx_map_snd, List.range_eq_range']

theorem dealt_perm (testSplit : List Nat) (split : Nat) :
    (dealtElsewhere testSplit split ++ dealtTo testSplit split).Perm
      (List.range testSplit.length) := by
  rw [dealtElsewhere, dealtTo, ← List.map_append, ← map_snd_zipIdx]
  exact (List.perm_append_comm.trans (List.filter_append_perm _ _)).map _

theorem pairwise_dealtTo (testSplit : List Nat) (split : Nat) :
    (dealtTo testSplit split).Pairwise (· < ·) := by
  apply List.Pairwise.sublist (List.filter_sublist.map Prod.snd)
  rw [map_snd_zipIdx]
  exact List.pairwise_lt_range

theorem carve_perm (parts : Nat) (groups : List (List Nat)) :
    ((carve parts groups).1 ++ (carve parts groups).2).Perm groups.flatten := by
  have sorted := (List.mergeSort_perm (groups.flatMap fun group =>
    group.drop (share parts group.length)) (· ≤ ·)).append
      (List.mergeSort_perm (groups.flatMap fun group => group.take (share parts group.length))
        (· ≤ ·))
  refine sorted.trans (List.perm_append_comm.trans ?_)
  refine (List.flatMap_append_perm groups _ _).trans (.of_eq ?_)
  simp only [List.take_append_drop, List.flatMap_id']

theorem pairwise_mergeSort {positions : List Nat} (distinct : positions.Nodup) :
    positions.mergeSort.Pairwise (· < ·) := by
  have sorted : positions.mergeSort.Pairwise (· ≤ ·) := List.pairwise_mergeSort' _ _
  exact sorted.imp₂ (fun _ _ least other => Nat.lt_of_le_of_ne least other)
    ((List.mergeSort_perm positions _).nodup_iff.mpr distinct)

/-- Every file is in exactly one fold, and every fold is in the order of the corpus. -/
structure Division.Partitions (division : Division) (count : Nat) : Prop where
  perm : (Fold.all.flatMap division.positions).Perm (List.range count)
  ascending : ∀ fold, (division.positions fold).Pairwise (· < ·)

theorem Fold.mem_all (fold : Fold) : fold ∈ Fold.all := by
  cases fold <;> decide

theorem Fold.flatMap_all (f : Fold → List α) :
    Fold.all.flatMap f = f .train ++ f .validation ++ f .test := by
  simp [Fold.all]

section Labels

variable [BEq κ] [LawfulBEq κ] (labelOf : Nat → κ)

theorem flatten_positionsByLabel_perm (positions : List Nat) :
    (positionsByLabel labelOf positions).flatten.Perm positions :=
  flatMap_groupBy_perm labelOf positions

theorem dealOrder_perm (count : Nat) (stream : Stream) :
    (dealOrder labelOf count stream).1.Perm (List.range count) :=
  (flatten_shuffleEach_perm stream _).trans (flatten_positionsByLabel_perm labelOf _)

theorem divide_partitions (splits : Nat) (testSplit : List Nat) (split : Nat) (stream : Stream) :
    (divide labelOf splits testSplit split stream).1.Partitions testSplit.length := by
  have carved := (carve_perm (splits - 1) (shuffleEach stream (positionsByLabel labelOf
    (dealtElsewhere testSplit split))).1).trans ((flatten_shuffleEach_perm _ _).trans
      (flatten_positionsByLabel_perm labelOf _))
  have whole : (Fold.all.flatMap
      (divide labelOf splits testSplit split stream).1.positions).Perm
        (List.range testSplit.length) := by
    rw [Fold.flatMap_all]
    exact (carved.append_right _).trans (dealt_perm testSplit split)
  refine ⟨whole, ?_⟩
  have distinct : (dealtElsewhere testSplit split).Nodup :=
    ((dealt_perm testSplit split).nodup_iff.mpr List.nodup_range).of_append_left
  have apart := carved.nodup_iff.mpr distinct
  intro fold
  cases fold with
  | train =>
      exact pairwise_mergeSort ((List.mergeSort_perm _ _).nodup_iff.mp apart.of_append_left)
  | validation =>
      exact pairwise_mergeSort ((List.mergeSort_perm _ _).nodup_iff.mp apart.of_append_right)
  | test => exact pairwise_dealtTo testSplit split

omit [LawfulBEq κ] in
theorem map_fst_divideEach (splits : Nat) (testSplit : List Nat) (stream : Stream)
    (numbers : List Nat) :
    (divideEach labelOf splits testSplit stream numbers).map Prod.fst = numbers := by
  induction numbers generalizing stream with
  | nil => rfl
  | cons split rest induction => rw [divideEach, List.map_cons, induction]

theorem divideEach_partitions (splits : Nat) (testSplit : List Nat) (stream : Stream)
    (numbers : List Nat) :
    ∀ pair ∈ divideEach labelOf splits testSplit stream numbers,
      pair.2.Partitions testSplit.length := by
  induction numbers generalizing stream with
  | nil => simp [divideEach]
  | cons split rest induction =>
      rw [divideEach, List.forall_mem_cons]
      exact ⟨divide_partitions labelOf splits testSplit split stream, induction _⟩

omit [LawfulBEq κ] in
theorem map_fst_divisions (count splits seed : Nat) :
    (divisions labelOf count splits seed).map Prod.fst = List.range splits :=
  map_fst_divideEach labelOf splits _ _ _

theorem divisions_partition (count splits seed : Nat) :
    ∀ pair ∈ divisions labelOf count splits seed, pair.2.Partitions count := by
  have divided := divideEach_partitions labelOf splits
    (testSplits splits (dealOrder labelOf count (.ofSeed seed)).1 count)
    (dealOrder labelOf count (.ofSeed seed)).2 (List.range splits)
  rw [testSplits, List.length_map, List.length_range] at divided
  exact divided

end Labels

/-! The manifest of a corpus names the files of the positions. -/

theorem flatMap_ite_eq {pairs : List (κ × α)} (distinct : (pairs.map Prod.fst).Nodup)
    [DecidableEq κ] {key : κ} {value : α} (member : (key, value) ∈ pairs) (f : α → List β) :
    pairs.flatMap (fun pair => if pair.1 = key then f pair.2 else []) = f value := by
  induction pairs with
  | nil => simp at member
  | cons pair rest induction =>
      rw [List.map_cons, List.nodup_cons] at distinct
      rcases List.mem_cons.mp member with rfl | later
      · have others : rest.flatMap (fun pair => if pair.1 = key then f pair.2 else []) = [] := by
          rw [List.flatMap_eq_nil_iff]
          intro pair listed
          rw [if_neg]
          intro same
          exact distinct.1 (List.mem_map.mpr ⟨pair, listed, same⟩)
        rw [List.flatMap_cons, if_pos rfl, others, List.append_nil]
      · have other : pair.1 ≠ key := by
          intro same
          exact distinct.1 (List.mem_map.mpr ⟨(key, value), later, same.symm⟩)
        rw [List.flatMap_cons, if_neg other, List.nil_append, induction distinct.2 later]

theorem filter_entries (nameOf : Nat → String) (number : Nat) (division : Division) (split : Nat)
    (fold : Fold) :
    ((division.entries nameOf number).filter
        fun entry => entry.split == split && entry.fold == fold).map Entry.filename =
      if number = split then (division.positions fold).map nameOf else [] := by
  have ofFold (other : Fold) :
      (((division.positions other).map fun position =>
        Entry.mk number other (nameOf position)).filter
          fun entry => entry.split == split && entry.fold == fold).map Entry.filename =
          if number = split ∧ other = fold then (division.positions other).map nameOf else [] := by
    rw [List.filter_map, List.map_map]
    by_cases same : number = split ∧ other = fold
    · simp [same, Function.comp_def]
    · rw [if_neg same]
      simpa [Function.comp_def] using fun _ _ split => not_and.mp same split
  rw [Division.entries, List.filter_flatMap, List.map_flatMap, Fold.flatMap_all, ofFold, ofFold,
    ofFold]
  cases fold <;> simp

theorem filenames_stratified (filenames labels : List String) (splits seed : Nat) {split : Nat}
    {division : Division}
    (member : (split, division) ∈
      divisions (fun position => labels.toArray[position]?) filenames.length splits seed)
    (fold : Fold) :
    (stratified filenames labels splits seed).filenames split fold =
      (division.positions fold).map fun position => (filenames[position]?).getD "" := by
  have distinct : ((divisions (fun position => labels.toArray[position]?) filenames.length splits
      seed).map Prod.fst).Nodup := by
    rw [map_fst_divisions]
    exact List.nodup_range
  rw [← flatMap_ite_eq distinct member fun division =>
    (division.positions fold).map fun position => (filenames[position]?).getD "",
    Manifest.filenames, stratified]
  simp only [List.filter_flatMap, List.map_flatMap, filter_entries, List.getElem?_toArray]

theorem mem_entries_stratified {filenames labels : List String} {splits seed : Nat} {entry : Entry}
    (member : entry ∈ (stratified filenames labels splits seed).entries) :
    entry.split < splits ∧ entry.filename ∈ filenames := by
  obtain ⟨⟨number, division⟩, divided, listed⟩ := List.mem_flatMap.mp member
  obtain ⟨fold, -, named⟩ := List.mem_flatMap.mp listed
  obtain ⟨position, inFold, rfl⟩ := List.mem_map.mp named
  have numbered : number ∈ List.range splits := by
    rw [← map_fst_divisions (fun position => labels.toArray[position]?) filenames.length splits
      seed]
    exact List.mem_map_of_mem divided
  have within : position ∈ List.range filenames.length :=
    (divisions_partition _ _ _ _ _ divided).perm.mem_iff.mp
      (List.mem_flatMap.mpr ⟨fold, fold.mem_all, inFold⟩)
  refine ⟨List.mem_range.mp numbered, ?_⟩
  rw [List.mem_range] at within
  simp [List.getElem?_eq_getElem within]

/-- The folds of a split share the files among them. -/
theorem stratified_partitions (filenames labels : List String) (splits seed : Nat) {split : Nat}
    (within : split < splits) :
    (Fold.all.flatMap ((stratified filenames labels splits seed).filenames split)).Perm
      filenames := by
  have numbers := map_fst_divisions (fun position => labels.toArray[position]?) filenames.length
    splits seed
  obtain ⟨⟨number, division⟩, member, rfl⟩ :=
    List.mem_map.mp (numbers ▸ List.mem_range.mpr within)
  have partitions := divisions_partition _ _ _ _ _ member
  have named : Fold.all.flatMap ((stratified filenames labels splits seed).filenames number) =
      (Fold.all.flatMap division.positions).map fun position => (filenames[position]?).getD "" := by
    rw [List.map_flatMap, ← funext (filenames_stratified filenames labels splits seed member)]
  rw [named]
  refine (partitions.perm.map _).trans (.of_eq ?_)
  apply List.ext_getElem (by simp)
  intro position _ within
  simp [List.getElem?_eq_getElem within]

end DefectGraphs.Split
