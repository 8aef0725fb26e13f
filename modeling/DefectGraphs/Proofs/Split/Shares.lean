import DefectGraphs.Proofs.Split.Deal
import Mathlib.Algebra.Order.Floor.Div

/-!
The folds are stratified: of the files of every label each test fold gets as many as the others, up
to one, and of those outside it validation gets its share, up to rounding.
-/

namespace DefectGraphs.Split

open DefectGraphs.Random

/-! A turn in a rotation comes every so many turns, from whichever turn the count begins. -/

theorem ceilDiv_eq_ite {splits : Nat} (some : 0 < splits) (turns : Nat) :
    turns ⌈/⌉ splits = turns / splits + if 0 < turns % splits then 1 else 0 := by
  have less : splits - 1 < splits := Nat.sub_lt some Nat.one_pos
  rw [Nat.ceilDiv_eq_add_pred_div, Nat.add_sub_assoc some, Nat.add_div some,
    Nat.div_eq_of_lt less, Nat.mod_eq_of_lt less, Nat.add_zero]
  congr 2
  exact propext (by omega)

theorem count_mod_eq {splits split : Nat} (within : split < splits) (turns : Nat) :
    turns.count (· % splits = split) =
      turns / splits + if split < turns % splits then 1 else 0 := by
  have counted := Nat.count_modEq_card turns (Nat.zero_lt_of_lt within) split
  simp only [Nat.ModEq, Nat.mod_eq_of_lt within] at counted
  exact counted

theorem countP_range'_mod (start length : Nat) {splits split : Nat} (within : split < splits) :
    (List.range' start length).countP (· % splits == split) = length / splits ∨
      (List.range' start length).countP (· % splits == split) = length ⌈/⌉ splits := by
  have some : 0 < splits := Nat.zero_lt_of_lt within
  have turns : (List.range' start length).countP (· % splits == split) =
      length.count fun turn => (start + turn) % splits = split := by
    rw [List.range'_eq_map_range, List.countP_map]
    rfl
  have whole := Nat.count_add (· % splits = split) start length
  rw [count_mod_eq within, count_mod_eq within, Nat.add_div some] at whole
  have first : start % splits < splits := Nat.mod_lt start some
  have last : (start + length) % splits =
      if splits ≤ start % splits + length % splits then start % splits + length % splits - splits
      else start % splits + length % splits := by
    rw [Nat.add_mod]
    split
    · rw [Nat.mod_eq_sub_mod ‹_›, Nat.mod_eq_of_lt (by have := Nat.mod_lt length some; omega)]
    · exact Nat.mod_eq_of_lt (Nat.not_le.mp ‹_›)
  rw [turns, ceilDiv_eq_ite some]
  rw [last] at whole
  have more : length % splits < splits := Nat.mod_lt length some
  split at whole <;> split at whole <;> split at whole <;> split <;> omega

/-! Shuffling keeps the files of a label together. -/

theorem exists_shuffleEach_append (stream : Stream) (before : List (List α)) (list : List α)
    (after : List (List α)) :
    ∃ before' list' after', (shuffleEach stream (before ++ list :: after)).1 =
        before' ++ list' :: after' ∧ before'.flatten.Perm before.flatten ∧ list'.Perm list ∧
          after'.flatten.Perm after.flatten := by
  induction before generalizing stream with
  | nil =>
      exact ⟨[], _, _, rfl, .nil, shuffle_perm stream list, flatten_shuffleEach_perm _ after⟩
  | cons first rest induction =>
      obtain ⟨before', list', after', shuffled, earlier, same, later⟩ :=
        induction (shuffle stream first).2
      refine ⟨(shuffle stream first).1 :: before', list', after', ?_, ?_, same, later⟩
      · rw [List.cons_append, shuffleEach]
        dsimp only
        rw [shuffled, List.cons_append]
      · rw [List.flatten_cons, List.flatten_cons]
        exact (shuffle_perm stream first).append earlier

section Labels

variable [BEq κ] [LawfulBEq κ] (labelOf : Nat → κ)

omit [LawfulBEq κ] in
theorem positionsByLabel_eq (positions : List Nat) :
    positionsByLabel labelOf positions =
      (positions.map labelOf).eraseDups.map fun key => positions.filter (labelOf · == key) := by
  simp [positionsByLabel, groupBy, Function.comp_def]

theorem labelOf_ne_of_mem_flatten {positions : List Nat} {keys : List κ} {label : κ}
    (apart : label ∉ keys) {other : Nat}
    (member : other ∈ (keys.map fun key => positions.filter (labelOf · == key)).flatten) :
    labelOf other ≠ label := by
  obtain ⟨group, grouped, inside⟩ := List.mem_flatten.mp member
  obtain ⟨key, listed, rfl⟩ := List.mem_map.mp grouped
  have same : labelOf other = key := eq_of_beq (List.mem_filter.mp inside).2
  intro isLabel
  rw [isLabel] at same
  exact apart (same ▸ listed)

theorem exists_group (stream : Stream) {positions : List Nat} {label : κ}
    (appears : label ∈ positions.map labelOf) :
    ∃ before group after,
      (shuffleEach stream (positionsByLabel labelOf positions)).1 = before ++ group :: after ∧
        group.Perm (positions.filter (labelOf · == label)) ∧
        (∀ other ∈ before.flatten, labelOf other ≠ label) ∧
        ∀ other ∈ after.flatten, labelOf other ≠ label := by
  have distinct := (firstAppearances_eraseDups (positions.map labelOf)).nodup
  obtain ⟨first, last, keys⟩ := List.append_of_mem (List.mem_eraseDups.mpr appears)
  rw [keys, List.nodup_middle, List.nodup_cons, List.mem_append, not_or] at distinct
  obtain ⟨⟨notFirst, notLast⟩, -⟩ := distinct
  rw [positionsByLabel_eq, keys, List.map_append, List.map_cons]
  obtain ⟨before, group, after, shuffled, earlier, same, later⟩ :=
    exists_shuffleEach_append stream (first.map fun key => positions.filter (labelOf · == key))
      (positions.filter (labelOf · == label))
      (last.map fun key => positions.filter (labelOf · == key))
  refine ⟨before, group, after, shuffled, same, ?_, ?_⟩
  · intro other member
    exact labelOf_ne_of_mem_flatten labelOf notFirst (earlier.mem_iff.mp member)
  · intro other member
    exact labelOf_ne_of_mem_flatten labelOf notLast (later.mem_iff.mp member)

theorem countP_eq_zero_of_notMem {positions : List Nat} {label : κ}
    (missing : label ∉ positions.map labelOf) : positions.countP (labelOf · == label) = 0 := by
  rw [List.countP_eq_zero]
  intro position member isLabel
  exact missing (eq_of_beq isLabel ▸ List.mem_map_of_mem member)

/-- Of every group the same share is taken, so it is the share of a label. -/
theorem countP_flatMap_take_share {parts : Nat} (some : 0 < parts) (stream : Stream)
    (positions : List Nat) (label : κ) :
    ((shuffleEach stream (positionsByLabel labelOf positions)).1.flatMap fun group =>
        group.take (share parts group.length)).countP (labelOf · == label) =
      share parts (positions.countP (labelOf · == label)) := by
  have avoid {groups : List (List Nat)}
      (others : ∀ other ∈ groups.flatten, labelOf other ≠ label) :
      (groups.flatMap fun group => group.take (share parts group.length)).countP
        (labelOf · == label) = 0 := by
    apply countP_eq_zero_of_notMem
    intro appears
    obtain ⟨other, member, isLabel⟩ := List.mem_map.mp appears
    obtain ⟨group, listed, taken⟩ := List.mem_flatMap.mp member
    exact others other (List.mem_flatten_of_mem listed (List.mem_of_mem_take taken)) isLabel
  by_cases appears : label ∈ positions.map labelOf
  · obtain ⟨before, group, after, shuffled, same, earlier, later⟩ :=
      exists_group labelOf stream appears
    have labelled : ∀ position ∈ group, (labelOf position == label) = true := by
      intro position member
      exact (List.mem_filter.mp (same.mem_iff.mp member)).2
    have length : group.length = positions.countP (labelOf · == label) := by
      rw [same.length_eq, List.countP_eq_length_filter]
    have taken : (group.take (share parts group.length)).countP (labelOf · == label) =
        share parts group.length := by
      rw [List.countP_eq_length.mpr fun position member =>
        labelled position (List.mem_of_mem_take member), List.length_take,
        Nat.min_eq_left (share_le some _)]
    rw [shuffled, List.flatMap_append, List.flatMap_cons, List.countP_append, List.countP_append,
      avoid earlier, avoid later, taken, length, Nat.zero_add, Nat.add_zero]
  · rw [countP_eq_zero_of_notMem labelOf appears, Nat.le_zero.mp (share_le some 0)]
    apply avoid
    intro other member isLabel
    have listed := ((flatten_shuffleEach_perm stream _).trans
      (flatten_positionsByLabel_perm labelOf positions)).mem_iff.mp member
    exact appears (isLabel ▸ List.mem_map_of_mem listed)

theorem map_idxOf_middle {before group after : List Nat}
    (distinct : (before ++ (group ++ after)).Nodup) :
    group.map ((before ++ (group ++ after)).idxOf ·) = List.range' before.length group.length := by
  have places := map_idxOf_eq_range distinct
  rw [List.map_append, List.map_append, List.length_append, List.length_append,
    List.range_eq_range', ← List.range'_append_1, ← List.range'_append_1] at places
  obtain ⟨-, rest⟩ := List.append_inj places (by simp)
  obtain ⟨middle, -⟩ := List.append_inj rest (by simp)
  rw [middle, Nat.zero_add]

theorem countP_dealtTo {splits split : Nat} (within : split < splits) (count : Nat)
    (stream : Stream) (label : κ) {files dealt : Nat}
    (all : (List.range count).countP (labelOf · == label) = files)
    (tested : (dealtTo (testSplits splits (dealOrder labelOf count stream).1 count)
      split).countP (labelOf · == label) = dealt) :
    dealt = files / splits ∨ dealt = files ⌈/⌉ splits := by
  by_cases appears : label ∈ (List.range count).map labelOf
  · obtain ⟨before, group, after, shuffled, same, -, -⟩ := exists_group labelOf stream appears
    have order : (dealOrder labelOf count stream).1 =
        before.flatten ++ (group ++ after.flatten) := by
      rw [dealOrder]
      dsimp only
      rw [shuffled, List.flatten_append, List.flatten_cons]
    have distinct : (dealOrder labelOf count stream).1.Nodup :=
      (dealOrder_perm labelOf count stream).nodup_iff.mpr List.nodup_range
    have turns : dealt = (List.range' before.flatten.length group.length).countP
        (· % splits == split) := by
      rw [order] at distinct tested
      rw [← tested, dealtTo_testSplits, List.countP_filter, ← map_idxOf_middle distinct,
        List.countP_map, same.countP_eq, List.countP_filter]
      apply List.countP_congr
      intro position _
      rw [Bool.and_comm]
      rfl
    have length : group.length = files := by
      rw [same.length_eq, ← all, List.countP_eq_length_filter]
    rw [turns, ← length]
    exact countP_range'_mod _ _ within
  · left
    rw [← all, ← tested, countP_eq_zero_of_notMem labelOf appears, Nat.zero_div]
    apply countP_eq_zero_of_notMem
    intro dealtOut
    obtain ⟨position, member, isLabel⟩ := List.mem_map.mp dealtOut
    rw [dealtTo_testSplits] at member
    exact appears (List.mem_map.mpr ⟨position, List.mem_of_mem_filter member, isLabel⟩)

omit [LawfulBEq κ] in
theorem exists_divide_of_mem_divideEach (splits : Nat) (testSplit : List Nat) (stream : Stream)
    (numbers : List Nat) :
    ∀ pair ∈ divideEach labelOf splits testSplit stream numbers,
      ∃ stream, pair.2 = (divide labelOf splits testSplit pair.1 stream).1 := by
  induction numbers generalizing stream with
  | nil => simp [divideEach]
  | cons split rest induction =>
      rw [divideEach, List.forall_mem_cons]
      exact ⟨⟨stream, rfl⟩, induction _⟩

theorem countP_validation_divide {splits : Nat} (several : 2 ≤ splits)
    (testSplit : List Nat) (split : Nat) (stream : Stream) (label : κ) :
    ((divide labelOf splits testSplit split stream).1.validation).countP (labelOf · == label) =
      share (splits - 1) ((dealtElsewhere testSplit split).countP (labelOf · == label)) := by
  rw [← countP_flatMap_take_share labelOf (Nat.sub_pos_of_lt several) stream]
  exact (List.mergeSort_perm _ _).countP_eq _

end Labels

/-! Rounding. -/

theorem share_near {parts : Nat} (some : 0 < parts) (files : Nat) :
    2 * |(parts : ℤ) * share parts files - files| ≤ parts := by
  have rest : (files + parts / 2) % parts < parts := Nat.mod_lt _ some
  have whole : (parts : ℤ) * share parts files + ((files + parts / 2) % parts : ℕ) =
      files + (parts / 2 : ℕ) := by
    exact_mod_cast Nat.div_add_mod (files + parts / 2) parts
  have above : 2 * ((parts : ℤ) * share parts files - files) ≤ parts := by omega
  have below : -(parts : ℤ) ≤ 2 * ((parts : ℤ) * share parts files - files) := by omega
  calc 2 * |(parts : ℤ) * share parts files - files|
    _ = |2 * ((parts : ℤ) * share parts files - files)| := by
        rw [abs_mul, abs_two]
    _ ≤ parts := abs_le.mpr ⟨below, above⟩

theorem share_lt {parts files : Nat} (several : 2 ≤ parts) (some : 2 ≤ files) :
    share parts files < files := by
  rw [share, Nat.div_lt_iff_lt_mul (by omega)]
  nlinarith [Nat.div_mul_le_self parts 2]

/-- No test fold has more than a third of a label's files, rounded up. -/
theorem three_mul_le_of_dealt {splits files dealt : Nat} (enough : minSplits ≤ splits)
    (even : dealt = files / splits ∨ dealt = files ⌈/⌉ splits) : 3 * dealt ≤ files + 2 := by
  have some : 0 < splits := Nat.lt_of_lt_of_le (by decide) enough
  have up : files ⌈/⌉ splits ≤ (files + 2) / 3 := by
    rw [ceilDiv_le_iff_le_smul some, smul_eq_mul]
    calc files
      _ ≤ 3 * ((files + 2) / 3) := by omega
      _ ≤ splits * ((files + 2) / 3) := Nat.mul_le_mul_right _ enough
  have down : files / splits ≤ files ⌈/⌉ splits := by
    rw [ceilDiv_eq_ite some]
    exact Nat.le_add_right _ _
  omega

namespace Division

/-- How many files of some kind lie in a fold. -/
def tally (division : Division) (isMember : Nat → Bool) (fold : Fold) : Nat :=
  (division.positions fold).countP isMember

/-- The files of some kind are shared out: so many are tested, and of the rest a rounded share is
taken for validation. -/
structure SharesOut (division : Division) (splits : Nat) (isMember : Nat → Bool)
    (files rest : Nat) : Prop where
  test : division.tally isMember .test = files / splits ∨
    division.tally isMember .test = files ⌈/⌉ splits
  rest_eq : division.tally isMember .test + rest = files
  validation : division.tally isMember .validation = (rest + (splits - 1) / 2) / (splits - 1)
  validation_le : division.tally isMember .validation ≤ rest
  near : 2 * |((splits - 1 : ℕ) : ℤ) * division.tally isMember .validation - rest| ≤
    (splits - 1 : ℕ)
  train : division.tally isMember .train = rest - division.tally isMember .validation
  train_pos : 3 ≤ files → 0 < division.tally isMember .train

theorem Partitions.sum_tally {division : Division} {count : Nat}
    (partitions : division.Partitions count) (isMember : Nat → Bool) :
    division.tally isMember .train + division.tally isMember .validation +
      division.tally isMember .test = (List.range count).countP isMember := by
  rw [← partitions.perm.countP_eq, Fold.flatMap_all, List.countP_append, List.countP_append]
  rfl

theorem sharesOut_of_tally {division : Division} {splits : Nat} {isMember : Nat → Bool}
    {files rest : Nat} (enough : minSplits ≤ splits)
    (even : division.tally isMember .test = files / splits ∨
      division.tally isMember .test = files ⌈/⌉ splits)
    (rest_eq : division.tally isMember .test + rest = files)
    (shared : division.tally isMember .validation = share (splits - 1) rest)
    (sum : division.tally isMember .train + division.tally isMember .validation +
      division.tally isMember .test = files) :
    division.SharesOut splits isMember files rest := by
  have parts : 2 ≤ splits - 1 := Nat.le_sub_one_of_lt enough
  have some : 0 < splits - 1 := Nat.lt_of_lt_of_le (by decide) parts
  have within : division.tally isMember .validation ≤ rest := shared ▸ share_le some rest
  have train : division.tally isMember .train = rest - division.tally isMember .validation := by
    omega
  refine ⟨even, rest_eq, shared, within, shared ▸ share_near some rest, train, ?_⟩
  intro three
  have third := three_mul_le_of_dealt enough even
  have less : division.tally isMember .validation < rest := by
    rw [shared]
    exact share_lt parts (by omega)
  omega

end Division

theorem sharesOut_of_mem_divisions [BEq κ] [LawfulBEq κ] (labelOf : Nat → κ) (count : Nat)
    {splits : Nat} (seed : Nat) (enough : minSplits ≤ splits) (label : κ) :
    ∀ pair ∈ divisions labelOf count splits seed, ∃ rest,
      pair.2.SharesOut splits (labelOf · == label)
        ((List.range count).countP (labelOf · == label)) rest := by
  intro pair member
  let testSplit := testSplits splits (dealOrder labelOf count (.ofSeed seed)).1 count
  have numbered : pair.1 < splits := by
    rw [← List.mem_range, ← map_fst_divisions labelOf count splits seed]
    exact List.mem_map_of_mem member
  have tested : pair.2.test = dealtTo testSplit pair.1 :=
    test_of_mem_divisions labelOf count splits seed pair member
  have even := countP_dealtTo labelOf numbered count (.ofSeed seed) label rfl
    (congrArg (·.countP (labelOf · == label)) tested).symm
  have dealt : pair.2.tally (labelOf · == label) .test +
      (dealtElsewhere testSplit pair.1).countP (labelOf · == label) =
        (List.range count).countP (labelOf · == label) := by
    have perm := dealt_perm testSplit pair.1
    rw [show testSplit.length = count by simp [testSplit, testSplits], ← tested] at perm
    rw [← perm.countP_eq, List.countP_append, Nat.add_comm]
    rfl
  obtain ⟨stream, divided⟩ := exists_divide_of_mem_divideEach labelOf splits _ _ _ pair member
  have shared : pair.2.tally (labelOf · == label) .validation =
      share (splits - 1) ((dealtElsewhere testSplit pair.1).countP (labelOf · == label)) := by
    rw [divided]
    exact countP_validation_divide labelOf (Nat.le_of_succ_le enough) testSplit pair.1 stream label
  have partitions := divisions_partition labelOf count splits seed pair member
  exact ⟨_, Division.sharesOut_of_tally enough even dealt shared (partitions.sum_tally _)⟩

def hasLabel (labels : List String) (label : String) (position : Nat) : Bool :=
  labels[position]? == some label

/-- In every split the folds have the files of each label in proportion. They are told here by their
positions in the corpus, since names can repeat. -/
theorem stratified_sharesOut (filenames labels : List String) {splits split : Nat} (seed : Nat)
    (enough : minSplits ≤ splits) (within : split < splits) :
    ∃ division : Division, division.Partitions filenames.length ∧
      (∀ fold, (stratified filenames labels splits seed).filenames split fold =
        (division.positions fold).map fun position => (filenames[position]?).getD "") ∧
      ∀ label, ∃ rest, division.SharesOut splits (hasLabel labels label)
        ((List.range filenames.length).countP (hasLabel labels label)) rest := by
  let labelOf (position : Nat) := labels.toArray[position]?
  obtain ⟨⟨number, division⟩, member, rfl⟩ :=
    List.mem_map.mp (map_fst_divisions labelOf filenames.length splits seed ▸
      List.mem_range.mpr within)
  refine ⟨division, divisions_partition _ _ _ _ _ member,
    filenames_stratified filenames labels splits seed member, ?_⟩
  intro label
  have isLabel : hasLabel labels label = (labelOf · == some label) := by
    funext position
    simp [hasLabel, labelOf]
  rw [isLabel]
  exact sharesOut_of_mem_divisions labelOf filenames.length seed enough (some label) _ member

theorem stratified_sharesOut_rareLabel :
    minSplits ≤ 4 ∧ 2 < 4 ∧ ∃ division : Division, division.Partitions 4 ∧
      (∀ fold, (stratified ["a.json", "b.json", "c.json", "d.json"] ["good", "bad", "good", "good"]
        4 42).filenames 2 fold = (division.positions fold).map fun position =>
          (["a.json", "b.json", "c.json", "d.json"][position]?).getD "") ∧
      ∀ label, ∃ rest, division.SharesOut 4 (hasLabel ["good", "bad", "good", "good"] label)
        ((List.range 4).countP (hasLabel ["good", "bad", "good", "good"] label)) rest :=
  ⟨by decide, by decide, stratified_sharesOut ["a.json", "b.json", "c.json", "d.json"]
    ["good", "bad", "good", "good"] 42 (by decide) (by decide)⟩

end DefectGraphs.Split
