import DefectGraphs.Proofs.Split.Partition
import DefectGraphs.Proofs.Split.RoundTrip
import Mathlib.Order.Bounds.Defs

/-!
The number of splits of a manifest bounds the split of every entry, but of those at the last index
that a line can hold: one more than that is no word, and counts as nothing.
-/

namespace DefectGraphs.Split

theorem foldl_max_le_iff {numbers : List Nat} {start bound : Nat} :
    numbers.foldl max start ≤ bound ↔ start ≤ bound ∧ ∀ number ∈ numbers, number ≤ bound := by
  induction numbers generalizing start with
  | nil => simp
  | cons number rest induction =>
      rw [List.foldl_cons, induction, Nat.max_le, List.forall_mem_cons, and_assoc]

namespace Manifest

variable {manifest : Manifest}

theorem splitCount_le_iff {bound : Nat} :
    manifest.splitCount ≤ bound ↔
      ∀ entry ∈ manifest.entries, (entry.split + 1) % UInt64.size ≤ bound := by
  rw [splitCount, foldl_max_le_iff, List.forall_mem_map]
  exact and_iff_right bound.zero_le

theorem splitCount_lt : manifest.splitCount < UInt64.size := by
  apply Nat.lt_of_le_pred (by decide)
  rw [splitCount_le_iff]
  intro entry _
  exact Nat.le_pred_of_lt (Nat.mod_lt _ (by decide))

theorem split_lt_splitCount {entry : Entry} (member : entry ∈ manifest.entries)
    (small : entry.split + 1 < UInt64.size) : entry.split < manifest.splitCount := by
  have counted := splitCount_le_iff.mp (Nat.le_refl manifest.splitCount) entry member
  rwa [Nat.mod_eq_of_lt small] at counted

theorem split_lt_splitCount_iff :
    (∀ entry ∈ manifest.entries, entry.split < manifest.splitCount) ↔
      ∀ entry ∈ manifest.entries, entry.split + 1 < UInt64.size := by
  constructor
  · intro bounded entry member
    exact Nat.lt_of_le_of_lt (bounded entry member) splitCount_lt
  · intro small entry member
    exact split_lt_splitCount member (small entry member)

theorem filenames_eq_nil_iff {split : Nat} {fold : Fold} :
    manifest.filenames split fold = [] ↔
      ∀ entry ∈ manifest.entries, entry.split = split → entry.fold ≠ fold := by
  simp [filenames, List.filter_eq_nil_iff]

theorem filenames_eq_nil_from_iff {count : Nat} :
    (∀ split, count ≤ split → ∀ fold, manifest.filenames split fold = []) ↔
      ∀ entry ∈ manifest.entries, entry.split < count := by
  simp only [filenames_eq_nil_iff]
  constructor
  · intro none entry member
    by_contra least
    exact none entry.split (Nat.le_of_not_lt least) entry.fold entry member rfl rfl
  · rintro bounded _ least fold entry member rfl
    exact absurd (bounded entry member) (Nat.not_lt.mpr least)

/-- The entries that are met when all folds of so many splits are gone through. -/
def listed (manifest : Manifest) (count : Nat) : List Entry :=
  (List.range count).flatMap fun split => Fold.all.flatMap fun fold =>
    (manifest.filenames split fold).map (Entry.mk split fold)

theorem map_filenames (split : Nat) (fold : Fold) :
    (manifest.filenames split fold).map (Entry.mk split fold) =
      (manifest.entries.filter (·.split == split)).filter (·.fold == fold) := by
  have whole : ∀ entry ∈ manifest.entries.filter
      (fun entry => entry.split == split && entry.fold == fold),
        (Entry.mk split fold ∘ Entry.filename) entry = id entry := by
    rintro ⟨_, _, filename⟩ member
    obtain ⟨-, same⟩ := List.mem_filter.mp member
    obtain ⟨rfl, rfl⟩ : _ = split ∧ _ = fold := by simpa using same
    rfl
  rw [filenames, List.map_map, List.map_congr_left whole, List.map_id, List.filter_filter]
  simp only [Bool.and_comm]

/-- Every entry of these splits is met once. -/
theorem listed_perm (count : Nat) :
    (manifest.listed count).Perm (manifest.entries.filter (·.split < count)) := by
  have folds : ∀ split ∈ List.range count, (Fold.all.flatMap fun fold =>
      (manifest.filenames split fold).map (Entry.mk split fold)).Perm
        ((manifest.entries.filter (·.split < count)).filter (·.split == split)) := by
    intro split within
    have inside : (manifest.entries.filter (·.split < count)).filter (·.split == split) =
        manifest.entries.filter (·.split == split) := by
      rw [List.filter_filter]
      apply List.filter_congr
      intro entry _
      by_cases same : entry.split = split
      · simpa [same] using within
      · simp [same]
    simp only [map_filenames, inside]
    exact flatMap_filter_perm Entry.fold (by decide) fun entry _ => entry.fold.mem_all
  refine (List.Perm.flatMap_left _ folds).trans ?_
  apply flatMap_filter_perm Entry.split List.nodup_range
  intro entry member
  simpa using (List.mem_filter.mp member).2

theorem listed_perm_entries_iff {count : Nat} :
    (manifest.listed count).Perm manifest.entries ↔
      ∀ entry ∈ manifest.entries, entry.split < count := by
  constructor
  · intro all
    have length := ((listed_perm count).symm.trans all).length_eq
    simpa [List.length_filter_eq_length_iff] using length
  · intro bounded
    refine (listed_perm count).trans (.of_eq ?_)
    rw [List.filter_eq_self]
    simpa using bounded

/-- The number of splits, counted in words. -/
structure CountsSplits (manifest : Manifest) : Prop where
  least : IsLeast {count | ∀ split, count ≤ split → split + 1 < UInt64.size →
    ∀ fold, manifest.filenames split fold = []} manifest.splitCount
  least_iff : IsLeast {count | ∀ split, count ≤ split →
      ∀ fold, manifest.filenames split fold = []} manifest.splitCount ↔
    ∀ entry ∈ manifest.entries, entry.split + 1 < UInt64.size
  listed_iff : (manifest.listed manifest.splitCount).Perm manifest.entries ↔
    ∀ entry ∈ manifest.entries, entry.split + 1 < UInt64.size

theorem splitCount_le_of_small (words : ∀ entry ∈ manifest.entries, entry.split < UInt64.size)
    {count : Nat} (bounds : ∀ split, count ≤ split → split + 1 < UInt64.size →
      ∀ fold, manifest.filenames split fold = []) : manifest.splitCount ≤ count := by
  rw [splitCount_le_iff]
  intro entry member
  by_cases small : entry.split + 1 < UInt64.size
  · rw [Nat.mod_eq_of_lt small]
    by_contra beyond
    exact filenames_eq_nil_iff.mp (bounds entry.split (by omega) small entry.fold) entry member
      rfl rfl
  · have last : entry.split + 1 = UInt64.size := by
      have word := words entry member
      omega
    rw [last, Nat.mod_self]
    exact count.zero_le

/-- Of a manifest that was read, the number of splits is the least bound of the splits below the
last index, and of all of them just when no entry is at that index. -/
theorem splitCount_countsSplits {text : String} {manifest : Manifest}
    (parsed : parse text = .ok manifest) : manifest.CountsSplits := by
  have words : ∀ entry ∈ manifest.entries, entry.split < UInt64.size :=
    fun entry member => (fitsLine_of_parse parsed entry member).split_lt
  refine ⟨⟨?_, fun _ => splitCount_le_of_small words⟩, ?_, ?_⟩
  · intro split beyond small fold
    rw [filenames_eq_nil_iff]
    rintro entry member rfl
    exact absurd (split_lt_splitCount member small) (Nat.not_lt.mpr beyond)
  · rw [← split_lt_splitCount_iff, ← filenames_eq_nil_from_iff]
    refine ⟨And.left, fun bounds => ⟨bounds, ?_⟩⟩
    intro count bounds'
    exact splitCount_le_of_small words fun split beyond _ => bounds' split beyond
  · rw [listed_perm_entries_iff, split_lt_splitCount_iff]

theorem splitCount_countsSplits_skippedSplit :
    let manifest : Manifest := ⟨[⟨0, .train, "a.json"⟩, ⟨2, .test, "b.json"⟩]⟩
    parse "0:TRAIN:a.json\n2:TEST:b.json\n" = .ok manifest ∧ manifest.CountsSplits ∧
      manifest.splitCount = 3 := by
  have parsed : parse "0:TRAIN:a.json\n2:TEST:b.json\n" =
      .ok ⟨[⟨0, .train, "a.json"⟩, ⟨2, .test, "b.json"⟩]⟩ := by decide +kernel
  exact ⟨parsed, splitCount_countsSplits parsed, by decide⟩

/-- One more than the last index is nothing, so its split is beyond the count and never gone
through. -/
theorem splitCount_lastIndex :
    let manifest : Manifest := ⟨[⟨UInt64.size - 1, .train, "a.json"⟩, ⟨1, .test, "b.json"⟩]⟩
    parse "18446744073709551615:TRAIN:a.json\n1:TEST:b.json\n" = .ok manifest ∧
      manifest.splitCount = 2 ∧ manifest.filenames (UInt64.size - 1) .train = ["a.json"] ∧
      manifest.listed manifest.splitCount = [⟨1, .test, "b.json"⟩] ∧
      ¬IsLeast {count | ∀ split, count ≤ split → ∀ fold, manifest.filenames split fold = []}
        manifest.splitCount := by
  intro manifest
  have count : manifest.splitCount = 2 := by decide
  have held : manifest.filenames (UInt64.size - 1) .train = ["a.json"] := by decide
  refine ⟨by decide +kernel, count, held, by decide, ?_⟩
  rintro ⟨bounds, -⟩
  have none := bounds (UInt64.size - 1) (by rw [count]; decide) .train
  rw [held] at none
  cases none

end Manifest

end DefectGraphs.Split
