import DefectGraphs.Proofs.Split.Deal
import Mathlib.Data.Set.Function

/-!
Splits and names. Labels are told apart and never read, and file names are put in last, so neither
other labels for the same groups nor other names for the same files move a file to another fold.
-/

namespace DefectGraphs.Split

open DefectGraphs.Random

section Labels

/-- Two ways to label positions that tell the same ones apart. -/
def TellSame (labelOf : Nat → κ) (otherOf : Nat → μ) : Prop :=
  ∀ left right, labelOf left = labelOf right ↔ otherOf left = otherOf right

variable [BEq κ] [LawfulBEq κ] [BEq μ] [LawfulBEq μ] {labelOf : Nat → κ} {otherOf : Nat → μ}
  (same : TellSame labelOf otherOf)

include same

theorem positionsByLabel_congr (positions : List Nat) :
    positionsByLabel labelOf positions = positionsByLabel otherOf positions :=
  map_snd_groupBy_congr same positions

theorem dealOrder_congr (count : Nat) (stream : Stream) :
    dealOrder labelOf count stream = dealOrder otherOf count stream := by
  rw [dealOrder, dealOrder, positionsByLabel_congr same]

theorem divide_congr (splits : Nat) (testSplit : List Nat) (split : Nat) (stream : Stream) :
    divide labelOf splits testSplit split stream =
      divide otherOf splits testSplit split stream := by
  rw [divide, divide, positionsByLabel_congr same]

/-- One stream goes from split to split, so every split must leave it where it did before. -/
theorem divideEach_congr (splits : Nat) (testSplit : List Nat) (stream : Stream)
    (numbers : List Nat) :
    divideEach labelOf splits testSplit stream numbers =
      divideEach otherOf splits testSplit stream numbers := by
  induction numbers generalizing stream with
  | nil => rfl
  | cons split rest induction =>
      rw [divideEach, divideEach, divide_congr same]
      exact congrArg (List.cons _) (induction _)

theorem divisions_congr (count splits seed : Nat) :
    divisions labelOf count splits seed = divisions otherOf count splits seed := by
  rw [divisions, divisions, dealOrder_congr same]
  exact divideEach_congr same _ _ _ _

end Labels

/-- What an entry of a manifest stands for: a file, by its position, in a fold of a split. -/
structure Place where
  split : Nat
  fold : Fold
  position : Nat
  deriving DecidableEq, Repr

namespace Place

def entry (filenames : List String) (place : Place) : Entry :=
  ⟨place.split, place.fold, (filenames[place.position]?).getD ""⟩

end Place

/-- The places of labelled files, fold after fold and split after split. -/
def places (labels : List String) (count splits seed : Nat) : List Place :=
  (labelDivisions labels count splits seed).flatMap fun (split, division) =>
    Fold.all.flatMap fun fold => (division.positions fold).map (Place.mk split fold)

section Places

variable (labels : List String) (count splits seed : Nat)

theorem position_lt_of_mem_places :
    ∀ place ∈ places labels count splits seed, place.position < count := by
  intro place member
  obtain ⟨⟨split, division⟩, divided, listed⟩ := List.mem_flatMap.mp member
  obtain ⟨fold, -, inFold⟩ := List.mem_flatMap.mp listed
  obtain ⟨position, found, rfl⟩ := List.mem_map.mp inFold
  have partitions := labelDivisions_partition labels count splits seed _ divided
  exact List.mem_range.mp
    (partitions.perm.mem_iff.mp (List.mem_flatMap.mpr ⟨fold, fold.mem_all, found⟩))

theorem places_map_labels {relabel : String → String}
    (apart : Set.InjOn relabel {label | label ∈ labels}) :
    places (labels.map relabel) count splits seed = places labels count splits seed := by
  have same : TellSame (fun position => (labels.map relabel).toArray[position]?)
      (fun position => labels.toArray[position]?) := by
    intro left right
    simp only [List.getElem?_toArray, List.getElem?_map]
    constructor
    · intro alike
      cases first : labels[left]? with
      | none => simpa [first, eq_comm] using alike
      | some label =>
          obtain ⟨other, second, named⟩ : ∃ other, labels[right]? = some other ∧
              relabel other = relabel label := by simpa [first, eq_comm] using alike
          rw [second, apart (List.mem_of_getElem? second) (List.mem_of_getElem? first) named]
    · exact congrArg (Option.map relabel)
  rw [places, labelDivisions, divisions_congr same]
  rfl

end Places

section Names

variable (filenames labels : List String) (splits seed : Nat)

theorem entries_stratified : (stratified filenames labels splits seed).entries =
    (places labels filenames.length splits seed).map (Place.entry filenames) := by
  rw [stratified, places, List.map_flatMap]
  apply List.flatMap_congr
  rintro ⟨split, division⟩ -
  simp only [Division.entries, List.map_flatMap, List.map_map, List.getElem?_toArray]
  rfl

theorem stratified_map_labels {relabel : String → String}
    (apart : Set.InjOn relabel {label | label ∈ labels}) :
    stratified filenames (labels.map relabel) splits seed =
      stratified filenames labels splits seed := by
  have entries : (stratified filenames (labels.map relabel) splits seed).entries =
      (stratified filenames labels splits seed).entries := by
    rw [entries_stratified, entries_stratified, places_map_labels labels _ _ _ apart]
  exact congrArg Manifest.mk entries

def Entry.rename (rename : String → String) (entry : Entry) : Entry :=
  { entry with filename := rename entry.filename }

theorem entries_stratified_map_filenames (rename : String → String) :
    (stratified (filenames.map rename) labels splits seed).entries =
      (stratified filenames labels splits seed).entries.map (Entry.rename rename) := by
  rw [entries_stratified, entries_stratified, List.length_map, List.map_map]
  apply List.map_congr_left
  intro place member
  have within := position_lt_of_mem_places labels _ _ _ place member
  simp [Place.entry, Entry.rename, within]

end Names

/-- Other labels that are apart where the labels were give the same manifest. Other file names are
put where the names were: an entry keeps its split and its fold and stands for the same file. -/
theorem stratified_ignoresNames (filenames labels : List String) (splits seed : Nat)
    {relabel : String → String} (apart : Set.InjOn relabel {label | label ∈ labels}) :
    places (labels.map relabel) filenames.length splits seed =
        places labels filenames.length splits seed ∧
      stratified filenames (labels.map relabel) splits seed =
        stratified filenames labels splits seed ∧
      (∀ rename : String → String,
        (stratified (filenames.map rename) labels splits seed).entries =
          (stratified filenames labels splits seed).entries.map (Entry.rename rename)) ∧
      ∀ names : List String, names.length = filenames.length →
        (stratified names labels splits seed).entries =
          (places labels filenames.length splits seed).map (Place.entry names) := by
  refine ⟨places_map_labels labels _ _ _ apart, stratified_map_labels filenames labels _ _ apart,
    entries_stratified_map_filenames filenames labels _ _, ?_⟩
  intro names same
  rw [entries_stratified, same]

/-- The two labels that there are change places, and all files get one name. -/
theorem stratified_ignoresNames_exchangedLabels :
    let exchange : String → String := fun label => if label = "good" then "bad" else "good"
    let filenames := ["a.json", "b.json", "c.json", "d.json"]
    let labels := ["good", "bad", "good", "good"]
    Set.InjOn exchange {label | label ∈ labels} ∧
      stratified filenames (labels.map exchange) 3 42 = stratified filenames labels 3 42 ∧
      (stratified (filenames.map fun _ => "x.json") labels 3 42).entries =
        (stratified filenames labels 3 42).entries.map (Entry.rename fun _ => "x.json") := by
  intro exchange filenames labels
  have apart : Set.InjOn exchange {label | label ∈ labels} := by
    simp [Set.InjOn, labels, exchange]
  obtain ⟨-, relabelled, renamed, -⟩ := stratified_ignoresNames filenames labels 3 42 apart
  exact ⟨apart, relabelled, renamed _⟩

end DefectGraphs.Split
