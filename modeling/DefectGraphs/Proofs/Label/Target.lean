import DefectGraphs.Label.Language
import DefectGraphs.Label.Target
import DefectGraphs.Proofs.Outcome

/-!
What a source file's name says about its language, and a sample's label about its target. Each is
read just where it is said, and otherwise there is one failure.
-/

namespace DefectGraphs.Label

open Files

namespace Language

theorem ofExtension?_eq_some {extension : String} {language : Language} :
    ofExtension? extension = some language ↔ language.extension = extension := by
  constructor
  · intro found
    exact beq_iff_eq.mp (List.find?_some (p := fun known : Language => known.extension == extension) found)
  · rintro rfl
    exact ofExtension?_extension language

/-- The name of the source file ends as in no language. -/
def IsUnknown (source : Path) : Prop :=
  ∀ language : Language, source.extension ≠ some language.extension

theorem ofPath_eq_ok {source : Path} {language : Language} :
    ofPath source = .ok language ↔ source.extension = some language.extension := by
  unfold ofPath
  cases ending : source.extension with
  | none => simp
  | some extension =>
      rw [Option.bind_some, Option.some_inj, eq_comm (a := extension), ← ofExtension?_eq_some]
      cases ofExtension? extension <;> simp

theorem isUnknown_iff {source : Path} :
    IsUnknown source ↔ source.extension.bind ofExtension? = none := by
  simp only [IsUnknown, ne_eq, ← ofPath_eq_ok]
  unfold ofPath
  cases source.extension.bind ofExtension? <;> simp

theorem ofPath_eq_error {source : Path} {failure : Failure} :
    ofPath source = .error failure ↔ IsUnknown source ∧ .unknownLanguage source = failure := by
  rw [isUnknown_iff]
  unfold ofPath
  cases source.extension.bind ofExtension? <;> simp

end Language

namespace Target

/-- The class of a sample: the one after all categories if it is safe, else the place of its
category. -/
inductive HasClass : Bool → Option Nat → Nat → Prop
  | safe {cwe : Option Nat} : HasClass true cwe safeClass
  | category {cwe index : Nat} (listed : categories[index]? = some cwe) :
      HasClass false (some cwe) index

/-- The target of a sample, in the shape that is asked for. -/
inductive IsTarget (isSafe : Bool) (cwe : Option Nat) : Shape → Target → Prop
  | binary : IsTarget isSafe cwe .binary (.binary !isSafe)
  | classId {index : Nat} (own : HasClass isSafe cwe index) :
      IsTarget isSafe cwe .classId (.classId index)
  | oneHot {index : Nat} {hot : List Bool} (own : HasClass isSafe cwe index)
      (sized : hot.length = categories.length + 1)
      (only : ∀ place, hot[place]? = some true ↔ place = index) :
      IsTarget isSafe cwe .oneHot (.oneHot hot)

/-- Why a sample has no class. -/
inductive Unclassed (path : Path) : Bool → Option Nat → Failure → Prop
  | missing : Unclassed path false none (.missingCategory path)
  | unknown {cwe : Nat} (unlisted : cwe ∉ categories) :
      Unclassed path false (some cwe) (.unknownCategory cwe path)

theorem HasClass.lt_classCount {isSafe : Bool} {cwe : Option Nat} {index : Nat}
    (own : HasClass isSafe cwe index) : index < classCount := by
  cases own with
  | safe => exact Nat.lt_succ_self _
  | category listed => exact Nat.lt_succ_of_lt (List.getElem?_eq_some_iff.mp listed).1

theorem classOf?_eq_some {cwe index : Nat} :
    classOf? cwe = some index ↔ categories[index]? = some cwe := by
  rw [classOf?, List.idxOf?_eq_some_iff, List.getElem?_eq_some_iff]
  refine exists_congr fun within => and_iff_left_of_imp ?_
  rintro rfl earlier before same
  exact Nat.ne_of_lt before ((List.getElem_inj categories_nodup).mp same)

theorem length_hotAt (index : Nat) : (hotAt index).length = categories.length + 1 := by
  rw [hotAt, List.length_map, List.length_range, classCount]

theorem getElem?_hotAt {index : Nat} (known : index < classCount) (place : Nat) :
    (hotAt index)[place]? = some true ↔ place = index := by
  rw [hotAt, List.getElem?_map, Option.map_eq_some_iff]
  constructor
  · rintro ⟨number, found, same⟩
    obtain ⟨_, own⟩ := List.getElem?_eq_some_iff.mp found
    rw [List.getElem_range] at own
    exact own.trans (beq_iff_eq.mp same)
  · rintro rfl
    exact ⟨place, List.getElem?_range known, beq_self_eq_true place⟩

/-- A one-hot vector is known by its length and by where it is one. -/
theorem eq_hotAt {index : Nat} {hot : List Bool} (known : index < classCount)
    (sized : hot.length = categories.length + 1)
    (only : ∀ place, hot[place]? = some true ↔ place = index) : hot = hotAt index := by
  apply List.ext_getElem (sized.trans (length_hotAt index).symm)
  intro place within within'
  have same := (only place).trans (getElem?_hotAt known place).symm
  rwa [List.getElem?_eq_getElem within, List.getElem?_eq_getElem within', Option.some_inj,
    Option.some_inj, Bool.coe_iff_coe] at same

section Outcomes

variable {path : Path} {isSafe : Bool} {cwe : Option Nat} {shape : Shape} {failure : Failure}

theorem sampleClass_eq_ok {index : Nat} :
    sampleClass isSafe cwe path = .ok index ↔ HasClass isSafe cwe index := by
  cases isSafe with
  | true =>
      constructor
      · rintro ⟨⟩
        exact .safe
      · rintro ⟨⟩
        rfl
  | false =>
      cases cwe with
      | none => constructor <;> nofun
      | some number =>
          have own : HasClass false (some number) index ↔ classOf? number = some index := by
            rw [classOf?_eq_some]
            exact ⟨fun | .category listed => listed, .category⟩
          rw [own, sampleClass]
          cases classOf? number <;> simp

theorem sampleClass_eq_error :
    sampleClass isSafe cwe path = .error failure ↔ Unclassed path isSafe cwe failure := by
  cases isSafe with
  | true => constructor <;> nofun
  | false =>
      cases cwe with
      | none =>
          constructor
          · rintro ⟨⟩
            exact .missing
          · rintro ⟨⟩
            rfl
      | some number =>
          have own : Unclassed path false (some number) failure ↔
              classOf? number = none ∧ .unknownCategory number path = failure := by
            rw [classOf?, List.idxOf?_eq_none_iff]
            constructor
            · rintro ⟨⟩
              exact ⟨‹_›, rfl⟩
            · rintro ⟨unlisted, rfl⟩
              exact .unknown unlisted
          rw [own, sampleClass]
          cases classOf? number <;> simp

theorem encode_eq_ok {target : Target} :
    encode shape isSafe cwe path = .ok target ↔ IsTarget isSafe cwe shape target := by
  cases shape with
  | binary =>
      constructor
      · rintro ⟨⟩
        exact .binary
      · rintro ⟨⟩
        rfl
  | classId =>
      simp only [encode, map_eq_ok, sampleClass_eq_ok]
      constructor
      · rintro ⟨index, own, rfl⟩
        exact .classId own
      · rintro ⟨⟩
        exact ⟨_, ‹_›, rfl⟩
  | oneHot =>
      simp only [encode, map_eq_ok, sampleClass_eq_ok]
      constructor
      · rintro ⟨index, own, rfl⟩
        exact .oneHot own (length_hotAt index) (getElem?_hotAt own.lt_classCount)
      · rintro (_ | _ | ⟨own, sized, only⟩)
        exact ⟨_, own, congrArg Target.oneHot (eq_hotAt own.lt_classCount sized only).symm⟩

theorem encode_eq_error :
    encode shape isSafe cwe path = .error failure ↔
      shape ≠ .binary ∧ Unclassed path isSafe cwe failure := by
  rw [← sampleClass_eq_error]
  cases shape <;> cases given : sampleClass isSafe cwe path <;> simp [encode, given, Except.map]

end Outcomes

end Target

end DefectGraphs.Label
