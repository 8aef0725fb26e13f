import DefectGraphs.Proofs.Outcome
import DefectGraphs.Proofs.Settings.Held
import DefectGraphs.Settings.Override
import Mathlib.Data.List.Nodup

/-!
Objects laid over settings. What an object makes of a setting is decoded from the object alone where
it names the setting, and is what was there where it does not; so objects that are laid over in turn
do what one object with the members of both does.
-/

namespace DefectGraphs

namespace Json

/-- The value of a key; of one that is given more than once it is the last. -/
def member? (members : List Member) (key : Option String) : Option Json :=
  members.reverse.lookup key

theorem member?_cons (member : Member) (rest : List Member) (key : Option String) :
    member? (member :: rest) key =
      (member? rest key).or (if key = member.1 then some member.2 else none) := by
  rw [member?, List.reverse_cons, List.lookup_append, member?, List.lookup_cons]
  by_cases same : key = member.1
  · simp [same]
  · rw [beq_false_of_ne same, if_neg same]
    rfl

theorem member?_eq_none_iff {members : List Member} {key : Option String} :
    member? members key = none ↔ key ∉ members.map Prod.fst := by
  induction members with
  | nil => simp [member?]
  | cons member rest induction =>
      rw [member?_cons, Option.or_eq_none_iff, induction, List.map_cons, List.mem_cons, not_or,
        and_comm]
      simp

theorem lastMembers_cons (member : Member) (rest : List Member) :
    lastMembers (member :: rest) =
      if (lastMembers rest).any (·.1 == member.1) then lastMembers rest
      else member :: lastMembers rest := rfl

theorem mem_lastMembers_iff {members : List Member} {key : Option String} {value : Json} :
    (key, value) ∈ lastMembers members ↔ member? members key = some value := by
  induction members generalizing key value with
  | nil => simp [lastMembers, member?]
  | cons member rest induction =>
      rw [lastMembers_cons, member?_cons]
      split
      next again =>
        obtain ⟨⟨_, later⟩, listed, rfl⟩ : ∃ other ∈ lastMembers rest, other.1 = member.1 := by
          simpa using again
        rw [induction]
        by_cases same : key = member.1
        · rw [same, induction.mp listed]
          rfl
        · rw [if_neg same, Option.or_none]
      next last =>
        rw [List.mem_cons, induction]
        by_cases same : key = member.1
        · have none : member? rest key = none := by
            cases found : member? rest key with
            | none => rfl
            | some later =>
                exact absurd (List.any_eq_true.mpr ⟨_, induction.mpr found, by simp [same]⟩) last
          rw [none, if_pos same, Option.none_or, Option.some.injEq]
          simp [Prod.ext_iff, same, eq_comm]
        · rw [if_neg same, Option.or_none]
          simp [Prod.ext_iff, same]

theorem nodup_keys_lastMembers (members : List Member) :
    ((lastMembers members).map Prod.fst).Nodup := by
  induction members with
  | nil => exact List.nodup_nil
  | cons member rest induction =>
      rw [lastMembers_cons]
      split
      · exact induction
      next last =>
        rw [List.map_cons, List.nodup_cons]
        refine ⟨?_, induction⟩
        rintro listed
        obtain ⟨other, member', same⟩ := List.mem_map.mp listed
        exact last (List.any_eq_true.mpr ⟨other, member', by simp [same]⟩)

end Json

namespace Settings

/-- What an object has for a setting. -/
def valueOf? (members : List Json.Member) (key : Key) : Option Value :=
  (Json.member? members (some key.name)).map Json.toValue

/-- All keys of an object name settings. -/
def IsKnown (members : List Json.Member) : Prop :=
  ∀ name ∈ members.map Prod.fst, ∃ key : Key, name = some key.name

/-- What becomes of a setting under an object: it is decoded where the object names it, without a
look at what was there, and is kept where it does not. -/
def Told (members : List Json.Member) (before after : Settings) (key : Key) : Prop :=
  match valueOf? members key with
  | some value => key.decode? value = some (after.held key)
  | none => after.held key = before.held key

theorem Key.eq_some_of_getD {key : Key} {name : Option String} (same : name.getD "" = key.name) :
    name = some key.name := by
  cases name with
  | none => cases key <;> exact absurd same (by decide)
  | some name => exact congrArg some same

section Assignments

variable {members : List Json.Member}

/-- The members whose values count, in the order in which they are taken. -/
def ordered (members : List Json.Member) : List Json.Member :=
  (Json.lastMembers members).mergeSort fun left right => left.1.getD "" ≤ right.1.getD ""

/-- What a member assigns to the setting that it names. -/
def assignment (member : Json.Member) : Except SettingsError (Key × Value) :=
  match Key.ofName? (member.1.getD "") with
  | some key => .ok (key, member.2.toValue)
  | none => .error (.unknownParameter (member.1.getD ""))

theorem assignments_eq (members : List Json.Member) :
    assignments members = (ordered members).mapM assignment := by
  let named (member : Json.Member) : String × Json := (member.1.getD "", member.2)
  have sorted : (ordered members).map named =
      ((Json.lastMembers members).map named).mergeSort fun left right => left.1 ≤ right.1 :=
    List.map_mergeSort fun _ _ _ _ => rfl
  have taken : assignments members =
      (((Json.lastMembers members).map named).mergeSort fun left right => left.1 ≤ right.1).mapM
        fun pair => assignment (some pair.1, pair.2) := rfl
  rw [taken, ← sorted, List.mapM_map]
  rfl

theorem mem_ordered_iff {key : Option String} {value : Json} :
    (key, value) ∈ ordered members ↔ Json.member? members key = some value := by
  rw [ordered, List.mem_mergeSort, Json.mem_lastMembers_iff]

theorem assignment_eq_ok {member : Json.Member} {key : Key} {value : Value} :
    assignment member = .ok (key, value) ↔
      member.1 = some key.name ∧ member.2.toValue = value := by
  have named : Key.ofName? (member.1.getD "") = some key ↔ member.1 = some key.name := by
    rw [Key.ofName?_eq_some_iff]
    constructor
    · exact fun same => Key.eq_some_of_getD same.symm
    · intro same
      rw [same]
      rfl
  rw [assignment, ← named]
  cases Key.ofName? (member.1.getD "") <;> simp

theorem exists_of_assignment_eq_error {member : Json.Member} {error : SettingsError}
    (given : assignment member = .error error) :
    ∃ name, error = .unknownParameter name ∧ ∀ key : Key, key.name ≠ name := by
  unfold assignment at given
  split at given
  next => cases given
  next none =>
    cases given
    refine ⟨_, rfl, fun key named => ?_⟩
    rw [Key.ofName?_eq_some_iff.mpr named] at none
    cases none

theorem exists_assignments_iff :
    (∃ values, assignments members = .ok values) ↔ IsKnown members := by
  rw [assignments_eq, exists_mapM_eq_ok_iff]
  constructor
  · intro each name listed
    cases found : Json.member? members name with
    | none => exact absurd listed (Json.member?_eq_none_iff.mp found)
    | some value =>
        obtain ⟨⟨key, _⟩, given⟩ := each _ (mem_ordered_iff.mpr found)
        exact ⟨key, (assignment_eq_ok.mp given).1⟩
  · rintro known ⟨name, value⟩ member
    have found := mem_ordered_iff.mp member
    obtain ⟨key, named⟩ := known name (by
      rw [← not_not (a := name ∈ _), ← Json.member?_eq_none_iff, found]
      exact Option.some_ne_none value)
    exact ⟨(key, value.toValue), assignment_eq_ok.mpr ⟨named, rfl⟩⟩

/-- The assignments of an object are those of its values, one for each setting that it names. -/
theorem assignments_spec {values : List (Key × Value)} (given : assignments members = .ok values) :
    (values.map Prod.fst).Nodup ∧
      ∀ key value, (key, value) ∈ values ↔ valueOf? members key = some value := by
  rw [assignments_eq] at given
  constructor
  · have names : (ordered members).map Prod.fst = values.map fun pair => some pair.1.name := by
      rw [← List.forall₂_eq_eq_eq, List.forall₂_map_left_iff, List.forall₂_map_right_iff]
      exact (mapM_eq_ok.mp given).imp fun _ _ taken => (assignment_eq_ok.mp taken).1
    have distinct : ((ordered members).map Prod.fst).Nodup :=
      ((List.mergeSort_perm _ _).map _).nodup_iff.mpr (Json.nodup_keys_lastMembers members)
    rw [names] at distinct
    apply List.Nodup.of_map fun key : Key => some key.name
    rwa [List.map_map]
  · intro key value
    rw [mem_mapM_iff given, valueOf?, Option.map_eq_some_iff]
    constructor
    · rintro ⟨⟨name, content⟩, member, taken⟩
      obtain ⟨rfl, same⟩ := assignment_eq_ok.mp taken
      exact ⟨content, mem_ordered_iff.mp member, same⟩
    · rintro ⟨content, found, same⟩
      exact ⟨_, mem_ordered_iff.mpr found, assignment_eq_ok.mpr ⟨rfl, same⟩⟩

end Assignments

section Members

variable {settings changed : Settings} {members : List Json.Member}

/-- Settings that an object leads to: all its keys are known, and each setting is what the object
makes of it. -/
theorem withMembers_eq_ok_iff :
    settings.withMembers members = .ok changed ↔
      IsKnown members ∧ ∀ key, Told members settings changed key := by
  have told {values : List (Key × Value)} (given : assignments members = .ok values) :
      settings.assignAll values = some changed ↔ ∀ key, Told members settings changed key := by
    obtain ⟨distinct, listed⟩ := assignments_spec given
    have unnamed : ∀ key, key ∉ values.map Prod.fst ↔ valueOf? members key = none := by
      intro key
      cases found : valueOf? members key with
      | none =>
          simp only [iff_true, List.mem_map, Prod.exists, listed]
          rintro ⟨_, value, there, rfl⟩
          rw [found] at there
          cases there
      | some value =>
          simp only [reduceCtorEq, iff_false, not_not]
          exact List.mem_map_of_mem ((listed key value).mpr found)
    rw [assignAll_eq_some_iff distinct]
    constructor
    · rintro ⟨decoded, kept⟩ key
      unfold Told
      split
      next value found => exact decoded _ ((listed key value).mpr found)
      next none => exact kept key ((unnamed key).mpr none)
    · intro each
      constructor
      · rintro ⟨key, value⟩ member
        have holds := each key
        rwa [Told, (listed key value).mp member] at holds
      · intro key absent
        have holds := each key
        rwa [Told, (unnamed key).mp absent] at holds
  rw [← exists_assignments_iff]
  unfold withMembers
  rw [bind_eq_ok]
  constructor
  · rintro ⟨values, given, taken⟩
    refine ⟨⟨values, given⟩, (told given).mp ?_⟩
    split at taken
    next => cases taken; assumption
    next => cases taken
  · rintro ⟨⟨values, given⟩, each⟩
    refine ⟨values, given, ?_⟩
    rw [(told given).mpr each]
    rfl

/-- An object is laid over what the settings would be written as, and all is read again. -/
theorem withMembers_eq_ok_iff_written (fits : ∀ key : Key, key.Fits (settings.held key)) :
    settings.withMembers members = .ok changed ↔
      IsKnown members ∧ ∀ key, key.decode? ((valueOf? members key).getD
        (key.write (settings.held key))) = some (changed.held key) := by
  rw [withMembers_eq_ok_iff]
  refine and_congr_right fun _ => forall_congr' fun key => ?_
  unfold Told
  cases valueOf? members key with
  | some value => rfl
  | none => rw [Option.getD_none, Key.decode?_write (fits key), Option.some.injEq, eq_comm]

theorem withMembers_nil (settings : Settings) : settings.withMembers [] = .ok settings :=
  withMembers_eq_ok_iff.mpr ⟨List.forall_mem_nil _, fun _ => rfl⟩

/-- Unknown keys are found before values of the wrong kind. -/
theorem exists_unknown_of_not_isKnown (settings : Settings) (unknown : ¬IsKnown members) :
    ∃ name, settings.withMembers members = .error (.unknownParameter name) ∧
      ∀ key : Key, key.name ≠ name := by
  rw [← exists_assignments_iff] at unknown
  cases given : assignments members with
  | ok values => exact absurd ⟨values, given⟩ unknown
  | error error =>
      rw [assignments_eq] at given
      obtain ⟨-, member, -, -, -, failed⟩ := exists_of_mapM_eq_error given
      obtain ⟨name, rfl, apart⟩ := exists_of_assignment_eq_error failed
      refine ⟨name, ?_, apart⟩
      rw [withMembers, assignments_eq, given]
      rfl

end Members

section Overlay

/-- An object has the members of two others, and where both have one it is that of the upper. -/
def IsOverlay (merged upper lower : List Json.Member) : Prop :=
  ∀ name, (Json.member? merged name).map Json.toValue =
    ((Json.member? upper name).or (Json.member? lower name)).map Json.toValue

variable {merged upper lower : List Json.Member} (overlay : IsOverlay merged upper lower)

include overlay

theorem IsOverlay.isKnown_iff : IsKnown merged ↔ IsKnown lower ∧ IsKnown upper := by
  have listed : ∀ name, name ∈ merged.map Prod.fst ↔
      name ∈ lower.map Prod.fst ∨ name ∈ upper.map Prod.fst := by
    intro name
    have same := congrArg Option.isNone (overlay name)
    simp only [Option.isNone_map] at same
    rw [← not_iff_not, not_or, ← Json.member?_eq_none_iff, ← Json.member?_eq_none_iff,
      ← Json.member?_eq_none_iff, ← Option.isNone_iff_eq_none, same, Option.isNone_iff_eq_none,
      Option.or_eq_none_iff, and_comm]
  simp only [IsKnown, listed, or_imp, forall_and]

theorem IsOverlay.valueOf?_eq (key : Key) :
    valueOf? merged key = (valueOf? upper key).or (valueOf? lower key) := by
  rw [valueOf?, overlay, valueOf?, valueOf?]
  cases Json.member? upper (some key.name) <;> rfl

/-- Where one object has led to some settings, another leads from there to where both lead at
once. -/
theorem IsOverlay.withMembers_iff {settings changed last : Settings}
    (given : settings.withMembers lower = .ok changed) :
    changed.withMembers upper = .ok last ↔ settings.withMembers merged = .ok last := by
  rw [withMembers_eq_ok_iff] at given
  obtain ⟨known, first⟩ := given
  have each : ∀ key, Told upper changed last key ↔ Told merged settings last key := by
    intro key
    have before := first key
    unfold Told at before ⊢
    rw [overlay.valueOf?_eq]
    cases valueOf? upper key with
    | some value => rfl
    | none =>
        rw [Option.none_or]
        cases named : valueOf? lower key with
        | none =>
            rw [named] at before
            rw [before]
        | some value =>
            rw [named] at before
            dsimp only at before ⊢
            rw [before, Option.some.injEq, eq_comm]
  rw [withMembers_eq_ok_iff, withMembers_eq_ok_iff, overlay.isKnown_iff]
  simp only [each, known, true_and]

end Overlay

section Texts

variable {settings changed : Settings} {text : String} {members : List Json.Member}

/-- A text that is accepted as a JSON object with some members. -/
def IsObject (text : String) (members : List Json.Member) : Prop :=
  Json.parseStrict? text = some (.object members)

theorem withOverrides_eq (object : IsObject text members) :
    settings.withOverrides text = (settings.withMembers members).mapError .settings := by
  rw [withOverrides, object]

theorem withOverrides_eq_ok_iff (object : IsObject text members) :
    settings.withOverrides text = .ok changed ↔ settings.withMembers members = .ok changed := by
  rw [withOverrides_eq object]
  cases settings.withMembers members <;> simp [Except.mapError]

end Texts

/-- How settings answer to overrides. -/
structure AnswersOverrides (settings : Settings) : Prop where
  empty : ∀ text, IsObject text [] → settings.withOverrides text = .ok settings
  /-- What an object makes of a setting is told by the object alone, or the setting is kept. -/
  told : ∀ text members, IsObject text members → ∀ changed,
    settings.withOverrides text = .ok changed ↔
      IsKnown members ∧ ∀ key, Told members settings changed key
  written : (∀ key : Key, key.Fits (settings.held key)) →
    ∀ text members, IsObject text members → ∀ changed,
      settings.withOverrides text = .ok changed ↔
        IsKnown members ∧ ∀ key, key.decode? ((valueOf? members key).getD
          (key.write (settings.held key))) = some (changed.held key)
  unknown : ∀ text members, IsObject text members →
    ∀ name ∈ members.map Prod.fst, (∀ key : Key, name ≠ some key.name) →
      ∃ other, settings.withOverrides text = .error (.settings (.unknownParameter other)) ∧
        ∀ key : Key, key.name ≠ other
  inTurn : ∀ first second both lower upper merged changed, IsObject first lower →
    IsObject second upper → IsObject both merged → IsOverlay merged upper lower →
      settings.withOverrides first = .ok changed →
        (changed.withOverrides second).toOption = (settings.withOverrides both).toOption

/-- Overrides compose, and each changes nothing but the settings that it names. -/
theorem withOverrides_composes (settings : Settings) : settings.AnswersOverrides where
  empty := by
    intro text object
    exact (withOverrides_eq_ok_iff object).mpr settings.withMembers_nil
  told := by
    intro text members object changed
    rw [withOverrides_eq_ok_iff object, withMembers_eq_ok_iff]
  written := by
    intro fits text members object changed
    rw [withOverrides_eq_ok_iff object, withMembers_eq_ok_iff_written fits]
  unknown := by
    intro text members object name listed stray
    have unknown : ¬IsKnown members := by
      intro known
      obtain ⟨key, named⟩ := known name listed
      exact stray key named
    obtain ⟨other, failed, apart⟩ := settings.exists_unknown_of_not_isKnown unknown
    refine ⟨other, ?_, apart⟩
    rw [withOverrides_eq object, failed]
    rfl
  inTurn := by
    intro first second both lower upper merged changed firstObject secondObject bothObject overlay
      given
    rw [withOverrides_eq_ok_iff firstObject] at given
    apply Option.ext
    intro last
    rw [toOption_eq_some, toOption_eq_some, withOverrides_eq_ok_iff secondObject,
      withOverrides_eq_ok_iff bothObject]
    exact overlay.withMembers_iff given

section TiedTwice

def seedMember : Json.Member := (some "random_seed", .number ⟨false, ['7'], [], false, []⟩)

def tieMember (tied : Json) : Json.Member := (some "tie_fwd_bkwd_edges", tied)

theorem isObject_tied : IsObject "\x7b\"random_seed\": 7, \"tie_fwd_bkwd_edges\": true\x7d"
    [seedMember, tieMember (.bool true)] := rfl

theorem isObject_untied : IsObject "\x7b\"tie_fwd_bkwd_edges\": []\x7d" [tieMember (.array [])] :=
  rfl

theorem isObject_both : IsObject "\x7b\"tie_fwd_bkwd_edges\": [], \"random_seed\": 7\x7d"
    [tieMember (.array []), seedMember] := rfl

theorem isOverlay_untied : IsOverlay [tieMember (.array []), seedMember] [tieMember (.array [])]
    [seedMember, tieMember (.bool true)] := by
  intro name
  simp only [Json.member?_cons]
  by_cases isTie : name = (tieMember .null).1 <;> by_cases isSeed : name = seedMember.1 <;>
    simp_all [Json.member?, seedMember, tieMember]

/-- A seed that is told once and a tie that is told twice, the second time as an empty list. -/
theorem withOverrides_composes_tiedTwice :
    let first := "\x7b\"random_seed\": 7, \"tie_fwd_bkwd_edges\": true\x7d"
    let second := "\x7b\"tie_fwd_bkwd_edges\": []\x7d"
    let both := "\x7b\"tie_fwd_bkwd_edges\": [], \"random_seed\": 7\x7d"
    let changed : Settings := { default with seed := 7, tie := .all true }
    let last : Settings := { default with seed := 7, tie := .only [] }
    ∃ lower upper merged, IsObject first lower ∧ IsObject second upper ∧ IsObject both merged ∧
      IsOverlay merged upper lower ∧ default.withOverrides first = .ok changed ∧
      changed.withOverrides second = .ok last ∧ default.withOverrides both = .ok last := by
  intro first second both changed last
  have known : IsKnown [seedMember, tieMember (.bool true)] :=
    List.forall_mem_cons.mpr ⟨⟨.seed, rfl⟩, List.forall_mem_singleton.mpr ⟨.tie, rfl⟩⟩
  have known' : IsKnown [tieMember (.array [])] := List.forall_mem_singleton.mpr ⟨.tie, rfl⟩
  have given : default.withOverrides first = .ok changed := by
    refine ((withOverrides_composes default).told _ _ isObject_tied _).mpr ⟨known, fun key => ?_⟩
    cases key <;> rfl
  have again : changed.withOverrides second = .ok last := by
    refine ((withOverrides_composes changed).told _ _ isObject_untied _).mpr
      ⟨known', fun key => ?_⟩
    cases key <;> rfl
  have same := (withOverrides_composes default).inTurn _ _ _ _ _ _ _ isObject_tied isObject_untied
    isObject_both isOverlay_untied given
  rw [again] at same
  exact ⟨_, _, _, isObject_tied, isObject_untied, isObject_both, isOverlay_untied, given, again,
    toOption_eq_some.mp same.symm⟩

end TiedTwice

end Settings

end DefectGraphs
