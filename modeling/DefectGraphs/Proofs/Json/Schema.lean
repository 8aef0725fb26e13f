import DefectGraphs.Json.Fields
import DefectGraphs.Proofs.Outcome

/-!
What the fields of a record say, told from the value alone: which values can be records, what each of
them holds under a name, and what a field of a kind may hold. Reading a field gives a result just
where this holds of it.
-/

namespace DefectGraphs.Json

/-- The value under a name, if there is one: that of the member with the name, or the item at the
name's place. -/
def held? (names : List String) (name : String) : Json → Option Json
  | .object members => (members.find? (·.1 == some name)).map Prod.snd
  | .array items => items[names.idxOf name]?
  | _ => none

/-- A value that can be a record with fields of these names. Every key of an object has a text, and
none of the names is there twice; an array is not longer than the names. -/
def IsRecord (names : List String) : Json → Prop
  | .object members => members.any (·.1.isNone) = false ∧
      ∀ name ∈ names, members.countP (·.1 == some name) ≤ 1
  | .array items => items.length ≤ names.length
  | _ => False

def IsText (value : Json) (content : String) : Prop :=
  value = .text (some content)

/-- A number without sign, fraction and exponent that fits 32 bits. -/
def IsWord32 (value : Json) (word : Nat) : Prop :=
  ∃ number, value = .number number ∧ number.natural? = some word ∧ word < UInt32.size

def IsList (tells : Json → α → Prop) (value : Json) (elements : List α) : Prop :=
  ∃ items, value = .array items ∧ List.Forall₂ tells items elements

/-- A field that must be there. -/
def IsRequired (tells : Json → α → Prop) (held : Option Json) (result : α) : Prop :=
  ∃ value, held = some value ∧ tells value result

/-- A field that may be left out or be null. -/
inductive IsOptional (tells : Json → α → Prop) : Option Json → Option α → Prop
  | missing : IsOptional tells none none
  | null : IsOptional tells (some .null) none
  | given {value : Json} {result : α} (nonnull : value ≠ .null) (told : tells value result) :
      IsOptional tells (some value) (some result)

/-- The reader gives just what a value tells. -/
def Reads (read : Json → Option α) (tells : Json → α → Prop) : Prop :=
  ∀ value result, read value = some result ↔ tells value result

theorem reads_asText? : Reads asText? IsText := by
  intro value content
  cases value <;> simp [asText?, IsText]

theorem reads_asWord32? : Reads asWord32? IsWord32 := by
  intro value word
  cases value <;> simp [asWord32?, IsWord32, Option.filter_eq_some_iff]

theorem Reads.asList? {read : Json → Option α} {tells : Json → α → Prop}
    (reads : Reads read tells) : Reads (asList? read) (IsList tells) := by
  intro value elements
  cases value <;> simp [Json.asList?, IsList, mapM_eq_some, reads _ _]

namespace Field

def value? : Field → Option Json
  | .given value => some value
  | _ => none

variable {read : Json → Option α} {tells : Json → α → Prop}

theorem required_eq_some (reads : Reads read tells) {field : Field} {result : α} :
    field.required read = some result ↔ IsRequired tells field.value? result := by
  cases field <;> simp [required, value?, IsRequired, reads _ _]

theorem optional_eq_some (reads : Reads read tells) {field : Field} {result : Option α} :
    field.optional read = some result ↔ IsOptional tells field.value? result := by
  constructor
  · intro read?
    unfold optional at read?
    split at read?
    · cases read?
      exact .null
    · rename_i value nonnull
      obtain ⟨content, given, rfl⟩ := Option.map_eq_some_iff.mp read?
      refine .given ?_ ((reads value content).mp given)
      rintro rfl
      exact nonnull rfl
    · rename_i missing
      cases read?
      cases field with
      | given value => exact absurd rfl (missing value)
      | leftOut => exact .missing
      | cutOff => exact .missing
  · intro told
    cases field with
    | given value =>
        cases told with
        | null => rfl
        | given nonnull told =>
            have given := (reads _ _).mpr told
            cases value <;> simp_all [optional]
    | leftOut =>
        cases told
        rfl
    | cutOff =>
        cases told
        rfl

end Field

theorem fieldOfMembers_eq_some {members : List Member} {name : String} {field : Field} :
    fieldOfMembers members name = some field ↔
      members.countP (·.1 == some name) ≤ 1 ∧ field ≠ .cutOff ∧
        field.value? = (members.find? (·.1 == some name)).map Prod.snd := by
  rw [fieldOfMembers, List.countP_eq_length_filter, ← List.head?_filter]
  generalize members.filter (·.1 == some name) = found
  match found with
  | [] => cases field <;> simp [Field.value?]
  | [(key, value)] => cases field <;> simp [Field.value?, eq_comm]
  | _ :: _ :: _ => simp

theorem values_of_members {members : List Member} {names : List String} {fields : List Field}
    (read : names.mapM (fieldOfMembers members) = some fields) :
    (∀ name ∈ names, members.countP (·.1 == some name) ≤ 1) ∧
      fields.map Field.value? =
        names.map fun name => (members.find? (·.1 == some name)).map Prod.snd := by
  have each := mapM_eq_some.mp read
  clear read
  induction each with
  | nil => simp
  | cons first _ induction =>
      obtain ⟨once, -, value⟩ := fieldOfMembers_eq_some.mp first
      rw [List.forall_mem_cons, List.map_cons, List.map_cons, value, induction.2]
      exact ⟨⟨once, induction.1⟩, rfl⟩

theorem values_of_items {items : List Json} {names : List String} (distinct : names.Nodup)
    (fits : items.length ≤ names.length) :
    (items.map Field.given ++ List.replicate (names.length - items.length) Field.cutOff).map
        Field.value? = names.map fun name => items[names.idxOf name]? := by
  apply List.ext_getElem
  · simp
    omega
  · intro place _ within
    rw [List.length_map] at within
    rw [List.getElem_map, List.getElem_map, distinct.idxOf_getElem place within]
    by_cases given : place < items.length
    · rw [List.getElem_append_left (by simpa using given), List.getElem_map,
        List.getElem?_eq_getElem given]
      rfl
    · rw [List.getElem_append_right (by simpa using given), List.getElem_replicate,
        List.getElem?_eq_none (Nat.le_of_not_lt given)]
      rfl

/-- A value whose fields are read can be a record, and each field says what the value holds under its
name. -/
theorem fields?_eq_some {value : Json} {names : List String} {fields : List Field}
    (distinct : names.Nodup) (read : value.fields? names = some fields) :
    value.IsRecord names ∧ fields.map Field.value? = names.map (value.held? names) := by
  cases value with
  | object members =>
      obtain ⟨keyed, each⟩ := fields?_object_eq_some.mp read
      obtain ⟨once, values⟩ := values_of_members each
      exact ⟨⟨keyed, once⟩, values⟩
  | array items =>
      obtain ⟨fits, rfl⟩ := fields?_array_eq_some.mp read
      exact ⟨fits, values_of_items distinct fits⟩
  | _ => cases read

theorem exists_fields? {value : Json} {names : List String} (record : value.IsRecord names) :
    ∃ fields, value.fields? names = some fields := by
  cases value with
  | object members =>
      obtain ⟨keyed, once⟩ := record
      have each : ∀ name ∈ names, ∃ field, fieldOfMembers members name = some field := by
        intro name member
        cases held : (members.find? (·.1 == some name)).map Prod.snd with
        | none => exact ⟨.leftOut, fieldOfMembers_eq_some.mpr ⟨once name member, nofun, held.symm⟩⟩
        | some value =>
            exact ⟨.given value, fieldOfMembers_eq_some.mpr ⟨once name member, nofun, held.symm⟩⟩
      obtain ⟨fields, read⟩ := exists_mapM_eq_some each
      exact ⟨fields, fields?_object_eq_some.mpr ⟨keyed, read⟩⟩
  | array items => exact ⟨_, fields?_array_eq_some.mpr ⟨record, rfl⟩⟩
  | _ => cases record

theorem not_isRecord_of_fields? {value : Json} {names : List String}
    (unread : value.fields? names = none) : ¬value.IsRecord names := by
  intro record
  obtain ⟨fields, read⟩ := exists_fields? record
  rw [unread] at read
  cases read

end DefectGraphs.Json
