import DefectGraphs.Json.Tree

/-!
Records read from JSON values. A record is an object with the record's fields as members, or an
array of the fields' values in declaration order.
-/

namespace DefectGraphs.Json

/-- What a value says about a field. An object can leave a member out, an array can end early. -/
inductive Field where
  | given (value : Json)
  | leftOut
  | cutOff

def fieldOfMembers (members : List Member) (name : String) : Option Field :=
  match members.filter (·.1 == some name) with
  | [] => some .leftOut
  | [(_, value)] => some (.given value)
  | _ => none

private def fieldsOfItems : List Json → List String → Option (List Field)
  | [], names => some (names.map fun _ => .cutOff)
  | _ :: _, [] => none
  | item :: items, _ :: names => (fieldsOfItems items names).map (.given item :: ·)

/-- The fields of a record by name. A key without a text, a repeated field or an item too many is
refused; members with other keys are skipped. -/
def fields? (names : List String) : Json → Option (List Field)
  | .object members =>
    if members.any (·.1.isNone) then none else names.mapM (fieldOfMembers members)
  | .array items => fieldsOfItems items names
  | _ => none

/-- What an object says about a field does not hang on the other fields that are asked for. -/
theorem fields?_object_eq_some {members : List Member} {names : List String}
    {fields : List Field} :
    (object members).fields? names = some fields ↔
      members.any (·.1.isNone) = false ∧ names.mapM (fieldOfMembers members) = some fields := by
  rw [fields?]
  cases members.any (·.1.isNone) <;> simp

/-- The items of an array are the first fields, and those after them are cut off. -/
theorem fields?_array_eq_some {items : List Json} {names : List String} {fields : List Field} :
    (array items).fields? names = some fields ↔
      items.length ≤ names.length ∧
        fields = items.map .given ++ List.replicate (names.length - items.length) .cutOff := by
  rw [fields?]
  induction items generalizing names fields with
  | nil => simp [fieldsOfItems, List.map_const', eq_comm]
  | cons item items induction =>
      cases names with
      | nil => simp [fieldsOfItems]
      | cons name names =>
          simp only [fieldsOfItems, Option.map_eq_some_iff, induction, List.length_cons,
            Nat.add_le_add_iff_right, Nat.add_sub_add_right, List.map_cons, List.cons_append]
          constructor
          · rintro ⟨others, ⟨fits, rfl⟩, rfl⟩
            exact ⟨fits, rfl⟩
          · rintro ⟨fits, rfl⟩
            exact ⟨_, ⟨fits, rfl⟩, rfl⟩

theorem fieldOfMembers_ne_cutOff (members : List Member) (name : String) :
    fieldOfMembers members name ≠ some .cutOff := by
  unfold fieldOfMembers
  split <;> simp

namespace Field

def required (read : Json → Option α) : Field → Option α
  | .given value => read value
  | _ => none

/-- A value, or nothing where there is none or null. -/
def optional (read : Json → Option α) : Field → Option (Option α)
  | .given .null => some none
  | .given value => (read value).map some
  | _ => some none

/-- As `optional`, but an array may not end before the field. -/
def optionalMember (read : Json → Option α) : Field → Option (Option α)
  | .cutOff => none
  | field => field.optional read

theorem optionalMember_of_object {members : List Member} {name : String} {field : Field}
    (found : fieldOfMembers members name = some field) (read : Json → Option α) :
    field.optionalMember read = field.optional read := by
  cases field with
  | given value => rfl
  | leftOut => rfl
  | cutOff => exact absurd found (fieldOfMembers_ne_cutOff members name)

end Field

def asText? : Json → Option String
  | .text content => content
  | _ => none

def asWord32? : Json → Option Nat
  | .number value => value.natural?.filter (· < UInt32.size)
  | _ => none

def asList? (read : Json → Option α) : Json → Option (List α)
  | .array items => items.mapM read
  | _ => none

end DefectGraphs.Json
