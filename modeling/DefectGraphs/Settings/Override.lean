import DefectGraphs.Json.Fields
import DefectGraphs.Settings.Basic

/-!
Settings changed by a JSON object. Of a key that is given more than once the last value counts; keys
that name no setting are found before values of the wrong kind.
-/

namespace DefectGraphs

namespace Json

/-- The members of an object, each key once, with its last value. -/
def lastMembers (members : List Member) : List Member :=
  members.foldr (fun member kept => if kept.any (·.1 == member.1) then kept else member :: kept) []

/-- A choice can be written as its name, or as an object with its name over null. -/
def toAtom : Json → Settings.Atom
  | .bool value => .flag value
  | .number value => (value.natural?.map .count).getD .other
  | .text (some content) => .name content
  | .object members =>
    match lastMembers members with
    | [(some name, .null)] => .name name
    | _ => .other
  | _ => .other

def toValue : Json → Settings.Value
  | .array items => .list (items.map toAtom)
  | value => .atom value.toAtom

end Json

namespace Settings

/-- The assignments that an object makes, keys in order. -/
def assignments (members : List Json.Member) : Except SettingsError (List (Key × Value)) :=
  let named := (Json.lastMembers members).map fun (key, value) => (key.getD "", value)
  (named.mergeSort fun left right => left.1 ≤ right.1).mapM fun (name, value) =>
    match Key.ofName? name with
    | some key => .ok (key, value.toValue)
    | none => .error (.unknownParameter name)

def withMembers (settings : Settings) (members : List Json.Member) :
    Except SettingsError Settings := do
  match settings.assignAll (← assignments members) with
  | some settings => return settings
  | none => throw .overrideValues

def withOverrides (settings : Settings) (text : String) : Except Failure Settings :=
  match Json.parseStrict? text with
  | none => .error (.settings .overrideSyntax)
  | some (.object members) => (settings.withMembers members).mapError .settings
  | some _ => .error (.settings .overrideNotObject)

end Settings

end DefectGraphs
