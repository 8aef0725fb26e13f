import DefectGraphs.Files.Tree
import DefectGraphs.Settings.Override
import DefectGraphs.Toml.Document

/-!
Settings from a file: a TOML document whose keys name settings. Other keys are ignored.
-/

namespace DefectGraphs

namespace Toml

private def isEmpty : Toml → Bool
  | .array items => items.isEmpty
  | .table _ entries => entries.isEmpty
  | .tables elements => elements.isEmpty
  | _ => false

/-- A choice can be written as its name, or as a table with its name over nothing. -/
def toAtom : Toml → Settings.Atom
  | .bool value => .flag value
  | .integer value => if value < 0 then .other else .count value.toNat
  | .text content => .name content
  | .table _ [(name, value)] => if value.isEmpty then .name name else .other
  | _ => .other

def toValue : Toml → Settings.Value
  | .array items => .list (items.map toAtom)
  | .tables elements => .list (elements.map fun entries => (Toml.table .header entries).toAtom)
  | value => .atom value.toAtom

end Toml

namespace Settings

def fileName : Files.Path := "glice.toml"

def ofToml? (entries : Toml.Entries) : Option Settings :=
  default.assignAll (entries.filterMap fun (name, value) =>
    (Key.ofName? name).map fun key => (key, value.toValue))

def ofFile (tree : Files.Tree) (path : Files.Path) : Except Failure Settings :=
  match tree.readText path with
  | .error fault => .error (.io path fault)
  | .ok content =>
    match (Toml.parse? content).bind ofToml? with
    | none => .error (.settings (.fileValues path))
    | some settings => .ok settings

/-- Settings from a file, if it is there, with overrides on top; they must be valid. -/
def load (tree : Files.Tree) (path : Option Files.Path) (overrides : Option String) :
    Except Failure Settings := do
  let settings ←
    match path.filter (tree.isPresent ·) with
    | none => pure default
    | some path => ofFile tree path
  let settings ←
    match overrides with
    | none => pure settings
    | some text => settings.withOverrides text
  settings.validate
  return settings

end Settings

end DefectGraphs
