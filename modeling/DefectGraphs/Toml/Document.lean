import DefectGraphs.Toml.Number
import DefectGraphs.Toml.Text

/-!
TOML documents: values with their nesting, the statements that the lines of a document make, and the
table that they fill.
-/

namespace DefectGraphs.Toml

/-- A line of a document, as far as it says anything. -/
inductive Statement where
  | assignment (key : List String) (value : Toml)
  | header (path : List String)
  | elementHeader (path : List String)

section Values

mutual

/-- Reads a value; at most `depth` arrays and tables may be open at once. `fuel` is more than the
number of characters. -/
private def scanValue (depth : Nat) : Nat → List Char → Option (Toml × List Char)
  | 0, _ => none
  | fuel + 1, chars =>
    match chars with
    | 't' :: 'r' :: 'u' :: 'e' :: rest => some (.bool true, rest)
    | 'f' :: 'a' :: 'l' :: 's' :: 'e' :: rest => some (.bool false, rest)
    | '[' :: rest => if depth = 0 then none else scanItems (depth - 1) [] fuel rest
    | '\x7b' :: rest =>
      if depth = 0 then none
      else
        match skipSpace rest with
        | '\x7d' :: rest => some (.table .inline [], rest)
        | rest => scanMembers (depth - 1) [] fuel rest
    | chars =>
      match scanText chars with
      | some (content, rest) => some (.text content, rest)
      | none => scanNumber chars

/-- Reads the items of an array after those `before`, which are reversed. -/
private def scanItems (depth : Nat) (before : List Toml) :
    Nat → List Char → Option (Toml × List Char)
  | 0, _ => none
  | fuel + 1, chars =>
    match skipLines fuel chars with
    | ']' :: rest => some (.array before.reverse, rest)
    | chars =>
      match scanValue depth fuel chars with
      | none => none
      | some (item, rest) =>
        match skipLines fuel rest with
        | ',' :: rest => scanItems depth (item :: before) fuel rest
        | ']' :: rest => some (.array (item :: before).reverse, rest)
        | _ => none

private def scanMembers (depth : Nat) (entries : Entries) :
    Nat → List Char → Option (Toml × List Char)
  | 0, _ => none
  | fuel + 1, chars =>
    match scanKey chars with
    | some (key, '=' :: rest) =>
      match scanValue depth fuel (skipSpace rest) with
      | none => none
      | some (value, rest) =>
        match assign value entries key with
        | none => none
        | some entries =>
          match skipSpace rest with
          | ',' :: rest => scanMembers depth entries fuel rest
          | '\x7d' :: rest => some (.table .inline entries, rest)
          | _ => none
    | _ => none

end

end Values

section Statements

private def scanHeader (closing : List Char) (chars : List Char) :
    Option (List String × List Char) := do
  let (path, rest) ← scanKey chars
  if closing.isPrefixOf rest then some (path, rest.drop closing.length) else none

private def scanStatement (chars : List Char) : Option (Statement × List Char) :=
  match chars with
  | '[' :: '[' :: rest =>
    (scanHeader [']', ']'] rest).map fun (path, rest) => (.elementHeader path, rest)
  | '[' :: rest => (scanHeader [']'] rest).map fun (path, rest) => (.header path, rest)
  | chars =>
    match scanKey chars with
    | some (key, '=' :: rest) =>
      (scanValue depthLimit (rest.length + 1) (skipSpace rest)).map fun (value, rest) =>
        (.assignment key value, rest)
    | _ => none

/-- Reads statements, one to a line; every line takes at least one character. -/
private def scanStatements (before : List Statement) : Nat → List Char → Option (List Statement)
  | 0, _ => none
  | fuel + 1, chars =>
    match skipSpace chars with
    | [] => some before.reverse
    | chars =>
      match afterLine? chars with
      | some rest => scanStatements before fuel rest
      | none => do
        let (statement, rest) ← scanStatement chars
        scanStatements (statement :: before) fuel (← afterLine? rest)

def statements? (text : String) : Option (List Statement) :=
  let chars := text.toList
  let chars := if chars.head? = some '\ufeff' then chars.drop 1 else chars
  scanStatements [] (chars.length + 1) chars

end Statements

/-- A table that is being filled, and the path of the header that the next keys belong to. -/
structure Draft where
  entries : Entries
  path : List String

namespace Draft

def add (draft : Draft) : Statement → Option Draft
  | .assignment key value => do
    let entries ← within (assign value · key) draft.entries draft.path
    return { draft with entries }
  | .header path => do
    let entries ← within (openTable (path.getLast?.getD "")) draft.entries path.dropLast
    return ⟨entries, path⟩
  | .elementHeader path => do
    let entries ← within (openElement (path.getLast?.getD "")) draft.entries path.dropLast
    return ⟨entries, path⟩

end Draft

def parse? (text : String) : Option Entries := do
  let draft ← (← statements? text).foldlM Draft.add ⟨[], []⟩
  return draft.entries

end DefectGraphs.Toml
