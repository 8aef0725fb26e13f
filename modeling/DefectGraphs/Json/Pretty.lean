import DefectGraphs.Json.Tree

/-!
JSON values as indented text: two spaces for each level, and every item and member on a line of
its own.
-/

namespace DefectGraphs.Json

def ofNat (value : Nat) : Json :=
  .number ⟨false, (toString value).toList, [], false, []⟩

def ofText (content : String) : Json :=
  .text (some content)

def ofMembers (members : List (String × Json)) : Json :=
  .object (members.map fun (key, value) => (some key, value))

namespace Number

def render (number : Number) : String :=
  let fraction := if number.fraction.isEmpty then [] else '.' :: number.fraction
  let sign := if number.exponentNegative then ['-'] else []
  let exponent := if number.exponent.isEmpty then [] else 'e' :: (sign ++ number.exponent)
  String.ofList ((if number.negative then ['-'] else []) ++ number.whole ++ fraction ++ exponent)

end Number

private def escapeChar (c : Char) : List Char :=
  if c = '"' then ['\\', '"']
  else if c = '\\' then ['\\', '\\']
  else if c = '\n' then ['\\', 'n']
  else if c = '\r' then ['\\', 'r']
  else if c = '\t' then ['\\', 't']
  else if c = '\x08' then ['\\', 'b']
  else if c = '\x0c' then ['\\', 'f']
  else if c.toNat < 0x20 then
    ['\\', 'u', '0', '0', Nat.digitChar (c.toNat / 16), Nat.digitChar (c.toNat % 16)]
  else [c]

def renderText (content : String) : String :=
  String.ofList (['"'] ++ content.toList.flatMap escapeChar ++ ['"'])

private def newLine (depth : Nat) : String :=
  "\n" ++ "".pushn ' ' (2 * depth)

mutual

/-- A value whose further lines stand `depth` levels in. -/
def pretty (depth : Nat) : Json → String
  | .null => "null"
  | .bool value => if value then "true" else "false"
  | .number value => value.render
  | .text content => renderText (content.getD "")
  | .array [] => "[]"
  | .array (item :: items) =>
    "[" ++ newLine (depth + 1) ++ item.pretty (depth + 1) ++ prettyItems (depth + 1) items ++
      newLine depth ++ "]"
  | .object [] => "\x7b\x7d"
  | .object (member :: members) =>
    "\x7b" ++ newLine (depth + 1) ++ prettyMember (depth + 1) member ++
      prettyMembers (depth + 1) members ++ newLine depth ++ "\x7d"

private def prettyItems (depth : Nat) : List Json → String
  | [] => ""
  | item :: items => "," ++ newLine depth ++ item.pretty depth ++ prettyItems depth items

private def prettyMember (depth : Nat) : Member → String
  | (key, value) => renderText (key.getD "") ++ ": " ++ value.pretty depth

private def prettyMembers (depth : Nat) : List Member → String
  | [] => ""
  | member :: members =>
    "," ++ newLine depth ++ prettyMember depth member ++ prettyMembers depth members

end

end DefectGraphs.Json
