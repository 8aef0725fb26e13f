import DefectGraphs.Text.Hidden

/-!
Texts in double quotes, for messages: quotes and backslashes are escaped, and characters without a
shape are shown by name or by number.
-/

namespace DefectGraphs.Text

/-- Lower-case hexadecimal digits, at least one. -/
def hexDigits (number : Nat) : List Char :=
  Nat.toDigits 16 number

def quoteChar (c : Char) : List Char :=
  if c = '\x00' then ['\\', '0']
  else if c = '\t' then ['\\', 't']
  else if c = '\r' then ['\\', 'r']
  else if c = '\n' then ['\\', 'n']
  else if c = '"' then ['\\', '"']
  else if c = '\\' then ['\\', '\\']
  else if isHidden c then ['\\', 'u', '\x7b'] ++ hexDigits c.toNat ++ ['\x7d']
  else [c]

def quote (text : String) : String :=
  String.ofList (['"'] ++ text.toList.flatMap quoteChar ++ ['"'])

end DefectGraphs.Text
