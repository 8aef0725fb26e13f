/-!
Numerals of natural numbers: decimal ones, as they are written in manifests and on the command
line, and hexadecimal ones, as they stand in escapes.
-/

namespace DefectGraphs.Text

def digitValue (c : Char) : Option Nat :=
  if c.isDigit then some (c.toNat - '0'.toNat) else none

/-- The value of a string of decimal digits, read on top of the value of the digits before it. -/
def readDigits (value : Nat) : List Char → Option Nat
  | [] => some value
  | c :: rest => (digitValue c).bind fun digit => readDigits (10 * value + digit) rest

def hexValue? (c : Char) : Option Nat :=
  if c.isDigit then some (c.toNat - '0'.toNat)
  else if 'a' ≤ c && c ≤ 'f' then some (c.toNat - 'a'.toNat + 10)
  else if 'A' ≤ c && c ≤ 'F' then some (c.toNat - 'A'.toNat + 10)
  else none

def readHex (value : Nat) : List Char → Option Nat
  | [] => some value
  | c :: rest => (hexValue? c).bind fun digit => readHex (16 * value + digit) rest

/-- One or more ASCII digits, after an optional plus sign. -/
def numeralValue : List Char → Option Nat
  | [] => none
  | '+' :: [] => none
  | '+' :: c :: rest => readDigits 0 (c :: rest)
  | c :: rest => readDigits 0 (c :: rest)

def word64? (text : String) : Option Nat :=
  (numeralValue text.toList).filter (· < UInt64.size)

def padLeft (width : Nat) (text : String) : String :=
  "".pushn ' ' (width - text.length) ++ text

def padRight (width : Nat) (text : String) : String :=
  text.pushn ' ' (width - text.length)

end DefectGraphs.Text
