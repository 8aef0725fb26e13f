import DefectGraphs.Text.Numeral

/-!
JSON texts as tokens. A number keeps its digits, so that each reader can decide which numbers it
takes, and a string whose escapes leave a surrogate without its partner is kept as having no text.
-/

namespace DefectGraphs.Json

/-- A number as it is written; no fraction and no exponent are empty lists of digits. -/
structure Number where
  negative : Bool
  whole : List Char
  fraction : List Char
  exponentNegative : Bool
  exponent : List Char
  deriving DecidableEq, Repr

namespace Number

def natural? (number : Number) : Option Nat :=
  if number.negative || !number.fraction.isEmpty || !number.exponent.isEmpty then none
  else Text.readDigits 0 number.whole

/-- The leading digits whose value fits 64 bits: their value, their number, and the digits left. -/
private def significand (value count : Nat) : List Char → Nat × Nat × List Char
  | [] => (value, count, [])
  | c :: rest =>
    let next := 10 * value + (Text.digitValue c).getD 0
    if next < UInt64.size then significand next (count + 1) rest else (value, count, c :: rest)

/-- Whether a number is too large for a double. The digits that fit 64 bits are scaled by a power of
ten, both as doubles; a plain integer that fits 64 bits is not read as a double at all. -/
def overflows (number : Number) : Bool :=
  let (value, count, left) := significand 0 0 (number.whole ++ number.fraction)
  let shift : Int := (Text.readDigits 0 number.exponent).getD 0
  let dropped : Int := number.whole.length - count
  if number.fraction.isEmpty && number.exponent.isEmpty && left.isEmpty then false
  else
    let power := dropped + (if number.exponentNegative then -shift else shift)
    if value = 0 || power < 0 then false
    else if power > 308 then true
    else (value.toUInt64.toFloat * Float.ofScientific 1 false power.toNat).isInf

end Number

inductive Token where
  | openArray
  | closeArray
  | openObject
  | closeObject
  | comma
  | colon
  | null
  | bool (value : Bool)
  | number (value : Number)
  | text (content : Option String)
  deriving DecidableEq, Repr

namespace Token

/-- A character of a string literal: one that stands for itself, or half of an escaped pair. -/
private inductive Unit16 where
  | whole (c : Char)
  | half (code : Nat)

private def isLeading (code : Nat) : Bool :=
  0xD800 ≤ code && code < 0xDC00

private def isTrailing (code : Nat) : Bool :=
  0xDC00 ≤ code && code < 0xE000

private def ofCode (code : Nat) : Unit16 :=
  if isLeading code || isTrailing code then .half code else .whole (Char.ofNat code)

/-- Joins each leading half with the trailing half after it; a half left alone has no text. -/
private def joinHalves (joined : List Char) : List Unit16 → Option (List Char)
  | [] => some joined.reverse
  | .whole c :: rest => joinHalves (c :: joined) rest
  | .half leading :: .half trailing :: rest =>
    if isLeading leading && isTrailing trailing then
      joinHalves (Char.ofNat (0x10000 + (leading - 0xD800) * 0x400 + (trailing - 0xDC00)) :: joined)
        rest
    else none
  | .half _ :: _ => none

private def escaped? : Char → Option Char
  | '"' => some '"'
  | '\\' => some '\\'
  | '/' => some '/'
  | 'b' => some '\x08'
  | 'f' => some '\x0c'
  | 'n' => some '\n'
  | 'r' => some '\r'
  | 't' => some '\t'
  | _ => none

private def scanText (before : List Unit16) : List Char → Option (Token × List Char)
  | [] => none
  | '"' :: rest => some (.text ((joinHalves [] before.reverse).map String.ofList), rest)
  | '\\' :: 'u' :: a :: b :: c :: d :: rest =>
    (Text.readHex 0 [a, b, c, d]).bind fun code => scanText (ofCode code :: before) rest
  | '\\' :: c :: rest => (escaped? c).bind fun plain => scanText (.whole plain :: before) rest
  | c :: rest => if c.toNat < 0x20 then none else scanText (.whole c :: before) rest

private def takeDigits (chars : List Char) : List Char × List Char :=
  chars.span Char.isDigit

private def scanExponent : List Char → Option (Bool × List Char × List Char)
  | 'e' :: rest | 'E' :: rest =>
    let (negative, rest) :=
      match rest with
      | '-' :: rest => (true, rest)
      | '+' :: rest => (false, rest)
      | rest => (false, rest)
    let (digits, rest) := takeDigits rest
    if digits.isEmpty then none else some (negative, digits, rest)
  | chars => some (false, [], chars)

private def scanFraction : List Char → Option (List Char × List Char)
  | '.' :: rest =>
    let (digits, rest) := takeDigits rest
    if digits.isEmpty then none else some (digits, rest)
  | chars => some ([], chars)

/-- Digits without a leading zero, unless zero is all. -/
private def scanWhole : List Char → Option (List Char × List Char)
  | '0' :: rest => some (['0'], rest)
  | chars =>
    let (digits, rest) := takeDigits chars
    if digits.isEmpty then none else some (digits, rest)

private def scanNumber (chars : List Char) : Option (Token × List Char) := do
  let (negative, chars) :=
    match chars with
    | '-' :: rest => (true, rest)
    | chars => (false, chars)
  let (whole, chars) ← scanWhole chars
  let (fraction, chars) ← scanFraction chars
  let (exponentNegative, exponent, chars) ← scanExponent chars
  return (.number ⟨negative, whole, fraction, exponentNegative, exponent⟩, chars)

def isSpace (c : Char) : Bool :=
  c = ' ' || c = '\t' || c = '\n' || c = '\r'

private def scanOne : List Char → Option (Token × List Char)
  | '[' :: rest => some (.openArray, rest)
  | ']' :: rest => some (.closeArray, rest)
  | '\x7b' :: rest => some (.openObject, rest)
  | '\x7d' :: rest => some (.closeObject, rest)
  | ',' :: rest => some (.comma, rest)
  | ':' :: rest => some (.colon, rest)
  | 'n' :: 'u' :: 'l' :: 'l' :: rest => some (.null, rest)
  | 't' :: 'r' :: 'u' :: 'e' :: rest => some (.bool true, rest)
  | 'f' :: 'a' :: 'l' :: 's' :: 'e' :: rest => some (.bool false, rest)
  | '"' :: rest => scanText [] rest
  | chars => scanNumber chars

/-- Every token takes at least one character, so the length of the text is enough fuel. -/
private def scanAll (before : List Token) : Nat → List Char → Option (List Token)
  | fuel, chars =>
    match fuel, chars.dropWhile isSpace with
    | _, [] => some before.reverse
    | 0, _ => none
    | fuel + 1, chars =>
      (scanOne chars).bind fun (token, rest) => scanAll (token :: before) fuel rest

def scan (text : String) : Option (List Token) :=
  let chars := text.toList
  scanAll [] chars.length chars

/-- The greatest number of arrays and objects that are open at once. -/
def nesting (tokens : List Token) : Nat :=
  (tokens.foldl
    (fun (current, greatest) token =>
      match token with
      | .openArray | .openObject => (current + 1, max greatest (current + 1))
      | .closeArray | .closeObject => (current - 1, greatest)
      | _ => (current, greatest))
    (0, 0)).2

end Token

end DefectGraphs.Json
