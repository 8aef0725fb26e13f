import DefectGraphs.Text.Numeral
import DefectGraphs.Toml.Basic

/-!
The numbers, dates and times of TOML.
-/

namespace DefectGraphs.Toml

section Numbers

/-- Further digits; an underscore may stand between two digits. -/
private def moreDigits (isDigit : Char → Bool) : List Char → List Char × List Char
  | '_' :: c :: rest =>
    if isDigit c then
      let (digits, rest) := moreDigits isDigit rest
      (c :: digits, rest)
    else ([], '_' :: c :: rest)
  | c :: rest =>
    if isDigit c then
      let (digits, rest) := moreDigits isDigit rest
      (c :: digits, rest)
    else ([], c :: rest)
  | [] => ([], [])

private def scanDigits (isDigit : Char → Bool) : List Char → Option (List Char × List Char)
  | c :: rest =>
    if isDigit c then
      let (digits, rest) := moreDigits isDigit rest
      some (c :: digits, rest)
    else none
  | [] => none

/-- Digits without a leading zero, unless zero is all. -/
private def scanWhole : List Char → Option (List Char × List Char)
  | '0' :: rest => some (['0'], rest)
  | chars => scanDigits Char.isDigit chars

private def scanSign : List Char → Bool × List Char
  | '-' :: rest => (true, rest)
  | '+' :: rest => (false, rest)
  | chars => (false, chars)

private def valueIn (base : Nat) (digits : List Char) : Nat :=
  digits.foldl (fun value c => base * value + (Text.hexValue? c).getD 0) 0

private def ofInteger? (value : Int) : Option Toml :=
  if Int64.minValue.toInt ≤ value && value ≤ Int64.maxValue.toInt then some (.integer value)
  else none

private def scanBased (base : Nat) (isDigit : Char → Bool) (chars : List Char) :
    Option (Toml × List Char) := do
  let (digits, rest) ← scanDigits isDigit chars
  return (← ofInteger? (valueIn base digits), rest)

private def scanInteger : List Char → Option (Toml × List Char)
  | '0' :: 'x' :: rest => scanBased 16 (fun c => (Text.hexValue? c).isSome) rest
  | '0' :: 'o' :: rest => scanBased 8 (fun c => '0' ≤ c && c ≤ '7') rest
  | '0' :: 'b' :: rest => scanBased 2 (fun c => c = '0' || c = '1') rest
  | chars => do
    let (isNegative, rest) := scanSign chars
    let (digits, rest) ← scanWhole rest
    let value : Int := valueIn 10 digits
    return (← ofInteger? (if isNegative then -value else value), rest)

/-- Whether `significand * 10 ^ power` rounds to an infinite double. -/
private def overflows (significand : Nat) (power : Int) : Bool :=
  let size : Int := (toString significand).length + power
  if significand = 0 || size < 300 then false
  else if size > 320 then true
  else (Float.ofScientific significand (power < 0) power.natAbs).isInf

private def scanFraction : List Char → Option (List Char × List Char)
  | '.' :: rest => scanDigits Char.isDigit rest
  | _ => none

private def scanExponent : List Char → Option (Int × List Char)
  | 'e' :: rest | 'E' :: rest => do
    let (isNegative, rest) := scanSign rest
    let (digits, rest) ← scanDigits Char.isDigit rest
    let value : Int := valueIn 10 digits
    return (if isNegative then -value else value, rest)
  | _ => none

/-- A number with a fraction or an exponent. One that is too large is refused, but not one that is
too small. -/
private def scanFloat (chars : List Char) : Option (Toml × List Char) := do
  let (isNegative, rest) := scanSign chars
  let (whole, rest) ← scanWhole rest
  let fraction := scanFraction rest
  let (places, rest) := fraction.getD ([], rest)
  let exponent := scanExponent rest
  let (power, rest) := exponent.getD (0, rest)
  if fraction.isNone && exponent.isNone then
    none
  if !isNegative && overflows (valueIn 10 (whole ++ places)) (power - places.length) then
    none
  return (.other, rest)

private def scanSpecial (chars : List Char) : Option (Toml × List Char) :=
  match (scanSign chars).2 with
  | 'i' :: 'n' :: 'f' :: rest => some (.other, rest)
  | 'n' :: 'a' :: 'n' :: rest => some (.other, rest)
  | _ => none

end Numbers

section Dates

private def scanPair (least most : Nat) : List Char → Option (Nat × List Char)
  | a :: b :: rest => do
    let value ← Text.readDigits 0 [a, b]
    if least ≤ value && value ≤ most then some (value, rest) else none
  | _ => none

private def scanMark (mark : Char) : List Char → Option (List Char)
  | c :: rest => if c = mark then some rest else none
  | [] => none

def isLeapYear (year : Nat) : Bool :=
  year % 4 = 0 && (year % 100 ≠ 0 || year % 400 = 0)

def daysInMonth (year month : Nat) : Nat :=
  if month = 2 then (if isLeapYear year then 29 else 28)
  else if month ∈ [4, 6, 9, 11] then 30
  else 31

private def scanDate (chars : List Char) : Option (List Char) := do
  let year ← if (chars.take 4).length = 4 then Text.readDigits 0 (chars.take 4) else none
  let rest ← scanMark '-' (chars.drop 4)
  let (month, rest) ← scanPair 1 12 rest
  let rest ← scanMark '-' rest
  let (_, rest) ← scanPair 1 (daysInMonth year month) rest
  return rest

/-- A time of day; a second may be a leap second. -/
private def scanTime (chars : List Char) : Option (List Char) := do
  let (_, rest) ← scanPair 0 23 chars
  let rest ← scanMark ':' rest
  let (_, rest) ← scanPair 0 59 rest
  let rest ← scanMark ':' rest
  let (_, rest) ← scanPair 0 60 rest
  match rest with
  | '.' :: c :: more => return if c.isDigit then more.dropWhile Char.isDigit else rest
  | _ => return rest

private def scanOffset : List Char → Option (List Char)
  | 'Z' :: rest | 'z' :: rest => some rest
  | '+' :: rest | '-' :: rest => do
    let (_, rest) ← scanPair 0 23 rest
    let rest ← scanMark ':' rest
    let (_, rest) ← scanPair 0 59 rest
    return rest
  | _ => none

/-- A time after a date, with or without an offset. -/
private def scanTimePart : List Char → Option (List Char)
  | 'T' :: rest | 't' :: rest | ' ' :: rest => do
    let rest ← scanTime rest
    return (scanOffset rest).getD rest
  | _ => none

private def scanDateTime (chars : List Char) : Option (Toml × List Char) :=
  match scanDate chars with
  | some rest => some (.other, (scanTimePart rest).getD rest)
  | none => (scanTime chars).map fun rest => (.other, rest)

end Dates

def scanNumber (chars : List Char) : Option (Toml × List Char) :=
  (scanDateTime chars).or ((scanFloat chars).or ((scanSpecial chars).or (scanInteger chars)))

end DefectGraphs.Toml
