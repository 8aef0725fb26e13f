/-!
Doubles in positional notation with a fixed number of places. The exact binary value is rounded
once, and a tie goes to the even digit.
-/

namespace DefectGraphs.Text

/-- The quotient rounded to the nearest whole number, ties to even; the divisor is positive. -/
def roundDiv (number divisor : Nat) : Nat :=
  let quotient := number / divisor
  let twice := 2 * (number % divisor)
  if twice > divisor || (twice == divisor && quotient % 2 == 1) then quotient + 1 else quotient

/-- A finite double as `mantissa * 2 ^ (exponent - 1075)`. -/
private def decode (bits : Nat) : Nat × Nat :=
  let fraction := bits % (1 <<< 52)
  let field := (bits >>> 52) % (1 <<< 11)
  if field = 0 then (fraction, 1) else (fraction + (1 <<< 52), field)

/-- The digits of a value counted in units of the last place. -/
private def placed (places units : Nat) : String :=
  let scale := Nat.pow 10 places
  let whole := toString (units / scale)
  if places = 0 then whole
  else
    let rest := toString (units % scale)
    whole ++ "." ++ "".pushn '0' (places - rest.length) ++ rest

def fixed (places : Nat) (number : Float) : String :=
  let bits := number.toBits.toNat
  let sign := if bits >>> 63 = 1 then "-" else ""
  if number.isNaN then "NaN"
  else if number.isInf then sign ++ "inf"
  else
    let (mantissa, exponent) := decode bits
    let scaled := mantissa * Nat.pow 10 places
    let units :=
      if exponent ≥ 1075 then scaled <<< (exponent - 1075)
      else roundDiv scaled (1 <<< (1075 - exponent))
    sign ++ placed places units

end DefectGraphs.Text
