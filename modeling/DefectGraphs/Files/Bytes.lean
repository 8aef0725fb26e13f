/-!
Numbers as bytes. A natural number is written in base 128, its low digits first, and every digit
but the last carries a mark; a word of 32 bits takes four bytes, the low one first.
-/

namespace DefectGraphs.Files

/-- Reads a value that starts at a position, and gives the position after it. -/
abbrev Reader (α : Type) := ByteArray → Nat → Option (α × Nat)

def pushNumber (bytes : ByteArray) (number : Nat) : ByteArray :=
  if number < 128 then bytes.push number.toUInt8
  else pushNumber (bytes.push (number % 128 + 128).toUInt8) (number / 128)
  termination_by number

/-- Reads on when `value` is what the digits so far tell and the next digit counts `scale`. -/
def readDigits (value scale : Nat) (bytes : ByteArray) (position : Nat) :
    Option (Nat × Nat) :=
  if h : position < bytes.size then
    let digit := bytes[position].toNat
    if digit < 128 then some (value + digit * scale, position + 1)
    else readDigits (value + (digit - 128) * scale) (128 * scale) bytes (position + 1)
  else none
  termination_by bytes.size - position

def readNumber : Reader Nat :=
  readDigits 0 1

def pushWord (bytes : ByteArray) (word : UInt32) : ByteArray :=
  (((bytes.push word.toUInt8).push (word >>> 8).toUInt8).push (word >>> 16).toUInt8).push
    (word >>> 24).toUInt8

def readWord : Reader UInt32 := fun bytes position =>
  if h : position + 3 < bytes.size then
    some (bytes[position].toUInt32 ||| (bytes[position + 1].toUInt32 <<< 8) |||
      (bytes[position + 2].toUInt32 <<< 16) ||| (bytes[position + 3].toUInt32 <<< 24), position + 4)
  else none

section Counted

def pushCounted (push : ByteArray → α → ByteArray) (bytes : ByteArray) (elements : Array α) :
    ByteArray :=
  elements.foldl push (pushNumber bytes elements.size)

def readTimes (read : Reader α) (before : Array α) : Nat → Reader (Array α)
  | 0, _, position => some (before, position)
  | count + 1, bytes, position =>
    match read bytes position with
    | none => none
    | some (element, next) => readTimes read (before.push element) count bytes next

def readCounted (read : Reader α) : Reader (Array α) := fun bytes position =>
  match readNumber bytes position with
  | none => none
  | some (count, next) => readTimes read #[] count bytes next

end Counted

end DefectGraphs.Files
