import DefectGraphs.Files.Bytes
import DefectGraphs.Token.Model

/-!
Models as bytes. Lists are preceded by their length, and a model by a mark that other files do not
start with.
-/

namespace DefectGraphs.Token

open Files

def pushChar (bytes : ByteArray) (c : Char) : ByteArray :=
  pushNumber bytes c.toNat

def readChar : Reader Char := fun bytes position => do
  let (number, position) ← readNumber bytes position
  if number.isValidChar then some (Char.ofNat number, position) else none

def pushEntry (bytes : ByteArray) (entry : String × Nat) : ByteArray :=
  pushNumber (pushCounted pushChar bytes entry.1.toList.toArray) entry.2

def readEntry : Reader (String × Nat) := fun bytes position => do
  let (chars, position) ← readCounted readChar bytes position
  let (count, position) ← readNumber bytes position
  return ((String.ofList chars.toList, count), position)

def pushComponent (bytes : ByteArray) (component : Float32) : ByteArray :=
  pushWord bytes component.toBits

def readComponent : Reader Float32 := fun bytes position =>
  match readWord bytes position with
  | none => none
  | some (word, next) => some (Float32.ofBits word, next)

def pushGrams (bytes : ByteArray) (table : GramTable) : ByteArray :=
  pushNumber (pushNumber (pushNumber bytes table.least) table.most) table.buckets

def readGrams : Reader GramTable := fun bytes position => do
  let (least, position) ← readNumber bytes position
  let (most, position) ← readNumber bytes position
  let (buckets, position) ← readNumber bytes position
  return (⟨least, most, buckets⟩, position)

namespace Model

/-- The number that stands before a model. No text has its first byte. -/
def mark : Nat := 0x6d6f6465ff

def toBytes (model : Model) : ByteArray :=
  let bytes := pushNumber (pushNumber .empty mark) model.vectorSize
  let bytes := pushCounted pushGrams bytes model.grams.toArray
  let bytes := pushCounted pushEntry bytes model.vocabulary.entries.toArray
  pushCounted (pushCounted pushComponent) bytes model.matrix

/-- Bytes that are not those of a model are refused. -/
def ofBytes? (bytes : ByteArray) : Option Model := do
  let (first, position) ← readNumber bytes 0
  if first ≠ mark then
    none
  let (vectorSize, position) ← readNumber bytes position
  let (grams, position) ← readCounted readGrams bytes position
  let (entries, position) ← readCounted readEntry bytes position
  let (matrix, position) ← readCounted (readCounted readComponent) bytes position
  if position = bytes.size then
    some ⟨.ofEntries entries.toList, vectorSize, grams[0]?, matrix⟩
  else none

end Model

end DefectGraphs.Token
