import DefectGraphs.Label.Category
import DefectGraphs.Failure

/-!
The value that a model learns to give for a graph, in one of three shapes.
-/

namespace DefectGraphs.Label

inductive Shape where
  | classId
  | oneHot
  | binary
  deriving DecidableEq, Repr

namespace Shape

def all : List Shape := [.classId, .oneHot, .binary]

def name : Shape → String
  | .classId => "class_id"
  | .oneHot => "one_hot"
  | .binary => "binary"

end Shape

/-- A target. The components of a one-hot vector and the binary value are zero or one. -/
inductive Target where
  | classId (index : Nat)
  | oneHot (hot : List Bool)
  | binary (isUnsafe : Bool)
  deriving DecidableEq, Repr

namespace Target

def hotAt (index : Nat) : List Bool :=
  (List.range classCount).map (· == index)

/-- The class of a sample: unsafe samples need a known category. -/
def sampleClass (isSafe : Bool) (cwe : Option Nat) (path : Files.Path) : Except Failure Nat :=
  if isSafe then .ok safeClass
  else
    match cwe with
    | none => .error (.missingCategory path)
    | some cwe =>
      match classOf? cwe with
      | none => .error (.unknownCategory cwe path)
      | some index => .ok index

def encode (shape : Shape) (isSafe : Bool) (cwe : Option Nat) (path : Files.Path) :
    Except Failure Target :=
  match shape with
  | .binary => .ok (.binary !isSafe)
  | .classId => (sampleClass isSafe cwe path).map .classId
  | .oneHot => (sampleClass isSafe cwe path).map fun index => .oneHot (hotAt index)

def classId? : Target → Option Nat
  | .classId index => some index
  | .oneHot hot => hot.findIdx? (· == true)
  | .binary _ => none

private def bitText (bit : Bool) : String :=
  if bit then "1.0" else "0.0"

def toJsonText (target : Target) : String :=
  let (shape, value) :=
    match target with
    | .classId index => (Shape.classId, toString index)
    | .oneHot hot => (Shape.oneHot, "[" ++ ",".intercalate (hot.map bitText) ++ "]")
    | .binary isUnsafe => (Shape.binary, bitText isUnsafe)
  "\x7b\"kind\":\"" ++ shape.name ++ "\",\"value\":" ++ value ++ "\x7d"

end Target

end DefectGraphs.Label
