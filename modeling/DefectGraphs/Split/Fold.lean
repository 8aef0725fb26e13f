import DefectGraphs.Failure

/-!
The three folds of a split.
-/

namespace DefectGraphs.Split

inductive Fold where
  | train
  | validation
  | test
  deriving DecidableEq, Repr

namespace Fold

def all : List Fold := [.train, .validation, .test]

def name : Fold → String
  | .train => "TRAIN"
  | .validation => "VALIDATION"
  | .test => "TEST"

def lowerName : Fold → String
  | .train => "train"
  | .validation => "validation"
  | .test => "test"

/-- Reads a fold's name in any mixture of cases, or the short name of validation. No letter beyond
ASCII has one of the letters of these names as its lower case, so the ASCII letters are enough. -/
def ofName? (name : String) : Option Fold :=
  let lower := String.ofList (name.toList.map Char.toLower)
  if lower = "valid" then some .validation else all.find? fun fold => fold.lowerName == lower

def parse (name : String) : Except Failure Fold :=
  match ofName? name with
  | some fold => .ok fold
  | none => .error (.unknownFold name)

end Fold

end DefectGraphs.Split
