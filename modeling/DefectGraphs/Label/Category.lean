/-!
The defect categories that a model tells apart, by their number in the Common Weakness Enumeration.
A category's class is its place in the list; safe graphs have the class after the last one.
-/

namespace DefectGraphs.Label

/-- The known categories in class order. -/
def categories : List Nat :=
  [15, 194, 195, 319, 476, 563, 643, 80, 98, 415, 126, 690, 457, 606, 127, 124, 401, 91, 590, 601,
    90, 36, 23, 113, 789, 121, 762, 400, 122, 134, 78, 369, 197, 129, 191, 190, 89, 79]

def safeClass : Nat := categories.length

def classCount : Nat := categories.length + 1

def classOf? (cwe : Nat) : Option Nat :=
  categories.idxOf? cwe

theorem categories_nodup : categories.Nodup := by decide

end DefectGraphs.Label
