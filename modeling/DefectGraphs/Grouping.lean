/-!
Lists divided into groups by a key, in the order in which the keys first appear.
-/

namespace DefectGraphs

/-- Each key of a list with its elements, both in the order of the list. -/
def groupBy [BEq κ] (key : α → κ) (elements : List α) : List (κ × List α) :=
  (elements.map key).eraseDups.map fun value =>
    (value, elements.filter fun element => key element == value)

end DefectGraphs
