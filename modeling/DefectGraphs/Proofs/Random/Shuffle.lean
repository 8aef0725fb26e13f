import DefectGraphs.Random.Shuffle
import Mathlib.Data.List.Perm.Basic

/-!
A shuffle reorders: whatever is drawn, no element is lost and none comes twice.
-/

namespace DefectGraphs.Random

open scoped List

theorem place_perm (placed : Array α) (element : α) (position : Nat) :
    (place placed element position).toList.Perm (placed.toList ++ [element]) := by
  unfold place
  split
  · rename_i within
    rw [Array.toList_push, Array.toList_set]
    have exchanged := List.set_perm_cons_eraseIdx (l := placed.toList) within element
    calc placed.toList.set position element ++ [placed[position]]
        ~ (element :: placed.toList.eraseIdx position) ++ [placed[position]] :=
          exchanged.append_right _
      _ ~ placed[position] :: element :: placed.toList.eraseIdx position :=
          List.perm_append_singleton _ _
      _ ~ element :: placed[position] :: placed.toList.eraseIdx position := .swap ..
      _ ~ element :: placed.toList := (List.getElem_cons_eraseIdx_perm within).cons _
      _ ~ placed.toList ++ [element] := (List.perm_append_singleton _ _).symm
  · simp

theorem placeAll_perm (chooser : Chooser) (placed : Array α) (elements : List α) :
    (placeAll chooser placed elements).1.toList.Perm (placed.toList ++ elements) := by
  induction elements generalizing chooser placed with
  | nil => simp [placeAll]
  | cons element rest induction =>
      rw [placeAll]
      apply (induction _ _).trans
      rw [List.append_cons]
      exact (place_perm ..).append_right rest

theorem shuffle_perm (stream : Stream) (elements : List α) :
    (shuffle stream elements).1.Perm elements := by
  exact placeAll_perm (.start stream) #[] elements

end DefectGraphs.Random
