import DefectGraphs.Command.Report
import DefectGraphs.Split.Store
import DefectGraphs.Text.Numeral

/-!
The command that writes a manifest for a corpus, or shows the one that is there.
-/

namespace DefectGraphs.Command

open Split

def splitLine (manifest : Manifest) (split : Nat) : Line :=
  let counts := Fold.all.map fun fold =>
    s!"{fold.lowerName} {(manifest.filenames split fold).length}"
  .text (s!"  split {Text.padLeft 2 (toString split)}: " ++ ", ".intercalate counts)

def splitReport (wasThere : Bool) (path : Files.Path) (manifest : Manifest) : List Line :=
  let done := if wasThere then "Reused" else "Wrote"
  [blankLine, .text s!"{done} {path} ({manifest.splitCount} splits)", blankLine] ++
    (List.range manifest.splitCount).map (splitLine manifest) ++ [blankLine]

def runSplit (corpus path : Files.Path) (splits seed : Nat) : Job (List Line) := do
  let wasThere := (← Job.tree).isPresent path
  let manifest ← Job.within s!"Failed to build split manifest for {corpus}"
    (Manifest.loadOrGenerate corpus path splits seed)
  return splitReport wasThere path manifest

end DefectGraphs.Command
