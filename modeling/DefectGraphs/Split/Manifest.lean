import DefectGraphs.Split.Fold
import DefectGraphs.Text.Blank
import DefectGraphs.Text.Numeral

/-!
Split manifests: which file belongs to which fold of which split, one line for each.
-/

namespace DefectGraphs.Split

structure Entry where
  split : Nat
  fold : Fold
  filename : String
  deriving DecidableEq, Repr

structure Manifest where
  entries : List Entry
  deriving DecidableEq, Repr

namespace Entry

def line (entry : Entry) : String :=
  toString entry.split ++ ":" ++ entry.fold.name ++ ":" ++ entry.filename

def cutColon : List Char → Option (List Char × List Char)
  | [] => none
  | c :: rest =>
    if c = ':' then some ([], rest)
    else (cutColon rest).map fun (before, after) => (c :: before, after)

/-- Reads a line without its blank ends. The file name is all that follows the second colon. -/
def ofLine? (line : String) : Option Entry := do
  let (split, rest) ← cutColon line.toList
  let (fold, filename) ← cutColon rest
  if filename.isEmpty then
    none
  let split ← Text.word64? (Text.trim (String.ofList split))
  let fold ← Fold.ofName? (Text.trim (String.ofList fold))
  return ⟨split, fold, String.ofList filename⟩

end Entry

namespace Manifest

/-- Reads lines, of which the first has the given number. Blank lines are skipped. -/
def parseLines (number : Nat) : List String → Except Failure (List Entry)
  | [] => .ok []
  | line :: rest =>
    let content := Text.trim line
    if content.isEmpty then parseLines (number + 1) rest
    else
      match Entry.ofLine? content with
      | none => .error (.malformedLine number content)
      | some entry => (parseLines (number + 1) rest).map (entry :: ·)

def parse (text : String) : Except Failure Manifest :=
  (parseLines 1 (Text.lines text)).map Manifest.mk

def text (manifest : Manifest) : String :=
  String.join (manifest.entries.map fun entry => entry.line ++ "\n")

/-- One more than the greatest split index, as a word of 64 bits. -/
def splitCount (manifest : Manifest) : Nat :=
  (manifest.entries.map fun entry => (entry.split + 1) % UInt64.size).foldl max 0

def filenames (manifest : Manifest) (split : Nat) (fold : Fold) : List String :=
  (manifest.entries.filter fun entry => entry.split == split && entry.fold == fold).map
    Entry.filename

end Manifest

end DefectGraphs.Split
