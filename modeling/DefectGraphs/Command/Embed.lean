import DefectGraphs.Command.Report
import DefectGraphs.Settings.Basic
import DefectGraphs.Text.Fixed
import DefectGraphs.Token.Store

/-!
The command that trains a token model, or loads the one that is there, and looks descriptors up in
it.
-/

namespace DefectGraphs.Command

open Token

def lookupDescriptor (lookup : String) : String :=
  let (kind, text) := splitLookup lookup
  descriptor kind text

def norm (vector : Row) : Float32 :=
  (vector.dot vector).sqrt

private def places (number : Float32) : String :=
  Text.fixed 3 number.toFloat

def lookupLine (vector : Row) (descriptor : String) : Line :=
  let start := ", ".intercalate ((vector.toList.take 4).map places)
  .text s!"  {descriptor} |v|={places (norm vector)} [{start}, ...]"

def embedReport (wasThere : Bool) (path : Files.Path) (model : Model) (lookups : List String) :
    List Line :=
  let status := if wasThere then "loaded" else "trained"
  let descriptors := lookups.map lookupDescriptor
  let (vectors, _) := Cache.empty.lookupAll model.embedding descriptors
  [blankLine, .text s!"Token model ({model.backend.name})", blankLine,
    .text s!"  Path: {path}",
    .text s!"  Status: {status}",
    .text s!"  Vocabulary: {model.vocabulary.size}",
    .text s!"  Vector size: {model.vectorSize}",
    .elapsed] ++
    (if lookups.isEmpty then [] else [blankLine]) ++ List.zipWith lookupLine vectors descriptors ++
    [blankLine]

def modelContext : String := "Failed to prepare token model"

def runEmbed (settings : Settings) (source : Source) (lookups : List String) :
    Job (List Line) := do
  let path := modelPath source.cache settings.backend settings.vectorSize settings.window
  let wasThere := (← Job.tree).isPresent path
  let model ← Job.within modelContext
    (Model.loadOrTrain source settings.backend settings.training)
  return embedReport wasThere path model lookups

end DefectGraphs.Command
