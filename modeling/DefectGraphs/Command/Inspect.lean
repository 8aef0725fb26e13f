import DefectGraphs.Command.Embed
import DefectGraphs.Graph.Loading

/-!
The command that loads one graph file and shows its channels.
-/

namespace DefectGraphs.Command

open DefectGraphs.Graph Label

def channelLine (role : Channel.Role) (edges : List Channel.Edge) (channel : Nat) : Line :=
  let number := Text.padLeft 2 (toString channel)
  let shown := Text.padRight 16 role.name
  .text s!"  channel {number} {shown} {Text.padLeft 6 (toString edges.length)} edges"

def channelLines (layout : Channel.Layout) (channels : List (List Channel.Edge)) : List Line :=
  channels.zipIdx.map fun (edges, channel) => channelLine (layout.role channel) edges channel

def inspectReport (layout : Channel.Layout) (file : Files.Path) (record : Record Target) :
    List Line :=
  let cwe := (record.cwe.map toString).getD "none"
  let side := if record.isSafe then "safe" else "unsafe"
  [blankLine, .text file, blankLine,
    .text s!"  Nodes: {record.nodeCount}",
    .text s!"  Edges: {record.edgeCount}"] ++
    (record.language.map fun language => Line.text s!"  Language: {language.name}").toList ++
    [.text s!"  CWE: {cwe}",
      .text s!"  Label: {side}",
      .text s!"  Target: {record.label.toJsonText}",
      blankLine] ++
    channelLines layout record.channels ++
    [blankLine]

def directoryOf (file : Files.Path) : Files.Path :=
  let parent := Files.Path.parent file
  if parent.isEmpty then "." else parent

def runInspect (settings : Settings) (file : Files.Path) (vocabulary : Option Files.Path)
    (cache : Files.Path) : Job (List Line) := do
  let directory := directoryOf file
  match Files.Path.fileName file with
  | none => Job.complain [s!"Not a graph file: {file}"]
  | some filename =>
    let source : Token.Source := ⟨directory, vocabulary.getD directory, cache⟩
    let model ← Job.within modelContext
      (Token.Model.loadOrTrain source settings.backend settings.training)
    let loader : Loader := ⟨settings, model.embedding⟩
    let (loaded, _) := loader.loadFile (← Job.tree) directory .empty filename
    let record ← Job.within s!"Failed to load {file}" (Work.ofExcept loaded)
    return inspectReport settings.layout file record

end DefectGraphs.Command
