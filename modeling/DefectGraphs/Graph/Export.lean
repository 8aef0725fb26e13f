import DefectGraphs.Channel.Relation
import DefectGraphs.Json.Fields
import DefectGraphs.Token.Descriptor

/-!
Exported graphs, as they stand in JSON files. Three readers take different parts of a file: all of
it, the nodes alone, or the fields that decide which stratum of a split the file belongs to.
-/

namespace DefectGraphs.Graph

open Channel

structure Node where
  kind : String
  text : String
  deriving DecidableEq, Repr

namespace Node

def descriptor (node : Node) : String :=
  Token.descriptor node.kind node.text

def ofJson? (value : Json) : Option Node := do
  match ← value.fields? ["nodeType", "value"] with
  | [kind, text] => return ⟨← kind.required Json.asText?, ← text.required Json.asText?⟩
  | _ => none

end Node

def edgeOfJson? (value : Json) : Option Edge := do
  match ← value.fields? ["from", "to"] with
  | [source, target] =>
    let source ← source.required Json.asWord32?
    let target ← target.required Json.asWord32?
    return ⟨source.toUInt32, target.toUInt32⟩
  | _ => none

/-- An exported graph. The extension of `filePath` tells the language. -/
structure Export where
  filePath : Option String
  label : String
  cwe : Option Nat
  nodes : List Node
  astEdges : Option (List Edge)
  cfgEdges : Option (List Edge)
  reachingDefEdges : Option (List Edge)
  cdgEdges : Option (List Edge)
  deriving DecidableEq, Repr

/-- The label of safe samples; any other label is that of an unsafe one. -/
def safeLabel : String := "good"

namespace Export

def isSafe (graph : Export) : Bool :=
  graph.label == safeLabel

def edges? (graph : Export) : Relation → Option (List Edge)
  | .ast => graph.astEdges
  | .cfg => graph.cfgEdges
  | .reachingDef => graph.reachingDefEdges
  | .cdg => graph.cdgEdges
  | .next => none

def ofJson? (value : Json) : Option Export := do
  match ← value.fields? ["filePath", "label", "cwe", "nodes", "astEdges", "cfgEdges",
      "reachingDefEdges", "cdgEdges"] with
  | [filePath, label, cwe, nodes, astEdges, cfgEdges, reachingDefEdges, cdgEdges] =>
    let edges (field : Json.Field) := field.optional (Json.asList? edgeOfJson?)
    return {
      filePath := ← filePath.optional Json.asText?
      label := ← label.required Json.asText?
      cwe := ← cwe.optional Json.asWord32?
      nodes := ← nodes.required (Json.asList? Node.ofJson?)
      astEdges := ← edges astEdges
      cfgEdges := ← edges cfgEdges
      reachingDefEdges := ← edges reachingDefEdges
      cdgEdges := ← edges cdgEdges }
  | _ => none

def parse? (text : String) : Option Export :=
  (Json.parse? text).bind ofJson?

end Export

def nodesOfJson? (value : Json) : Option (List Node) := do
  match ← value.fields? ["nodes"] with
  | [nodes] => nodes.required (Json.asList? Node.ofJson?)
  | _ => none

def parseNodes? (text : String) : Option (List Node) :=
  (Json.parse? text).bind nodesOfJson?

/-- The part of an export that decides its stratum in a split. -/
structure Heading where
  label : String
  cwe : Option Nat
  filePath : Option String
  deriving DecidableEq, Repr

namespace Heading

def ofJson? (value : Json) : Option Heading := do
  match ← value.fields? ["label", "cwe", "filePath"] with
  | [label, cwe, filePath] =>
    return {
      label := ← label.required Json.asText?
      cwe := ← cwe.optionalMember Json.asWord32?
      filePath := ← filePath.optionalMember Json.asText? }
  | _ => none

def parse? (text : String) : Option Heading :=
  (Json.parse? text).bind ofJson?

end Heading

end DefectGraphs.Graph
