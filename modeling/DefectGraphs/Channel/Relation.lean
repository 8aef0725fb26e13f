/-!
The relations between the nodes of a graph, and the edges that make them up.
-/

namespace DefectGraphs.Channel

/-- A directed edge between nodes, by their index in the graph. Indices are words of 32 bits. -/
structure Edge where
  source : UInt32
  target : UInt32
  deriving DecidableEq, Repr

namespace Edge

def flip (edge : Edge) : Edge :=
  ⟨edge.target, edge.source⟩

def shift (edge : Edge) (offset : UInt32) : Edge :=
  ⟨edge.source + offset, edge.target + offset⟩

@[simp] theorem flip_flip (edge : Edge) : edge.flip.flip = edge := rfl

end Edge

/-- The forward relations in channel order. Every one but the last is declared in the export. -/
inductive Relation where
  | ast
  | cfg
  | reachingDef
  | cdg
  | next
  deriving DecidableEq, Repr

namespace Relation

def all : List Relation := [.ast, .cfg, .reachingDef, .cdg, .next]

def key? : Relation → Option String
  | .ast => some "astEdges"
  | .cfg => some "cfgEdges"
  | .reachingDef => some "reachingDefEdges"
  | .cdg => some "cdgEdges"
  | .next => none

end Relation

def nextEdges (nodes : Nat) : List Edge :=
  (List.range (nodes % UInt32.size - 1)).map fun index => ⟨index.toUInt32, (index + 1).toUInt32⟩

def selfLoops (nodes : Nat) : List Edge :=
  (List.range (nodes % UInt32.size)).map fun index => ⟨index.toUInt32, index.toUInt32⟩

end DefectGraphs.Channel
