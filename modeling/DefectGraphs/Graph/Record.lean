import DefectGraphs.Channel.Layout
import DefectGraphs.Label.Language
import DefectGraphs.Label.Target
import DefectGraphs.Token.Embedding

/-!
Graphs that are ready for batching.
-/

namespace DefectGraphs.Graph

/-- A graph laid out in channels, with one vector for each node and a label. -/
structure Record (α : Type) where
  filename : String
  language : Option Label.Language
  cwe : Option Nat
  isSafe : Bool
  channels : List (List Channel.Edge)
  features : List Token.Row
  label : α

namespace Record

def nodeCount (record : Record α) : Nat :=
  record.features.length

def edgeCount (record : Record α) : Nat :=
  record.channels.flatten.length

end Record

end DefectGraphs.Graph
