import DefectGraphs.Graph.Record

/-!
Batches: graphs merged into one graph without edges between them. A pass over a sequence of graphs
fills one batch after the other, so that a batch holds at most a given number of nodes or else a
single graph.
-/

namespace DefectGraphs

open Channel DefectGraphs.Graph

structure Batch (α : Type) where
  /-- The vectors of all nodes, graph after graph. -/
  features : List Token.Row
  channels : List (List Edge)
  /-- For each node the graph that it comes from, counted within the batch as a word of 32 bits. -/
  owners : List Nat
  graphs : Nat
  labels : List α

namespace Batch

def empty (channels : Nat) : Batch α :=
  ⟨[], List.replicate channels [], [], 0, []⟩

def nodeCount (batch : Batch α) : Nat :=
  batch.features.length

def edgeCount (batch : Batch α) : Nat :=
  batch.channels.flatten.length

def flatFeatures (batch : Batch α) : List Float32 :=
  batch.features.flatMap Array.toList

/-- Adds a graph's edges channel by channel, past the nodes that are there already. -/
def joinChannels (offset : UInt32) : List (List Edge) → List (List Edge) → List (List Edge)
  | channels, [] => channels
  | [], added => added.map fun edges => edges.map (·.shift offset)
  | channel :: channels, edges :: added =>
    (channel ++ edges.map (·.shift offset)) :: joinChannels offset channels added

def join (batch : Batch α) (record : Record α) : Batch α where
  features := batch.features ++ record.features
  channels := joinChannels batch.nodeCount.toUInt32 batch.channels record.channels
  owners := batch.owners ++ List.replicate record.nodeCount (batch.graphs % UInt32.size)
  graphs := batch.graphs + 1
  labels := batch.labels ++ [record.label]

@[simp] theorem graphs_empty (channels : Nat) : (empty channels : Batch α).graphs = 0 := rfl

@[simp] theorem nodeCount_empty (channels : Nat) : (empty channels : Batch α).nodeCount = 0 := rfl

@[simp] theorem graphs_join (batch : Batch α) (record : Record α) :
    (batch.join record).graphs = batch.graphs + 1 := rfl

@[simp] theorem nodeCount_join (batch : Batch α) (record : Record α) :
    (batch.join record).nodeCount = batch.nodeCount + record.nodeCount := by
  simp [nodeCount, join, Record.nodeCount]

end Batch

structure Assembler where
  maxNodes : Nat
  channels : Nat
  deriving DecidableEq, Repr

structure Pass (α : Type) where
  assembler : Assembler
  /-- The record that did not fit into the last batch; it opens the next one. -/
  pending : Option (Record α)
  /-- The records that the pass has not come to. -/
  coming : List (Record α)

namespace Pass

def ofRecords (assembler : Assembler) (records : List (Record α)) : Pass α :=
  ⟨assembler, none, records⟩

def left (pass : Pass α) : List (Record α) :=
  pass.pending.toList ++ pass.coming

@[simp] theorem left_mk (assembler : Assembler) (pending : Option (Record α))
    (coming : List (Record α)) :
    (Pass.mk assembler pending coming).left = pending.toList ++ coming := rfl

/-- Joins records to a batch up to the first one that would take it past the ceiling. That record is
put aside, before those that come after it. A batch without graphs takes any record. -/
def fill (maxNodes : Nat) (batch : Batch α) :
    List (Record α) → Batch α × Option (Record α) × List (Record α)
  | [] => (batch, none, [])
  | record :: rest =>
    if 0 < batch.graphs ∧ maxNodes < batch.nodeCount + record.nodeCount then
      (batch, some record, rest)
    else fill maxNodes (batch.join record) rest

/-- The next batch, unless no record is left, and the pass after it. -/
def next (pass : Pass α) : Option (Batch α) × Pass α :=
  let (batch, pending, coming) :=
    fill pass.assembler.maxNodes (.empty pass.assembler.channels) pass.left
  (if 0 < batch.graphs then some batch else none, { pass with pending, coming })

theorem fill_left_length_add_graphs (maxNodes : Nat) (batch : Batch α) (records : List (Record α)) :
    ((fill maxNodes batch records).2.1.toList ++ (fill maxNodes batch records).2.2).length +
      (fill maxNodes batch records).1.graphs = records.length + batch.graphs := by
  induction records generalizing batch with
  | nil => simp [fill]
  | cons record rest induction =>
    simp only [fill]
    split
    · simp
    · have := induction (batch.join record)
      simp only [Batch.graphs_join, List.length_cons] at this ⊢
      omega

theorem next_left_length_lt {pass rest : Pass α} {batch : Batch α}
    (given : pass.next = (some batch, rest)) : rest.left.length < pass.left.length := by
  have counted := fill_left_length_add_graphs pass.assembler.maxNodes
    (.empty pass.assembler.channels) pass.left
  rcases filled : fill pass.assembler.maxNodes (.empty pass.assembler.channels) pass.left with
    ⟨batch, pending, coming⟩
  simp only [next, filled, Prod.mk.injEq, Option.ite_none_right_eq_some] at given
  obtain ⟨⟨positive, -⟩, rfl⟩ := given
  simp only [filled, Batch.graphs_empty, left_mk] at counted ⊢
  omega

def collect (pass : Pass α) : List (Batch α) :=
  match _given : pass.next with
  | (none, _) => []
  | (some batch, rest) => batch :: rest.collect
  termination_by pass.left.length
  decreasing_by exact next_left_length_lt _given

end Pass

namespace Assembler

def batches (assembler : Assembler) (records : List (Record α)) : List (Batch α) :=
  (Pass.ofRecords assembler records).collect

end Assembler

end DefectGraphs
