import DefectGraphs.Proofs.Batch.Shape

/-!
What the batches of a sequence add up to. The graphs, the nodes and the edges of a channel come to as
many as the records have, wherever the sequence is cut.
-/

namespace DefectGraphs

open DefectGraphs.Graph

namespace Batch

theorem length_channel_foldl_join (batch : Batch α) (group : List (Record α)) (index : Nat) :
    ((group.foldl join batch).channel index).length =
      (batch.channel index).length +
        (group.map fun record => (record.channel index).length).sum := by
  induction group generalizing batch with
  | nil => rfl
  | cons record rest induction =>
      rw [List.foldl_cons, induction, channel_join, List.length_append, List.length_map,
        List.map_cons, List.sum_cons]
      omega

theorem channel_empty (channels index : Nat) : (empty channels : Batch α).channel index = [] := by
  rw [channel, empty, List.getElem?_replicate]
  split <;> rfl

theorem length_channel_merge (channels : Nat) (group : List (Record α)) (index : Nat) :
    ((merge channels group).channel index).length =
      (group.map fun record => (record.channel index).length).sum := by
  rw [merge, length_channel_foldl_join, channel_empty, List.length_nil, Nat.zero_add]

end Batch

namespace Assembler

variable (assembler : Assembler) (records : List (Record α))

/-- Whatever merging adds up comes to the same over all batches as over the records. -/
theorem sum_map_batches {measure : Batch α → Nat} {size : Record α → Nat}
    (adds : ∀ group, measure (.merge assembler.channels group) = (group.map size).sum) :
    ((assembler.batches records).map measure).sum = (records.map size).sum := by
  have measured : measure ∘ Batch.merge assembler.channels = List.sum ∘ List.map size :=
    funext adds
  calc ((assembler.batches records).map measure).sum
      = ((cut Record.nodeCount assembler.maxNodes records).map (List.sum ∘ List.map size)).sum := by
        rw [batches_eq_map_cut, List.map_map, measured]
    _ = ((cut Record.nodeCount assembler.maxNodes records).flatten.map size).sum := by
        rw [List.map_flatten, List.sum_flatten, List.map_map]
    _ = (records.map size).sum := by rw [flatten_cut]

theorem sum_graphs_batches :
    ((assembler.batches records).map Batch.graphs).sum = records.length := by
  have adds : ∀ group : List (Record α), (Batch.merge assembler.channels group).graphs =
      (group.map fun _ => 1).sum := by simp
  rw [assembler.sum_map_batches records adds, List.map_const', List.sum_replicate_nat, Nat.mul_one]

theorem sum_nodeCount_batches :
    ((assembler.batches records).map Batch.nodeCount).sum =
      (records.map Record.nodeCount).sum :=
  assembler.sum_map_batches records (Batch.nodeCount_merge _)

theorem sum_length_channel_batches (index : Nat) :
    ((assembler.batches records).map fun batch => (batch.channel index).length).sum =
      (records.map fun record => (record.channel index).length).sum :=
  assembler.sum_map_batches records fun group => Batch.length_channel_merge _ group index

variable {assembler records}

theorem length_channels_of_mem_batches
    (alike : ∀ record ∈ records, record.channels.length = assembler.channels)
    {batch : Batch α} (member : batch ∈ assembler.batches records) :
    batch.channels.length = assembler.channels := by
  rw [batches_eq_map_cut] at member
  obtain ⟨group, cut, rfl⟩ := List.mem_map.mp member
  refine Batch.length_channels_foldl_join ?_ List.length_replicate
  intro record inGroup
  apply alike
  rw [← flatten_cut Record.nodeCount assembler.maxNodes records]
  exact List.mem_flatten_of_mem cut inGroup

end Assembler

end DefectGraphs
