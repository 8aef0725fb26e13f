import DefectGraphs.Proofs.Batch.Union

/-!
Batches of records that are laid out alike are laid out like them: as many channels, vectors of the
same size, and the vectors end to end, each where its place tells.
-/

namespace DefectGraphs

open DefectGraphs.Graph

structure Graph.Record.HasShape (record : Record α) (channels width : Nat) : Prop where
  length_channels : record.channels.length = channels
  size_features : ∀ vector ∈ record.features, vector.size = width

section EndToEnd

variable {rows : List (Array β)} {width : Nat} (alike : ∀ row ∈ rows, row.size = width)

include alike

theorem length_flatMap_toList : (rows.flatMap Array.toList).length = rows.length * width := by
  induction rows with
  | nil => simp
  | cons row rest induction =>
      obtain ⟨first, others⟩ := List.forall_mem_cons.mp alike
      rw [List.flatMap_cons, List.length_append, Array.length_toList, first, induction others,
        List.length_cons, Nat.succ_mul, Nat.add_comm]

theorem getElem?_flatMap_toList {place component : Nat} {row : Array β}
    (found : rows[place]? = some row) (within : component < width) :
    (rows.flatMap Array.toList)[place * width + component]? = row[component]? := by
  induction rows generalizing place with
  | nil => simp at found
  | cons head rest induction =>
      obtain ⟨first, others⟩ := List.forall_mem_cons.mp alike
      have sized : head.toList.length = width := by rw [Array.length_toList, first]
      rw [List.flatMap_cons]
      cases place with
      | zero =>
          cases found
          rw [Nat.zero_mul, Nat.zero_add, List.getElem?_append_left (sized ▸ within),
            Array.getElem?_toList]
      | succ place =>
          have beyond : (place + 1) * width + component = width + (place * width + component) := by
            rw [Nat.succ_mul]
            omega
          rw [beyond, ← sized, List.getElem?_append_right (Nat.le_add_right _ _),
            Nat.add_sub_cancel_left, sized]
          exact induction others found

end EndToEnd

namespace Batch

/-- What the shape that is told of a batch says about its channels and its vectors, one by one and
end to end. -/
structure HasShape (batch : Batch α) (channels width : Nat) : Prop where
  length_channels : batch.channels.length = channels
  size_features : ∀ vector ∈ batch.features, vector.size = width
  length_flat : batch.flatFeatures.length = batch.nodeCount * width
  getElem?_flat : ∀ (node component : Nat) (vector : Token.Row),
    batch.features[node]? = some vector → component < width →
      batch.flatFeatures[node * width + component]? = vector[component]?

theorem length_channels_foldl_join {channels : Nat} {group : List (Record α)}
    (alike : ∀ record ∈ group, record.channels.length = channels) {batch : Batch α}
    (same : batch.channels.length = channels) :
    (group.foldl join batch).channels.length = channels := by
  induction group generalizing batch with
  | nil => exact same
  | cons record rest induction =>
      obtain ⟨first, others⟩ := List.forall_mem_cons.mp alike
      apply induction others
      rw [length_channels_join, same, first, Nat.max_self]

theorem hasShape_merge {channels width : Nat} {group : List (Record α)}
    (alike : ∀ record ∈ group, record.HasShape channels width) :
    (merge channels group).HasShape channels width := by
  have sized : ∀ vector ∈ (merge channels group).features, vector.size = width := by
    intro vector member
    rw [features_merge] at member
    obtain ⟨record, listed, own⟩ := List.mem_flatMap.mp member
    exact (alike record listed).size_features vector own
  refine ⟨?_, sized, length_flatMap_toList sized, ?_⟩
  · apply length_channels_foldl_join fun record listed => (alike record listed).length_channels
    exact List.length_replicate
  · intro node component vector
    exact getElem?_flatMap_toList sized

end Batch

theorem Assembler.hasShape_batches {assembler : Assembler} {width : Nat}
    {records : List (Record α)}
    (alike : ∀ record ∈ records, record.HasShape assembler.channels width) :
    ∀ batch ∈ assembler.batches records, batch.HasShape assembler.channels width := by
  intro batch member
  rw [batches_eq_map_cut] at member
  obtain ⟨group, cut, rfl⟩ := List.mem_map.mp member
  apply Batch.hasShape_merge
  intro record inGroup
  apply alike
  rw [← flatten_cut Record.nodeCount assembler.maxNodes records]
  exact List.mem_flatten_of_mem cut inGroup

end DefectGraphs
