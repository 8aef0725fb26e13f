import DefectGraphs.Batch
import DefectGraphs.Proofs.Batch.Cut

/-!
The batches of a pass are the groups of a greedy cut. A pass keeps its place in the sequence as a
pending record and the records to come; call after call it gives the groups of the cut of these, each
merged into one batch.
-/

namespace DefectGraphs

open DefectGraphs.Graph

def Batch.merge (channels : Nat) (group : List (Record α)) : Batch α :=
  group.foldl Batch.join (.empty channels)

namespace Batch

theorem merge_concat (channels : Nat) (group : List (Record α)) (record : Record α) :
    merge channels (group ++ [record]) = (merge channels group).join record := by
  simp [merge]

@[simp] theorem graphs_foldl_join (batch : Batch α) (group : List (Record α)) :
    (group.foldl join batch).graphs = batch.graphs + group.length := by
  induction group generalizing batch with
  | nil => rfl
  | cons record rest induction =>
      rw [List.foldl_cons, induction, graphs_join, List.length_cons]
      omega

@[simp] theorem nodeCount_foldl_join (batch : Batch α) (group : List (Record α)) :
    (group.foldl join batch).nodeCount = batch.nodeCount + (group.map Record.nodeCount).sum := by
  induction group generalizing batch with
  | nil => rfl
  | cons record rest induction =>
      rw [List.foldl_cons, induction, nodeCount_join, List.map_cons, List.sum_cons]
      omega

@[simp] theorem labels_foldl_join (batch : Batch α) (group : List (Record α)) :
    (group.foldl join batch).labels = batch.labels ++ group.map Record.label := by
  induction group generalizing batch with
  | nil => simp
  | cons record rest induction => simp [induction, join]

@[simp] theorem features_foldl_join (batch : Batch α) (group : List (Record α)) :
    (group.foldl join batch).features = batch.features ++ group.flatMap Record.features := by
  induction group generalizing batch with
  | nil => simp
  | cons record rest induction => simp [induction, join]

@[simp] theorem graphs_merge (channels : Nat) (group : List (Record α)) :
    (merge channels group).graphs = group.length := by
  simp [merge]

@[simp] theorem nodeCount_merge (channels : Nat) (group : List (Record α)) :
    (merge channels group).nodeCount = (group.map Record.nodeCount).sum := by
  simp [merge]

@[simp] theorem labels_merge (channels : Nat) (group : List (Record α)) :
    (merge channels group).labels = group.map Record.label := by
  simp [merge, empty]

@[simp] theorem features_merge (channels : Nat) (group : List (Record α)) :
    (merge channels group).features = group.flatMap Record.features := by
  simp [merge, empty]

end Batch

namespace Pass

theorem head?_toList_append_tail (elements : List α) :
    elements.head?.toList ++ elements.tail = elements := by
  cases elements <;> rfl

/-- A batch that has graphs already takes what fits, and the first record that does not is pending
after it. -/
theorem fill_eq (maxNodes : Nat) (batch : Batch α) (started : 0 < batch.graphs)
    (records : List (Record α)) :
    fill maxNodes batch records =
      ((takeFitting Record.nodeCount maxNodes batch.nodeCount records).1.foldl Batch.join batch,
        (takeFitting Record.nodeCount maxNodes batch.nodeCount records).2.head?,
        (takeFitting Record.nodeCount maxNodes batch.nodeCount records).2.tail) := by
  induction records generalizing batch with
  | nil => rfl
  | cons record rest induction =>
      by_cases large : maxNodes < batch.nodeCount + record.nodeCount
      · simp [fill, takeFitting, started, large]
      · have joined := @induction (batch.join record) (by simp)
        simp only [Batch.nodeCount_join] at joined
        simp [fill, takeFitting, large, joined]

theorem next_of_left_nil {pass : Pass α} (done : pass.left = []) :
    pass.next = (none, { pass with pending := none, coming := [] }) := by
  simp [next, done, fill]

theorem next_of_left_cons {pass : Pass α} {record : Record α} {rest : List (Record α)}
    (left : pass.left = record :: rest) :
    pass.next =
      (some (.merge pass.assembler.channels (record ::
          (takeFitting Record.nodeCount pass.assembler.maxNodes record.nodeCount rest).1)),
        { pass with
          pending := (takeFitting Record.nodeCount pass.assembler.maxNodes record.nodeCount
            rest).2.head?
          coming := (takeFitting Record.nodeCount pass.assembler.maxNodes record.nodeCount
            rest).2.tail }) := by
  have opened : fill pass.assembler.maxNodes (.empty pass.assembler.channels) (record :: rest) =
      fill pass.assembler.maxNodes ((Batch.empty pass.assembler.channels).join record) rest := by
    simp [fill]
  have filled := fill_eq pass.assembler.maxNodes
    ((Batch.empty pass.assembler.channels).join record) (by simp) rest
  simp only [Batch.nodeCount_join, Batch.nodeCount_empty, Nat.zero_add] at filled
  simp only [next, left, opened, filled]
  simp [Batch.merge]

/-- The batches of a pass are the groups of the cut of what is left, each merged. -/
theorem collect_eq_map_cut (assembler : Assembler) (pending : Option (Record α))
    (coming : List (Record α)) :
    (Pass.mk assembler pending coming).collect =
      (cut Record.nodeCount assembler.maxNodes (pending.toList ++ coming)).map
        (.merge assembler.channels) := by
  induction records : pending.toList ++ coming
    using cut.induct Record.nodeCount assembler.maxNodes generalizing pending coming with
  | case1 =>
      have done : (Pass.mk assembler pending coming).left = [] := records
      rw [collect, next_of_left_nil done, cut_nil, List.map_nil]
  | case2 record rest split induction =>
      have left : (Pass.mk assembler pending coming).left = record :: rest := records
      rw [collect, next_of_left_cons left, cut_cons, List.map_cons]
      exact congrArg (List.cons _) (induction _ _ (head?_toList_append_tail split.2))

def after : Nat → Pass α → Pass α
  | 0, pass => pass
  | calls + 1, pass => after calls pass.next.2

theorem collect_of_left_nil {pass : Pass α} (done : pass.left = []) : pass.collect = [] := by
  rw [collect, next_of_left_nil done]

theorem next_eq_head_collect (pass : Pass α) : pass.next.1 = pass.collect.head? := by
  rw [collect]
  cases given : pass.next with
  | mk batch rest => cases batch <;> simp

theorem collect_next (pass : Pass α) : pass.next.2.collect = pass.collect.tail := by
  cases left : pass.left with
  | nil =>
      rw [collect_of_left_nil left, next_of_left_nil left]
      exact collect_of_left_nil rfl
  | cons record rest =>
      rw [collect.eq_def pass, next_of_left_cons left]
      rfl

/-- Call after call a pass gives its batches in order, and nothing once they are all given. -/
theorem next_after (pass : Pass α) (calls : Nat) :
    (pass.after calls).next.1 = pass.collect[calls]? := by
  induction calls generalizing pass with
  | zero => rw [after, next_eq_head_collect, List.head?_eq_getElem?]
  | succ calls induction =>
      rw [after, induction, collect_next, List.getElem?_tail]

end Pass

namespace Assembler

theorem batches_eq_map_cut (assembler : Assembler) (records : List (Record α)) :
    assembler.batches records =
      (cut Record.nodeCount assembler.maxNodes records).map (.merge assembler.channels) :=
  Pass.collect_eq_map_cut assembler none records

end Assembler

/-- What makes batches the greedy division of a sequence of records under a ceiling. -/
structure Batch.IsGreedy (maxNodes : Nat) (records : List (Record α)) (batches : List (Batch α)) :
    Prop where
  graphs_pos : ∀ batch ∈ batches, 0 < batch.graphs
  length_labels : ∀ batch ∈ batches, batch.labels.length = batch.graphs
  labels : batches.flatMap Batch.labels = records.map Record.label
  features : batches.flatMap Batch.features = records.flatMap Record.features
  bounded : ∀ batch ∈ batches, batch.nodeCount ≤ maxNodes ∨ batch.graphs = 1
  /-- The record that opens the following batch would not have fitted. -/
  maximal : ∀ (place : Nat) (followed : place + 1 < batches.length), ∃ record,
    records[((batches.take (place + 1)).map Batch.graphs).sum]? = some record ∧
      maxNodes < batches[place].nodeCount + record.nodeCount

namespace Assembler

theorem map_graphs_batches (assembler : Assembler) (records : List (Record α)) :
    (assembler.batches records).map Batch.graphs =
      (cut Record.nodeCount assembler.maxNodes records).map List.length := by
  simp [batches_eq_map_cut]

theorem isGreedy_batches (assembler : Assembler) (records : List (Record α)) :
    Batch.IsGreedy assembler.maxNodes records (assembler.batches records) where
  graphs_pos := by
    intro batch member
    rw [batches_eq_map_cut, List.mem_map] at member
    obtain ⟨group, member, rfl⟩ := member
    rw [Batch.graphs_merge]
    exact List.length_pos_of_ne_nil (ne_nil_of_mem_cut _ _ member)
  length_labels := by
    intro batch member
    rw [batches_eq_map_cut, List.mem_map] at member
    obtain ⟨group, -, rfl⟩ := member
    simp
  labels := by
    calc
      (assembler.batches records).flatMap Batch.labels =
          (cut Record.nodeCount assembler.maxNodes records).flatMap (List.map Record.label) := by
        simp [batches_eq_map_cut, List.flatMap_map]
      _ = (cut Record.nodeCount assembler.maxNodes records).flatten.map Record.label := by
        rw [List.map_flatten, List.flatMap_def]
      _ = records.map Record.label := by rw [flatten_cut]
  features := by
    calc
      (assembler.batches records).flatMap Batch.features =
          (cut Record.nodeCount assembler.maxNodes records).flatMap
            (List.flatMap Record.features) := by
        simp [batches_eq_map_cut, List.flatMap_map]
      _ = (cut Record.nodeCount assembler.maxNodes records).flatten.flatMap Record.features := by
        rw [List.flatten_eq_flatMap, List.flatMap_assoc]
        rfl
      _ = records.flatMap Record.features := by rw [flatten_cut]
  bounded := by
    intro batch member
    rw [batches_eq_map_cut, List.mem_map] at member
    obtain ⟨group, member, rfl⟩ := member
    rw [Batch.nodeCount_merge, Batch.graphs_merge]
    exact bounded_of_mem_cut _ _ member
  maximal := by
    intro place followed
    have chain := List.isChain_iff_getElem.mp
      (isChain_cut Record.nodeCount assembler.maxNodes records) place
    have opened := getElem?_flatten_sum_take (cut Record.nodeCount assembler.maxNodes records)
      (place + 1) fun group => ne_nil_of_mem_cut _ _
    simp only [batches_eq_map_cut, List.length_map] at followed
    rw [List.map_take, map_graphs_batches, ← List.map_take]
    rw [flatten_cut, List.getElem?_eq_getElem followed, Option.bind_some] at opened
    obtain ⟨record, rest, group⟩ := List.exists_cons_of_ne_nil
      (ne_nil_of_mem_cut _ _ (List.getElem_mem followed))
    refine ⟨record, by rw [opened, group, List.head?_cons], ?_⟩
    simpa [batches_eq_map_cut] using chain followed record (by rw [group]; rfl)

/-- Called again and again, a pass gives greedy batches one by one. The first call that gives none is
the one that comes when the batches hold all records, and no later call gives any. -/
theorem next_isGreedy (assembler : Assembler) (records : List (Record α)) :
    Batch.IsGreedy assembler.maxNodes records (assembler.batches records) ∧
      ∀ calls : Nat,
        ((Pass.ofRecords assembler records).after calls).next.1 =
            (assembler.batches records)[calls]? ∧
          (((Pass.ofRecords assembler records).after calls).next.1 = none ↔
            (((assembler.batches records).take calls).map Batch.graphs).sum = records.length) ∧
          (((Pass.ofRecords assembler records).after calls).next.1 = none →
            ∀ more, ((Pass.ofRecords assembler records).after (calls + more)).next.1 = none) := by
  have given : ∀ calls, ((Pass.ofRecords assembler records).after calls).next.1 =
      (assembler.batches records)[calls]? := Pass.next_after _
  refine ⟨isGreedy_batches assembler records, fun calls => ⟨given calls, ?_, ?_⟩⟩
  · have counted := sum_length_take_eq_iff (cut Record.nodeCount assembler.maxNodes records) calls
      fun group => ne_nil_of_mem_cut _ _
    rw [flatten_cut] at counted
    rw [given, List.getElem?_eq_none_iff, List.map_take, map_graphs_batches, ← List.map_take,
      counted, batches_eq_map_cut, List.length_map]
  · intro ended more
    rw [given, List.getElem?_eq_none_iff] at ended ⊢
    omega

end Assembler

end DefectGraphs
