import DefectGraphs.Proofs.Batch.Greedy

/-!
A batch is the disjoint union of its graphs. The nodes of each graph are a block, its edges are those
of the batch that start in the block, and both are read back from the batch as they were. Joining one
more graph keeps what the batch says about the graphs before it.
-/

namespace DefectGraphs

open Channel DefectGraphs.Graph

def Channel.Edge.shiftBack (edge : Edge) (offset : UInt32) : Edge :=
  ⟨edge.source - offset, edge.target - offset⟩

@[simp] theorem Channel.Edge.shiftBack_shift (edge : Edge) (offset : UInt32) :
    (edge.shift offset).shiftBack offset = edge := by
  simp [Edge.shiftBack, Edge.shift]

namespace Graph.Record

/-- The edges of a channel, none where the record has fewer channels. -/
def channel (record : Record α) (index : Nat) : List Edge :=
  record.channels[index]?.getD []

def EdgesInRange (record : Record α) : Prop :=
  ∀ edges ∈ record.channels, ∀ edge ∈ edges,
    edge.source.toNat < record.nodeCount ∧ edge.target.toNat < record.nodeCount

theorem EdgesInRange.of_mem_channel {record : Record α} (inRange : record.EdgesInRange)
    {index : Nat} {edge : Edge} (member : edge ∈ record.channel index) :
    edge.source.toNat < record.nodeCount ∧ edge.target.toNat < record.nodeCount := by
  unfold channel at member
  cases found : record.channels[index]? with
  | none => simp [found] at member
  | some edges =>
      rw [found, Option.getD_some] at member
      exact inRange edges (List.mem_of_getElem? found) edge member

end Graph.Record

namespace Batch

def channel (batch : Batch α) (index : Nat) : List Edge :=
  batch.channels[index]?.getD []

theorem getD_joinChannels (offset : UInt32) (channels added : List (List Edge)) (index : Nat) :
    (joinChannels offset channels added)[index]?.getD [] =
      channels[index]?.getD [] ++ (added[index]?.getD []).map (·.shift offset) := by
  induction channels generalizing added index with
  | nil =>
      cases added with
      | nil => simp [joinChannels]
      | cons edges added =>
          simp only [joinChannels, List.getElem?_map, List.getElem?_nil]
          cases (edges :: added)[index]? <;> simp
  | cons channel channels induction =>
      cases added with
      | nil => simp [joinChannels]
      | cons edges added =>
          cases index with
          | zero => simp [joinChannels]
          | succ index => simpa [joinChannels] using induction added index

theorem length_joinChannels (offset : UInt32) (channels added : List (List Edge)) :
    (joinChannels offset channels added).length = max channels.length added.length := by
  induction channels generalizing added with
  | nil => cases added <;> simp [joinChannels]
  | cons channel channels induction =>
      cases added with
      | nil => simp [joinChannels]
      | cons edges added =>
          rw [joinChannels, List.length_cons, induction, List.length_cons, List.length_cons,
            Nat.succ_max_succ]

@[simp] theorem channel_join (batch : Batch α) (record : Record α) (index : Nat) :
    (batch.join record).channel index =
      batch.channel index ++ (record.channel index).map (·.shift batch.nodeCount.toUInt32) :=
  getD_joinChannels _ _ _ _

def offset (group : List (Record α)) (place : Nat) : Nat :=
  ((group.take place).map Record.nodeCount).sum

/-- What a batch says about a record, which is at a place and whose nodes start at a node. -/
structure HoldsAt (batch : Batch α) (place start : Nat) (record : Record α) : Prop where
  features : (batch.features.drop start).take record.nodeCount = record.features
  owners : ∀ node, start ≤ node → node < start + record.nodeCount →
    batch.owners[node]? = some (place % UInt32.size)
  /-- The edges that start in the block are those of the record, in order. -/
  readBack : ∀ index,
    ((batch.channel index).filter fun edge =>
      start ≤ edge.source.toNat ∧ edge.source.toNat < start + record.nodeCount).map
        (·.shiftBack start.toUInt32) = record.channel index
  noOverflow : ∀ edges ∈ record.channels, ∀ edge ∈ edges,
    edge.source.toNat + start < UInt32.size ∧ edge.target.toNat + start < UInt32.size

/-- A batch that is the disjoint union of a group of records, which start one after the other. -/
structure IsUnion (channels : Nat) (group : List (Record α)) (batch : Batch α) : Prop where
  graphs : batch.graphs = group.length
  nodeCount : batch.nodeCount = offset group group.length
  labels : batch.labels = group.map Record.label
  length_owners : batch.owners.length = batch.nodeCount
  channelCount : batch.channels.length =
    (group.map fun record => record.channels.length).foldl max channels
  holdsAt : ∀ place record, group[place]? = some record →
    batch.HoldsAt place (offset group place) record
  sameBlock : ∀ index, ∀ edge ∈ batch.channel index, ∃ place record,
    group[place]? = some record ∧
      (offset group place ≤ edge.source.toNat ∧
        edge.source.toNat < offset group place + record.nodeCount) ∧
      (offset group place ≤ edge.target.toNat ∧
        edge.target.toNat < offset group place + record.nodeCount)

/-- The owner of a node is the place of the record whose block it lies in. -/
structure OwnersExact (group : List (Record α)) (batch : Batch α) : Prop where
  sorted : batch.owners.Pairwise (· ≤ ·)
  exact : ∀ node place, batch.owners[node]? = some place ↔ ∃ record, group[place]? = some record ∧
    offset group place ≤ node ∧ node < offset group place + record.nodeCount

section Offset

variable (group : List (Record α)) (record : Record α)

theorem getElem?_concat_eq_some_iff {place : Nat} {found : Record α} :
    (group ++ [record])[place]? = some found ↔
      group[place]? = some found ∨ place = group.length ∧ found = record := by
  rcases Nat.lt_trichotomy place group.length with before | rfl | after
  · rw [List.getElem?_append_left before]
    constructor
    · exact Or.inl
    · rintro (found | ⟨rfl, -⟩)
      · exact found
      · omega
  · simp [eq_comm]
  · rw [List.getElem?_eq_none (by simp; omega), List.getElem?_eq_none (by omega)]
    simp
    omega

theorem offset_concat_of_le {place : Nat} (within : place ≤ group.length) :
    offset (group ++ [record]) place = offset group place := by
  rw [offset, List.take_append_of_le_length within, offset]

theorem offset_concat_length :
    offset (group ++ [record]) (group ++ [record]).length =
      offset group group.length + record.nodeCount := by
  simp only [offset, List.take_length, List.map_append, List.sum_append, List.map_cons, List.map_nil,
    List.sum_singleton]

theorem offset_succ (place : Nat) :
    offset group (place + 1) = offset group place + group[place]?.elim 0 Record.nodeCount := by
  rw [offset, List.take_add_one, List.map_append, List.sum_append, offset]
  cases group[place]? <;> simp

theorem offset_le_of_le {place later : Nat} (le : place ≤ later) :
    offset group place ≤ offset group later := by
  induction le with
  | refl => exact Nat.le_refl _
  | step _ induction =>
      rw [offset_succ]
      exact Nat.le_add_right_of_le induction

variable {group record}

/-- A block ends before the next ones begin. -/
theorem offset_add_nodeCount_le_of_lt {place later : Nat} (found : group[place]? = some record)
    (before : place < later) : offset group place + record.nodeCount ≤ offset group later := by
  have next := offset_succ group place
  rw [found, Option.elim_some] at next
  rw [← next]
  exact offset_le_of_le group before

theorem offset_add_nodeCount_le {place : Nat} (found : group[place]? = some record) :
    offset group place + record.nodeCount ≤ offset group group.length :=
  offset_add_nodeCount_le_of_lt found (List.getElem?_eq_some_iff.mp found).1

theorem exists_block {node places : Nat} (within : node < offset group places) :
    ∃ place record, group[place]? = some record ∧ offset group place ≤ node ∧
      node < offset group place + record.nodeCount := by
  induction places with
  | zero => simp [offset] at within
  | succ places induction =>
      by_cases earlier : node < offset group places
      · exact induction earlier
      · rw [offset_succ] at within
        cases found : group[places]? with
        | none =>
            rw [found] at within
            exact absurd within earlier
        | some record =>
            rw [found] at within
            exact ⟨places, record, found, Nat.le_of_not_lt earlier, within⟩

end Offset

theorem toNat_toUInt32 {number : Nat} (small : number < UInt32.size) :
    number.toUInt32.toNat = number :=
  UInt32.toNat_ofNat_of_lt' small

/-- Within 32 bits a shift adds to both ends. -/
theorem toNat_shift {edge : Edge} {start count : Nat} (total : start + count < UInt32.size)
    (within : edge.source.toNat < count ∧ edge.target.toNat < count) :
    (edge.shift start.toUInt32).source.toNat = edge.source.toNat + start ∧
      (edge.shift start.toUInt32).target.toNat = edge.target.toNat + start := by
  have below : start < UInt32.size := by omega
  simp only [Edge.shift, UInt32.toNat_add, toNat_toUInt32 below]
  unfold UInt32.size at total
  exact ⟨Nat.mod_eq_of_lt (by omega), Nat.mod_eq_of_lt (by omega)⟩

section Join

variable {channels : Nat} {group : List (Record α)} {batch : Batch α} {record : Record α}

theorem IsUnion.source_lt (union : IsUnion channels group batch) {index : Nat} {edge : Edge}
    (member : edge ∈ batch.channel index) : edge.source.toNat < batch.nodeCount := by
  obtain ⟨place, found, held, ⟨-, source⟩, -⟩ := union.sameBlock index edge member
  have := offset_add_nodeCount_le held
  rw [union.nodeCount]
  omega

/-- A record that the batch holds already is held as before. -/
theorem HoldsAt.join {place start : Nat} {found : Record α} (held : batch.HoldsAt place start found)
    (within : start + found.nodeCount ≤ batch.nodeCount)
    (owned : batch.owners.length = batch.nodeCount) (inRange : record.EdgesInRange)
    (small : batch.nodeCount + record.nodeCount < UInt32.size) :
    (batch.join record).HoldsAt place start found where
  features := by
    have inside : start + found.nodeCount ≤ batch.features.length := within
    rw [Batch.join, List.drop_append_of_le_length (by omega),
      List.take_append_of_le_length (by simp; omega), held.features]
  owners := by
    intro node after before
    rw [Batch.join, List.getElem?_append_left (by omega), held.owners node after before]
  readBack := by
    intro index
    have none : ((record.channel index).map (·.shift batch.nodeCount.toUInt32)).filter (fun edge =>
        start ≤ edge.source.toNat ∧ edge.source.toNat < start + found.nodeCount) = [] := by
      rw [List.filter_eq_nil_iff]
      intro shifted member
      obtain ⟨edge, placed, rfl⟩ := List.mem_map.mp member
      have source := (inRange.of_mem_channel placed).1
      rw [(toNat_shift small (inRange.of_mem_channel placed)).1]
      simp
      omega
    rw [channel_join, List.filter_append, none, List.append_nil, held.readBack]
  noOverflow := held.noOverflow

/-- The record that is joined is held after all others. -/
theorem IsUnion.holdsAt_join (union : IsUnion channels group batch) (inRange : record.EdgesInRange)
    (small : batch.nodeCount + record.nodeCount < UInt32.size) :
    (batch.join record).HoldsAt group.length batch.nodeCount record where
  features := by
    simp [Batch.join, Batch.nodeCount, Record.nodeCount]
  owners := by
    intro node after before
    have owned := union.length_owners
    rw [Batch.join, List.getElem?_append_right (by omega), List.getElem?_replicate,
      if_pos (by omega), union.graphs]
  readBack := by
    intro index
    have old : (batch.channel index).filter (fun edge =>
        batch.nodeCount ≤ edge.source.toNat ∧
          edge.source.toNat < batch.nodeCount + record.nodeCount) = [] := by
      rw [List.filter_eq_nil_iff]
      intro edge member
      have := union.source_lt member
      simp
      omega
    have new : ((record.channel index).map (·.shift batch.nodeCount.toUInt32)).filter (fun edge =>
        batch.nodeCount ≤ edge.source.toNat ∧
          edge.source.toNat < batch.nodeCount + record.nodeCount) =
        (record.channel index).map (·.shift batch.nodeCount.toUInt32) := by
      rw [List.filter_eq_self]
      intro shifted member
      obtain ⟨edge, placed, rfl⟩ := List.mem_map.mp member
      have source := (inRange.of_mem_channel placed).1
      rw [(toNat_shift small (inRange.of_mem_channel placed)).1]
      simp
      omega
    rw [channel_join, List.filter_append, old, new, List.nil_append, List.map_map]
    simp [Function.comp_def]
  noOverflow := by
    intro edges listed edge member
    obtain ⟨source, target⟩ := inRange edges listed edge member
    omega

theorem length_channels_join (batch : Batch α) (record : Record α) :
    (batch.join record).channels.length = max batch.channels.length record.channels.length :=
  length_joinChannels _ _ _

theorem IsUnion.sameBlock_join (union : IsUnion channels group batch)
    (inRange : record.EdgesInRange) (small : batch.nodeCount + record.nodeCount < UInt32.size)
    {index : Nat} {edge : Edge} (member : edge ∈ (batch.join record).channel index) :
    ∃ place found, (group ++ [record])[place]? = some found ∧
      (offset (group ++ [record]) place ≤ edge.source.toNat ∧
        edge.source.toNat < offset (group ++ [record]) place + found.nodeCount) ∧
      (offset (group ++ [record]) place ≤ edge.target.toNat ∧
        edge.target.toNat < offset (group ++ [record]) place + found.nodeCount) := by
  rw [channel_join, List.mem_append] at member
  rcases member with old | new
  · obtain ⟨place, found, held, within⟩ := union.sameBlock index edge old
    have before := (List.getElem?_eq_some_iff.mp held).1
    refine ⟨place, found, (getElem?_concat_eq_some_iff group record).mpr (.inl held), ?_⟩
    rwa [offset_concat_of_le group record (Nat.le_of_lt before)]
  · obtain ⟨edge, placed, rfl⟩ := List.mem_map.mp new
    obtain ⟨source, target⟩ := toNat_shift small (inRange.of_mem_channel placed)
    have within := inRange.of_mem_channel placed
    have last : (group ++ [record])[group.length]? = some record := List.getElem?_concat_length
    refine ⟨group.length, record, last, ?_⟩
    rw [offset_concat_of_le group record (Nat.le_refl _), ← union.nodeCount, source, target]
    omega

theorem IsUnion.join (union : IsUnion channels group batch) (inRange : record.EdgesInRange)
    (small : batch.nodeCount + record.nodeCount < UInt32.size) :
    IsUnion channels (group ++ [record]) (batch.join record) where
  graphs := by
    rw [graphs_join, union.graphs, List.length_append, List.length_singleton]
  nodeCount := by
    rw [nodeCount_join, union.nodeCount, offset_concat_length]
  labels := by
    simp [Batch.join, union.labels]
  length_owners := by
    rw [nodeCount_join, ← union.length_owners]
    simp [Batch.join]
  channelCount := by
    rw [length_channels_join, union.channelCount]
    simp
  holdsAt := by
    intro place found held
    rcases (getElem?_concat_eq_some_iff group record).mp held with held | ⟨rfl, rfl⟩
    · have placed := Nat.le_of_lt (List.getElem?_eq_some_iff.mp held).1
      have ended := offset_add_nodeCount_le held
      rw [← union.nodeCount] at ended
      rw [offset_concat_of_le group record placed]
      exact (union.holdsAt place found held).join ended union.length_owners inRange small
    · rw [offset_concat_of_le group _ (Nat.le_refl _), ← union.nodeCount]
      exact union.holdsAt_join inRange small
  sameBlock := fun _ _ => union.sameBlock_join inRange small

end Join

theorem isUnion_empty (channels : Nat) : IsUnion channels [] (empty channels : Batch α) where
  graphs := rfl
  nodeCount := rfl
  labels := rfl
  length_owners := rfl
  channelCount := by simp [empty]
  holdsAt := by simp
  sameBlock := by
    intro index edge member
    cases found : (List.replicate channels ([] : List Edge))[index]? with
    | none => simp [channel, empty, found] at member
    | some edges =>
        obtain rfl := List.eq_of_mem_replicate (List.mem_of_getElem? found)
        simp [channel, empty, found] at member

/-- Records joined one after the other make up a disjoint union, as long as their nodes can be told
apart by words of 32 bits. -/
theorem isUnion_merge (channels : Nat) (group : List (Record α))
    (inRange : ∀ record ∈ group, record.EdgesInRange)
    (small : (group.map Record.nodeCount).sum < UInt32.size) :
    IsUnion channels group (merge channels group) := by
  induction group using List.reverseRecOn with
  | nil => exact isUnion_empty channels
  | append_singleton group record induction =>
      simp only [List.map_append, List.sum_append, List.map_cons, List.map_nil,
        List.sum_singleton] at small
      rw [merge_concat]
      refine (induction ?_ (by omega)).join ?_ (by rwa [nodeCount_merge])
      · exact fun record member => inRange record (List.mem_append_left _ member)
      · exact inRange record (List.mem_append_right _ List.mem_cons_self)

/-- Owners are words of 32 bits: they tell the graphs of all nodes as long as no graph with nodes
comes after as many graphs as there are words. -/
theorem IsUnion.ownersExact_iff {channels : Nat} {group : List (Record α)} {batch : Batch α}
    (union : IsUnion channels group batch) : OwnersExact group batch ↔
      ∀ place record, group[place]? = some record → 0 < record.nodeCount →
        place < UInt32.size := by
  constructor
  · intro owned place record found some
    have first : offset group place < offset group place + record.nodeCount := by omega
    have counted := (union.holdsAt place record found).owners _ (Nat.le_refl _) first
    have told := (owned.exact _ place).mpr ⟨record, found, Nat.le_refl _, first⟩
    rw [counted, Option.some.injEq] at told
    rw [← told]
    exact Nat.mod_lt _ (by decide)
  · intro few
    have owner : ∀ node place record, group[place]? = some record → offset group place ≤ node →
        node < offset group place + record.nodeCount → batch.owners[node]? = some place := by
      intro node place record found after before
      rw [(union.holdsAt place record found).owners node after before,
        Nat.mod_eq_of_lt (few place record found (by omega))]
    have exact : ∀ node place, batch.owners[node]? = some place ↔
        ∃ record, group[place]? = some record ∧ offset group place ≤ node ∧
          node < offset group place + record.nodeCount := by
      intro node place
      constructor
      · intro told
        have within := (List.getElem?_eq_some_iff.mp told).1
        rw [union.length_owners, union.nodeCount] at within
        obtain ⟨place', record, found, after, before⟩ := exists_block within
        rw [owner node place' record found after before, Option.some.injEq] at told
        subst told
        exact ⟨record, found, after, before⟩
      · intro block
        obtain ⟨record, found, after, before⟩ := block
        exact owner node place record found after before
    refine ⟨?_, exact⟩
    rw [List.pairwise_iff_getElem]
    intro node later _ _ before
    obtain ⟨record, _, after, _⟩ := (exact node _).mp (List.getElem?_eq_getElem _)
    obtain ⟨record', found', _, before'⟩ := (exact later _).mp (List.getElem?_eq_getElem _)
    by_contra decreases
    have apart := offset_add_nodeCount_le_of_lt found' (Nat.lt_of_not_le decreases)
    omega

end Batch

namespace Assembler

def lastRecord : Record String :=
  ⟨"late.json", none, none, true, [], [#[]], "late"⟩

/-- Graphs without nodes, and after them a graph with a node. -/
def lateRecord (before : Nat) : List (Record String) :=
  List.replicate before ⟨"none.json", none, none, false, [], [], "none"⟩ ++ [lastRecord]

theorem edgesInRange_of_mem_lateRecord {before : Nat} {record : Record String}
    (member : record ∈ lateRecord before) : record.EdgesInRange := by
  rcases List.mem_append.mp member with hollow | late
  · rw [List.eq_of_mem_replicate hollow]
    exact fun _ none => absurd none List.not_mem_nil
  · rw [List.mem_singleton.mp late]
    exact fun _ none => absurd none List.not_mem_nil

theorem getElem?_lateRecord (before : Nat) : (lateRecord before)[before]? = some lastRecord := by
  simp [lateRecord]

theorem lateRecord_ne_nil (before : Nat) : lateRecord before ≠ [] := by
  simp [lateRecord]

theorem sum_nodeCount_lateRecord (before : Nat) :
    ((lateRecord before).map Record.nodeCount).sum = 1 := by
  simp [lateRecord, lastRecord, Record.nodeCount]

/-- The only node is owned by the last graph, counted in words of 32 bits. -/
theorem owners_merge_lateRecord (before : Nat) :
    (Batch.merge 0 (lateRecord before)).owners = [before % UInt32.size] := by
  have union := Batch.isUnion_merge 0 (lateRecord before)
    (fun _ => edgesInRange_of_mem_lateRecord) (by rw [sum_nodeCount_lateRecord]; decide)
  have counted : (Batch.merge 0 (lateRecord before)).owners.length = 1 := by
    rw [union.length_owners, Batch.nodeCount_merge, sum_nodeCount_lateRecord]
  have start : Batch.offset (lateRecord before) before = 0 := by
    simp [Batch.offset, lateRecord, Record.nodeCount]
  have held := union.holdsAt before _ (getElem?_lateRecord before)
  rw [start] at held
  have owned := held.owners 0 (Nat.le_refl 0) (Nat.lt_succ_self 0)
  obtain ⟨owner, only⟩ := List.length_eq_one_iff.mp counted
  rw [only] at owned ⊢
  rw [List.getElem?_cons_zero, Option.some.injEq] at owned
  rw [owned]

/-- A linked pair, a graph without nodes and a looping node in a channel of its own. -/
def unlikeRecords : List (Record String) :=
  [⟨"pair.json", none, none, true, [[⟨0, 1⟩]], [#[], #[]], "pair"⟩,
    ⟨"none.json", none, none, false, [], [], "none"⟩,
    ⟨"loop.json", none, none, true, [[], [⟨0, 0⟩]], [#[]], "loop"⟩]

end Assembler

end DefectGraphs
