import DefectGraphs.Command.Inspect
import DefectGraphs.Proofs.Channel.Layout

/-!
The number of channels, the place of a relation's flipped edges, the edges that are laid out and the
roles that are shown agree, for every tie.
-/

namespace DefectGraphs.Channel.Layout

theorem getLast?_encode_of_selfLoops {layout : Layout} (looped : layout.selfLoops = true)
    (forward : List (List Edge)) (nodes : Nat) :
    (layout.encode forward nodes).getLast? = some (Channel.selfLoops nodes) := by
  rw [encode_eq, looped, if_pos rfl, List.getLast?_concat]

/-- Without self loops, relations that have no edges leave no edge in any channel. -/
theorem eq_nil_of_mem_encode {layout : Layout} (unlooped : layout.selfLoops = false)
    {relations nodes : Nat} {edges : List Edge}
    (member : edges ∈ layout.encode (List.replicate relations []) nodes) : edges = [] := by
  rw [encode_eq, unlooped, if_neg Bool.false_ne_true, List.append_nil, List.mem_append] at member
  have listed {pair : List Edge × Nat} (entry : pair ∈ (List.replicate relations []).zipIdx) :
      pair.1 = [] :=
    List.eq_of_mem_replicate (List.fst_mem_of_mem_zipIdx entry)
  rcases member with isForward | isReverse
  · obtain ⟨pair, entry, rfl⟩ := List.mem_map.mp isForward
    simp [listed entry]
  · obtain ⟨pair, entry, rfl⟩ := List.mem_map.mp isReverse
    simp [listed (List.mem_filter.mp entry).1]

theorem selfLoops_iff_getLast? (layout : Layout) :
    layout.selfLoops = true ↔
      ∀ (forward : List (List Edge)) (nodes : Nat), forward.length = layout.forward →
        (layout.encode forward nodes).getLast? = some (Channel.selfLoops nodes) := by
  constructor
  · intro looped forward nodes _
    exact getLast?_encode_of_selfLoops looped forward nodes
  · intro always
    by_contra unlooped
    have last := always (List.replicate layout.forward []) 1 List.length_replicate
    have empty := eq_nil_of_mem_encode (Bool.eq_false_iff.mpr unlooped)
      (List.mem_of_getLast? last)
    exact absurd empty (by decide)

theorem selfLoops_injective {nodes others : Nat} (few : nodes < UInt32.size)
    (fewOthers : others < UInt32.size)
    (same : Channel.selfLoops nodes = Channel.selfLoops others) : nodes = others := by
  have lengths := congrArg List.length same
  simp only [Channel.selfLoops, List.length_map, List.length_range] at lengths
  rwa [Nat.mod_eq_of_lt few, Nat.mod_eq_of_lt fewOthers] at lengths

/-- The places that a layout gives to the tied and the untied relations. -/
structure HasPlaces (layout : Layout) (tied : Finset Nat) : Prop where
  tied_lt : ∀ kind ∈ tied, kind < layout.forward
  channelCount_eq : layout.channelCount =
    2 * layout.forward - tied.card + (if layout.selfLoops then 1 else 0)
  reverseChannel_tied : ∀ kind ∈ tied, layout.reverseChannel kind = kind
  ascending : StrictMonoOn layout.reverseChannel {kind | kind < layout.forward ∧ kind ∉ tied}
  ontoReverse : Set.BijOn layout.reverseChannel {kind | kind < layout.forward ∧ kind ∉ tied}
    (Set.Ico layout.forward (2 * layout.forward - tied.card))
  role_iff : ∀ channel < layout.channelCount, ∀ role : Role,
    layout.role channel = role ↔ layout.HasRole tied channel role
  shown : ∀ (channels : List (List Edge)) (channel : Nat) (edges : List Edge) (role : Role),
    channels[channel]? = some edges → layout.HasRole tied channel role →
      (Command.channelLines layout channels)[channel]? =
        some (Command.channelLine role edges channel)

/-- The edges of the relations are in the channels that those places name, and nowhere else. -/
structure LaysOut (layout : Layout) (tied : Finset Nat) (forward : List (List Edge))
    (nodes : Nat) : Prop where
  length_eq : (layout.encode forward nodes).length = layout.channelCount
  tiedChannel : ∀ kind edges, forward[kind]? = some edges → kind ∈ tied →
    (layout.encode forward nodes)[kind]? = some (edges ++ edges.map Edge.flip)
  forwardChannel : ∀ kind edges, forward[kind]? = some edges → kind ∉ tied →
    (layout.encode forward nodes)[kind]? = some edges
  reverseChannel : ∀ kind edges, forward[kind]? = some edges → kind ∉ tied →
    (layout.encode forward nodes)[layout.reverseChannel kind]? = some (edges.map Edge.flip)
  lastChannel : layout.selfLoops = true →
    (layout.encode forward nodes).getLast? =
      some ((List.range nodes).map fun node => ⟨node.toUInt32, node.toUInt32⟩)
  loopsOnly : (layout.encode forward nodes)[2 * layout.forward - tied.card]? =
    some ((List.range nodes).map fun node => ⟨node.toUInt32, node.toUInt32⟩) ↔
      layout.selfLoops = true
  injective : ∀ (other : List (List Edge)) (otherNodes : Nat), other.length = forward.length →
    otherNodes < UInt32.size → layout.encode forward nodes = layout.encode other otherNodes →
      forward = other ∧ (layout.selfLoops = true → nodes = otherNodes)

section OneLayout

variable {layout : Layout} {tied : Finset Nat} (ties : layout.Ties tied)

include ties

theorem Ties.hasPlaces : layout.HasPlaces tied where
  tied_lt := ties.lt_forward
  channelCount_eq := ties.channelCount_eq
  reverseChannel_tied := fun _ member => ties.reverseChannel_of_mem member
  ascending := ties.strictMonoOn_reverseChannel
  ontoReverse := ties.bijOn_reverseChannel
  role_iff := by
    intro channel within role
    refine ⟨?_, ties.role_eq_of_hasRole⟩
    rintro rfl
    exact ties.hasRole_role within
  shown := by
    intro channels channel edges role found has
    simp only [Command.channelLines, List.getElem?_map, List.getElem?_zipIdx, found,
      Option.map_some, Nat.zero_add, ties.role_eq_of_hasRole has]

theorem Ties.laysOut {forward : List (List Edge)} {nodes : Nat}
    (sized : forward.length = layout.forward) (few : nodes < UInt32.size) :
    layout.LaysOut tied forward nodes := by
  have loops : Channel.selfLoops nodes =
      (List.range nodes).map fun node => ⟨node.toUInt32, node.toUInt32⟩ := by
    rw [Channel.selfLoops, Nat.mod_eq_of_lt few]
  refine ⟨ties.length_encode nodes sized, ?_, ?_, ?_, ?_, ?_, ?_⟩
  · intro kind edges found member
    rw [ties.getElem?_encode_forward nodes found, if_pos member]
  · intro kind edges found untied
    rw [ties.getElem?_encode_forward nodes found, if_neg untied]
  · intro kind edges found untied
    exact ties.getElem?_encode_reverse nodes sized found untied
  · intro looped
    rw [← loops]
    exact getLast?_encode_of_selfLoops looped forward nodes
  · rw [ties.getElem?_encode_last nodes sized, loops]
    cases layout.selfLoops <;> simp
  · intro other otherNodes otherSized otherFew same
    refine ⟨ties.encode_injective nodes sized (otherSized.trans sized) same, ?_⟩
    intro looped
    have last := congrArg List.getLast? same
    rw [getLast?_encode_of_selfLoops looped, getLast?_encode_of_selfLoops looped,
      Option.some.injEq] at last
    exact selfLoops_injective few otherFew last

end OneLayout

end DefectGraphs.Channel.Layout
