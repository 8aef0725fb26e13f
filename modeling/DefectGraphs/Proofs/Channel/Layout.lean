import DefectGraphs.Channel.Layout
import Mathlib.Data.Finset.Card
import Mathlib.Data.Nat.Count
import Mathlib.Data.Set.Function
import Mathlib.Order.Monotone.Defs

/-!
One layout, told in four ways: by the number of channels, by the place of a relation's flipped edges,
by the edges in each channel, and by the role that is read off a channel's place.
-/

namespace DefectGraphs.Channel

/-! The rank of a number among those with a property. -/

theorem exists_count_eq {p : Nat → Prop} [DecidablePred p] {bound rank : Nat}
    (below : rank < Nat.count p bound) :
    ∃ number < bound, p number ∧ Nat.count p number = rank := by
  induction bound with
  | zero => simp at below
  | succ bound induction =>
      by_cases earlier : rank < Nat.count p bound
      · obtain ⟨number, bounded, holds⟩ := induction earlier
        exact ⟨number, by omega, holds⟩
      · rw [Nat.count_succ] at below
        by_cases holds : p bound
        · rw [if_pos holds] at below
          exact ⟨bound, by omega, holds, by omega⟩
        · rw [if_neg holds] at below
          omega

theorem length_filter_range (p : Nat → Bool) (bound : Nat) :
    ((List.range bound).filter p).length = Nat.count (fun number => p number = true) bound := by
  rw [← List.countP_eq_length_filter, Nat.count]
  simp

/-- A filtered list has an element after as many as pass the filter before it. -/
theorem getElem?_filter_take {p : α → Bool} {elements : List α} {place : Nat} {element : α}
    (found : elements[place]? = some element) (passes : p element = true) :
    (elements.filter p)[((elements.take place).filter p).length]? = some element := by
  obtain ⟨within, rfl⟩ := List.getElem?_eq_some_iff.mp found
  have whole : elements = elements.take place ++ elements[place] :: elements.drop (place + 1) := by
    rw [List.getElem_cons_drop, List.take_append_drop]
  conv_lhs => arg 1; rw [whole]
  rw [List.filter_append, List.getElem?_append_right (Nat.le_refl _), Nat.sub_self,
    List.filter_cons_of_pos passes, List.getElem?_cons_zero]

/-- The forward relations, out of a number of them, that a tie ties. -/
def Tie.kinds (forward : Nat) : Tie → Finset Nat
  | .all true => Finset.range forward
  | .all false => ∅
  | .only indices => indices.toFinset.filter (· < forward)

theorem Tie.mem_kinds_iff (tie : Tie) (forward index : Nat) :
    index ∈ tie.kinds forward ↔ index < forward ∧ tie.covers index = true := by
  cases tie with
  | all tied => cases tied <;> simp [kinds, covers]
  | only indices => simp [kinds, covers, and_comm]

namespace Layout

/-- The layout ties just these relations, all of which it has. -/
structure Ties (layout : Layout) (tied : Finset Nat) : Prop where
  isTied_iff : ∀ kind, layout.isTied kind = true ↔ kind ∈ tied
  length_tied : layout.tied.length = tied.card
  lt_forward : ∀ kind ∈ tied, kind < layout.forward

theorem ties_ofTie (forward : Nat) (tie : Tie) (selfLoops : Bool) :
    (ofTie forward tie selfLoops).Ties (tie.kinds forward) where
  isTied_iff := by
    intro kind
    rw [isTied, List.contains_iff_mem, Tie.mem_kinds_iff]
    simp [ofTie]
  length_tied := by
    have same : tie.kinds forward = (ofTie forward tie selfLoops).tied.toFinset := by
      ext kind
      rw [List.mem_toFinset, Tie.mem_kinds_iff]
      simp [ofTie]
    rw [same, List.toFinset_card_of_nodup]
    exact List.nodup_range.filter _
  lt_forward := fun kind member => ((tie.mem_kinds_iff forward kind).mp member).1

/-- What the edges of a channel are, told from the relations. -/
inductive HasRole (layout : Layout) (tied : Finset Nat) : Nat → Role → Prop
  | forward (kind : Nat) : kind < layout.forward → kind ∉ tied → HasRole layout tied kind .forward
  | forwardAndReverse (kind : Nat) : kind ∈ tied → HasRole layout tied kind .forwardAndReverse
  | reverse (kind : Nat) : kind < layout.forward → kind ∉ tied →
      HasRole layout tied (layout.reverseChannel kind) .reverse
  | selfLoop : layout.selfLoops = true →
      HasRole layout tied (2 * layout.forward - tied.card) .selfLoop

section Places

variable {layout : Layout} {tied : Finset Nat} (ties : layout.Ties tied)

include ties

theorem Ties.card_le : tied.card ≤ layout.forward := by
  have within : tied ⊆ Finset.range layout.forward := fun kind member =>
    Finset.mem_range.mpr (ties.lt_forward kind member)
  simpa using Finset.card_le_card within

theorem Ties.channelCount_eq :
    layout.channelCount =
      2 * layout.forward - tied.card + (if layout.selfLoops then 1 else 0) := by
  have := ties.card_le
  rw [channelCount, ties.length_tied]
  omega

theorem Ties.reverseChannel_of_mem {kind : Nat} (member : kind ∈ tied) :
    layout.reverseChannel kind = kind := by
  rw [reverseChannel, if_pos ((ties.isTied_iff kind).mpr member)]

theorem Ties.isTied_eq_false {kind : Nat} (untied : kind ∉ tied) : layout.isTied kind = false := by
  rw [← Bool.not_eq_true, ties.isTied_iff]
  exact untied

theorem Ties.reverseChannel_of_notMem {kind : Nat} (untied : kind ∉ tied) :
    layout.reverseChannel kind = layout.forward + Nat.count (· ∉ tied) kind := by
  rw [reverseChannel, ties.isTied_eq_false untied, length_filter_range]
  simp [Nat.count, ← ties.isTied_iff]

/-- The relations that are not tied fill the reverse channels. -/
theorem Ties.count_untied : Nat.count (· ∉ tied) layout.forward = layout.forward - tied.card := by
  have same : (Finset.range layout.forward).filter (· ∉ tied) =
      Finset.range layout.forward \ tied := by
    ext kind
    simp
  have within : tied ⊆ Finset.range layout.forward := fun kind member =>
    Finset.mem_range.mpr (ties.lt_forward kind member)
  rw [Nat.count_eq_card_filter_range, same, Finset.card_sdiff_of_subset within, Finset.card_range]

theorem Ties.strictMonoOn_reverseChannel :
    StrictMonoOn layout.reverseChannel {kind | kind < layout.forward ∧ kind ∉ tied} := by
  rintro first ⟨-, firstUntied⟩ second ⟨-, secondUntied⟩ before
  rw [ties.reverseChannel_of_notMem firstUntied, ties.reverseChannel_of_notMem secondUntied]
  exact Nat.add_lt_add_left (Nat.count_strict_mono firstUntied before) _

theorem Ties.bijOn_reverseChannel :
    Set.BijOn layout.reverseChannel {kind | kind < layout.forward ∧ kind ∉ tied}
      (Set.Ico layout.forward (2 * layout.forward - tied.card)) := by
  have counted := ties.count_untied
  have fewer := ties.card_le
  refine ⟨?_, ties.strictMonoOn_reverseChannel.injOn, ?_⟩
  · rintro kind ⟨within, untied⟩
    have ranked : Nat.count (· ∉ tied) kind < Nat.count (· ∉ tied) layout.forward :=
      Nat.count_strict_mono untied within
    rw [ties.reverseChannel_of_notMem untied, Set.mem_Ico]
    omega
  · rintro channel ⟨after, before⟩
    have ranked : channel - layout.forward < Nat.count (· ∉ tied) layout.forward := by omega
    obtain ⟨kind, within, untied, place⟩ := exists_count_eq ranked
    refine ⟨kind, ⟨within, untied⟩, ?_⟩
    rw [ties.reverseChannel_of_notMem untied, place]
    omega

end Places

section Encode

variable {layout : Layout} {tied : Finset Nat} (ties : layout.Ties tied)
  {forward : List (List Edge)} (nodes : Nat)

def forwardChannels (layout : Layout) (forward : List (List Edge)) : List (List Edge) :=
  forward.zipIdx.map fun (edges, kind) =>
    if layout.isTied kind then edges ++ edges.map Edge.flip else edges

/-- The relations that have a channel for their flipped edges, with their places. -/
def untiedKinds (layout : Layout) (forward : List (List Edge)) : List (List Edge × Nat) :=
  forward.zipIdx.filter fun (_, kind) => !layout.isTied kind

def reverseChannels (layout : Layout) (forward : List (List Edge)) : List (List Edge) :=
  (layout.untiedKinds forward).map fun (edges, _) => edges.map Edge.flip

theorem encode_eq (layout : Layout) (forward : List (List Edge)) (nodes : Nat) :
    layout.encode forward nodes =
      layout.forwardChannels forward ++ layout.reverseChannels forward ++
        (if layout.selfLoops then [Channel.selfLoops nodes] else []) := rfl

@[simp] theorem length_forwardChannels (layout : Layout) (forward : List (List Edge)) :
    (layout.forwardChannels forward).length = forward.length := by
  simp [forwardChannels]

include ties

theorem Ties.length_filter_untied {pairs : List (List Edge × Nat)} {bound : Nat}
    (numbered : pairs.map Prod.snd = List.range bound) :
    (pairs.filter fun (_, kind) => !layout.isTied kind).length = Nat.count (· ∉ tied) bound := by
  have kinds : (pairs.filter fun (_, kind) => !layout.isTied kind).map Prod.snd =
      (List.range bound).filter (!layout.isTied ·) := by
    rw [← numbered, List.filter_map]
    rfl
  rw [← List.length_map (f := Prod.snd), kinds, length_filter_range]
  simp [Nat.count, ← ties.isTied_iff]

theorem Ties.length_reverseChannels (sized : forward.length = layout.forward) :
    (layout.reverseChannels forward).length = layout.forward - tied.card := by
  rw [reverseChannels, List.length_map, untiedKinds, ← ties.count_untied, ← sized]
  exact ties.length_filter_untied (by rw [List.zipIdx_map_snd, List.range_eq_range'])

theorem Ties.length_encode (sized : forward.length = layout.forward) :
    (layout.encode forward nodes).length = layout.channelCount := by
  have fewer := ties.card_le
  rw [ties.channelCount_eq, encode_eq, List.length_append, List.length_append,
    length_forwardChannels, ties.length_reverseChannels sized, sized]
  cases layout.selfLoops <;> simp <;> omega

theorem Ties.getElem?_encode_forward {kind : Nat} {edges : List Edge}
    (found : forward[kind]? = some edges) :
    (layout.encode forward nodes)[kind]? =
      some (if kind ∈ tied then edges ++ edges.map Edge.flip else edges) := by
  have within := (List.getElem?_eq_some_iff.mp found).1
  rw [encode_eq, List.append_assoc, List.getElem?_append_left (by simpa using within)]
  simp [forwardChannels, found, ← ties.isTied_iff]

/-- The flipped edges of an untied relation come after those of the untied relations before it. -/
theorem Ties.getElem?_encode_reverse (sized : forward.length = layout.forward) {kind : Nat}
    {edges : List Edge} (found : forward[kind]? = some edges) (untied : kind ∉ tied) :
    (layout.encode forward nodes)[layout.reverseChannel kind]? = some (edges.map Edge.flip) := by
  have within := (List.getElem?_eq_some_iff.mp found).1
  have listed : forward.zipIdx[kind]? = some (edges, kind) := by
    simp [found]
  have passed : ((forward.zipIdx.take kind).filter fun (_, kind) => !layout.isTied kind).length =
      Nat.count (· ∉ tied) kind := by
    apply ties.length_filter_untied
    rw [List.map_take, List.zipIdx_map_snd, ← List.range_eq_range', List.take_range,
      Nat.min_eq_left (Nat.le_of_lt within)]
  have reached := getElem?_filter_take (p := fun (_, kind) => !layout.isTied kind) listed
    (by simp [ties.isTied_eq_false untied])
  rw [passed] at reached
  have inside := (List.getElem?_eq_some_iff.mp reached).1
  rw [ties.reverseChannel_of_notMem untied, encode_eq,
    List.getElem?_append_left (by simp [reverseChannels, untiedKinds, sized]; omega),
    List.getElem?_append_right (by simp [sized]), length_forwardChannels, sized,
    Nat.add_sub_cancel_left, reverseChannels, List.getElem?_map, untiedKinds, reached,
    Option.map_some]

theorem Ties.getElem?_encode_last (sized : forward.length = layout.forward) :
    (layout.encode forward nodes)[2 * layout.forward - tied.card]? =
      if layout.selfLoops then some (Channel.selfLoops nodes) else none := by
  have fewer := ties.card_le
  have before : (layout.forwardChannels forward ++ layout.reverseChannels forward).length =
      2 * layout.forward - tied.card := by
    rw [List.length_append, length_forwardChannels, ties.length_reverseChannels sized, sized]
    omega
  rw [encode_eq, List.getElem?_append_right (Nat.le_of_eq before), before, Nat.sub_self]
  cases layout.selfLoops <;> simp

/-- The edges of the relations can be told from those of the channels. -/
theorem Ties.encode_injective {other : List (List Edge)} {otherNodes : Nat}
    (sized : forward.length = layout.forward) (otherSized : other.length = layout.forward)
    (same : layout.encode forward nodes = layout.encode other otherNodes) : forward = other := by
  apply List.ext_getElem?
  intro kind
  rcases Nat.lt_or_ge kind layout.forward with within | beyond
  · have mine := List.getElem?_eq_getElem (l := forward) (i := kind) (by omega)
    have theirs := List.getElem?_eq_getElem (l := other) (i := kind) (by omega)
    have channels := (ties.getElem?_encode_forward nodes mine).symm.trans
      (same ▸ ties.getElem?_encode_forward otherNodes theirs)
    rw [mine, theirs]
    by_cases member : kind ∈ tied
    · simp only [if_pos member, Option.some.injEq] at channels ⊢
      have lengths := congrArg List.length channels
      simp only [List.length_append, List.length_map] at lengths
      exact (List.append_inj channels (by omega)).1
    · simpa only [if_neg member] using channels
  · rw [List.getElem?_eq_none (by omega), List.getElem?_eq_none (by omega)]

end Encode

section Roles

variable {layout : Layout} {tied : Finset Nat} (ties : layout.Ties tied)

include ties

theorem Ties.role_forward {kind : Nat} (within : kind < layout.forward) :
    layout.role kind = if kind ∈ tied then .forwardAndReverse else .forward := by
  rw [role, if_pos within]
  simp only [ties.isTied_iff]

theorem Ties.role_reverse {channel : Nat} (after : layout.forward ≤ channel)
    (before : channel < 2 * layout.forward - tied.card) : layout.role channel = .reverse := by
  rw [role, if_neg (by omega), ties.channelCount_eq]
  cases layout.selfLoops
  · rfl
  · simp
    omega

theorem Ties.role_last (looped : layout.selfLoops = true) :
    layout.role (2 * layout.forward - tied.card) = .selfLoop := by
  have fewer := ties.card_le
  rw [role, if_neg (by omega), ties.channelCount_eq]
  simp [looped]

theorem Ties.role_eq_of_hasRole {channel : Nat} {role : Role}
    (has : layout.HasRole tied channel role) : layout.role channel = role := by
  cases has with
  | forward kind isForward untied => rw [ties.role_forward isForward, if_neg untied]
  | forwardAndReverse kind member =>
      rw [ties.role_forward (ties.lt_forward channel member), if_pos member]
  | reverse kind isForward untied =>
      obtain ⟨after, before⟩ := ties.bijOn_reverseChannel.mapsTo ⟨isForward, untied⟩
      exact ties.role_reverse after before
  | selfLoop looped => exact ties.role_last looped

theorem Ties.hasRole_role {channel : Nat} (within : channel < layout.channelCount) :
    layout.HasRole tied channel (layout.role channel) := by
  rcases Nat.lt_or_ge channel layout.forward with isForward | after
  · rw [ties.role_forward isForward]
    by_cases member : channel ∈ tied
    · rw [if_pos member]
      exact .forwardAndReverse channel member
    · rw [if_neg member]
      exact .forward channel isForward member
  · rcases Nat.lt_or_ge channel (2 * layout.forward - tied.card) with before | last
    · rw [ties.role_reverse after before]
      obtain ⟨kind, ⟨isForward, untied⟩, rfl⟩ := ties.bijOn_reverseChannel.surjOn ⟨after, before⟩
      exact .reverse kind isForward untied
    · rw [ties.channelCount_eq] at within
      cases looped : layout.selfLoops with
      | false =>
          simp only [looped, Bool.false_eq_true, ↓reduceIte] at within
          omega
      | true =>
          simp only [looped, ↓reduceIte] at within
          obtain rfl : channel = 2 * layout.forward - tied.card := by omega
          rw [ties.role_last looped]
          exact .selfLoop looped

end Roles

end Layout

end DefectGraphs.Channel
