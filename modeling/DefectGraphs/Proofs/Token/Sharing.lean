import DefectGraphs.Proofs.Token.Cache
import Mathlib.Data.Finset.Card

/-!
Lookups that share one cache and take their steps in any order. Each of them answers with the
embedding's own vector, after two steps at the latest, and the embedding is asked once for each
descriptor, however many lookups missed it at the same time.
-/

namespace DefectGraphs.Token

inductive Stage where
  | probing
  | settling
  | answered (vector : Row)

namespace Stage

def stepsLeft : Stage → Nat
  | .probing => 2
  | .settling => 1
  | .answered _ => 0

theorem exists_answered {stage : Stage} (done : stage.stepsLeft = 0) :
    ∃ vector, stage = .answered vector := by
  cases stage with
  | probing => cases done
  | settling => cases done
  | answered vector => exact ⟨vector, rfl⟩

end Stage

structure Lookup where
  descriptor : String
  stage : Stage

namespace Lookup

def ofDescriptor (descriptor : String) : Lookup :=
  ⟨descriptor, .probing⟩

def step (embedding : Embedding) (cache : Cache) (lookup : Lookup) : Lookup × Cache :=
  match lookup.stage with
  | .probing =>
    match cache.probe lookup.descriptor with
    | some vector => (⟨lookup.descriptor, .answered vector⟩, cache)
    | none => (⟨lookup.descriptor, .settling⟩, cache)
  | .settling =>
    let (vector, cache) := cache.settle embedding lookup.descriptor
    (⟨lookup.descriptor, .answered vector⟩, cache)
  | .answered _ => (lookup, cache)

end Lookup

structure Sharing where
  cache : Cache
  lookups : List Lookup

namespace Sharing

def ofDescriptors (descriptors : List String) : Sharing :=
  ⟨.empty, descriptors.map .ofDescriptor⟩

def advance (embedding : Embedding) (sharing : Sharing) (place : Nat) : Sharing :=
  match sharing.lookups[place]? with
  | none => sharing
  | some lookup =>
    let (lookup, cache) := lookup.step embedding sharing.cache
    ⟨cache, sharing.lookups.set place lookup⟩

/-- A schedule tells which lookup takes the next step, over and over. -/
def run (embedding : Embedding) (sharing : Sharing) (schedule : List Nat) : Sharing :=
  schedule.foldl (advance embedding) sharing

@[simp] theorem run_nil (embedding : Embedding) (sharing : Sharing) :
    sharing.run embedding [] = sharing := rfl

@[simp] theorem run_cons (embedding : Embedding) (sharing : Sharing) (place : Nat)
    (schedule : List Nat) :
    sharing.run embedding (place :: schedule) =
      (sharing.advance embedding place).run embedding schedule := rfl

end Sharing

namespace Cache

variable {embedding : Embedding}

theorem settle_eq_lookup (cache : Cache) (embedding : Embedding) (descriptor : String) :
    cache.settle embedding descriptor = cache.lookup embedding descriptor := by
  unfold lookup
  cases found : cache.probe descriptor with
  | none => rfl
  | some vector =>
      unfold probe at found
      simp only [settle, found]

def Counted (cache : Cache) : Prop :=
  cache.size = cache.queries

theorem counted_empty : Counted empty := rfl

theorem Counted.lookup {cache : Cache} (counted : cache.Counted) (descriptor : String) :
    (cache.lookup embedding descriptor).2.Counted := by
  cases found : cache.probe descriptor with
  | some vector => rwa [lookup_of_probe found]
  | none =>
      unfold probe at found
      have missing : descriptor ∉ cache.vectors := by
        simpa using found
      unfold Counted Cache.size at counted ⊢
      rw [lookup_of_probe_none found, Std.HashMap.size_insert, if_neg missing, counted]

theorem size_eq_card {cache : Cache} {descriptors : Finset String}
    (held : ∀ descriptor, (∃ vector, cache.probe descriptor = some vector) ↔
      descriptor ∈ descriptors) : cache.size = descriptors.card := by
  have keys : cache.vectors.keys.toFinset = descriptors := by
    ext descriptor
    rw [List.mem_toFinset, Std.HashMap.mem_keys, ← held, Std.HashMap.mem_iff_isSome_getElem?,
      Option.isSome_iff_exists]
    rfl
  have distinct : cache.vectors.keys.Nodup :=
    Std.HashMap.distinct_keys.imp fun apart => by simpa using apart
  rw [← keys, List.toFinset_card_of_nodup distinct, Std.HashMap.length_keys, Cache.size]

end Cache

namespace Lookup

variable {embedding : Embedding} {cache : Cache}

theorem descriptor_step (lookup : Lookup) :
    (lookup.step embedding cache).1.descriptor = lookup.descriptor := by
  unfold step
  split
  · split <;> rfl
  · rfl
  · rfl

theorem stepsLeft_step (lookup : Lookup) :
    (lookup.step embedding cache).1.stage.stepsLeft ≤ lookup.stage.stepsLeft - 1 := by
  unfold step
  split
  next probing =>
    rw [probing]
    split <;> simp [Stage.stepsLeft]
  next settling =>
    rw [settling]
    rfl
  next answered =>
    rw [answered]
    exact Nat.le_refl 0

/-- All that a step can do: it leaves the cache alone, or looks the descriptor up in it. An answer
is there afterwards. -/
theorem step_spec (embedding : Embedding) (cache : Cache) (lookup : Lookup) :
    ((lookup.step embedding cache).2 = cache ∨
      (lookup.step embedding cache).2 = (cache.lookup embedding lookup.descriptor).2) ∧
      ∀ vector, (lookup.step embedding cache).1.stage = .answered vector →
        lookup.stage = .answered vector ∨
          (lookup.step embedding cache).2.probe lookup.descriptor = some vector := by
  unfold step
  split
  next =>
    split
    next found =>
      refine ⟨.inl rfl, ?_⟩
      rintro _ ⟨⟩
      exact .inr found
    next =>
      refine ⟨.inl rfl, ?_⟩
      rintro _ ⟨⟩
  next =>
    -- Another lookup may have settled the same descriptor since this one missed it. Settling looks
    -- again, so it is a lookup whatever has happened in between.
    rw [Cache.settle_eq_lookup]
    refine ⟨.inr rfl, ?_⟩
    intro vector same
    right
    rw [← Stage.answered.inj same, Cache.probe_lookup, if_pos rfl]
  next answered =>
    refine ⟨.inl rfl, ?_⟩
    intro vector same
    exact .inl same

theorem keeps_step {motive : Cache → Prop} (lookup : Lookup) (holds : motive cache)
    (looked : motive (cache.lookup embedding lookup.descriptor).2) :
    motive (lookup.step embedding cache).2 := by
  cases (lookup.step_spec embedding cache).1 with
  | inl same => rwa [same]
  | inr same => rwa [same]

theorem extends_step (lookup : Lookup) : cache.Extends (lookup.step embedding cache).2 := by
  apply lookup.keeps_step (motive := cache.Extends)
  · exact fun _ _ => id
  · exact Cache.extends_lookup cache embedding lookup.descriptor

/-- Two steps of a lookup that nothing comes between are the lookup in one go. -/
theorem step_step (embedding : Embedding) (cache : Cache) (descriptor : String) :
    let first := (ofDescriptor descriptor).step embedding cache
    first.1.step embedding first.2 =
      (⟨descriptor, .answered (cache.lookup embedding descriptor).1⟩,
        (cache.lookup embedding descriptor).2) := by
  cases found : cache.probe descriptor with
  | some vector => simp [step, ofDescriptor, found, Cache.lookup_of_probe found]
  | none => simp [step, ofDescriptor, found, Cache.settle_eq_lookup]

end Lookup

namespace Sharing

variable {embedding : Embedding} {sharing : Sharing}

theorem lookups_advance {place : Nat} {lookup : Lookup}
    (there : sharing.lookups[place]? = some lookup) :
    sharing.advance embedding place =
      ⟨(lookup.step embedding sharing.cache).2,
        sharing.lookups.set place (lookup.step embedding sharing.cache).1⟩ := by
  simp only [advance, there]

theorem advance_of_none {place : Nat} (beyond : sharing.lookups[place]? = none) :
    sharing.advance embedding place = sharing := by
  simp only [advance, beyond]

/-- What holds at every moment: the cache has the embedding's own vectors of some of the descriptors,
each asked for once, and all answers among them. -/
structure Coherent (embedding : Embedding) (descriptors : List String) (sharing : Sharing) :
    Prop where
  descriptors_eq : sharing.lookups.map Lookup.descriptor = descriptors
  faithful : sharing.cache.Faithful embedding
  counted : sharing.cache.Counted
  wanted : ∀ descriptor vector, sharing.cache.probe descriptor = some vector →
    descriptor ∈ descriptors
  answers : ∀ lookup ∈ sharing.lookups, ∀ vector, lookup.stage = .answered vector →
    sharing.cache.probe lookup.descriptor = some vector

namespace Coherent

variable {descriptors : List String}

theorem ofDescriptors (embedding : Embedding) (descriptors : List String) :
    Coherent embedding descriptors (.ofDescriptors descriptors) where
  descriptors_eq := by
    simp [Sharing.ofDescriptors, Lookup.ofDescriptor, Function.comp_def]
  faithful := Cache.faithful_empty embedding
  counted := Cache.counted_empty
  wanted := by
    intro descriptor vector found
    simp [Sharing.ofDescriptors, Cache.probe, Cache.empty] at found
  answers := by
    intro lookup member vector answered
    obtain ⟨descriptor, -, rfl⟩ := List.mem_map.mp member
    cases answered

theorem advance (coherent : Coherent embedding descriptors sharing) (place : Nat) :
    Coherent embedding descriptors (sharing.advance embedding place) := by
  cases there : sharing.lookups[place]? with
  | none => rwa [advance_of_none there]
  | some lookup =>
      have member : lookup ∈ sharing.lookups := List.mem_of_getElem? there
      have listed : lookup.descriptor ∈ descriptors := by
        rw [← coherent.descriptors_eq]
        exact List.mem_map_of_mem member
      rw [lookups_advance there]
      refine ⟨?_, ?_, ?_, ?_, ?_⟩
      · obtain ⟨within, rfl⟩ := List.getElem?_eq_some_iff.mp there
        rw [List.map_set, Lookup.descriptor_step, ← List.map_set, List.set_getElem_self,
          coherent.descriptors_eq]
      · apply lookup.keeps_step (motive := Cache.Faithful embedding) coherent.faithful
        exact coherent.faithful.lookup lookup.descriptor
      · apply lookup.keeps_step (motive := Cache.Counted) coherent.counted
        exact coherent.counted.lookup lookup.descriptor
      · apply lookup.keeps_step (motive := fun cache => ∀ descriptor vector,
          cache.probe descriptor = some vector → descriptor ∈ descriptors) coherent.wanted
        intro descriptor vector found
        rw [Cache.probe_lookup] at found
        split at found
        next same => rwa [← same]
        next => exact coherent.wanted descriptor vector found
      · -- Answers that were given before stay in the cache, since it only grows.
        intro other present vector answered
        rcases List.mem_or_eq_of_mem_set present with before | rfl
        · exact lookup.extends_step _ _ (coherent.answers other before vector answered)
        · rw [Lookup.descriptor_step]
          cases (lookup.step_spec embedding sharing.cache).2 vector answered with
          | inl before =>
              exact lookup.extends_step _ _ (coherent.answers lookup member vector before)
          | inr found => exact found

theorem run (coherent : Coherent embedding descriptors sharing) (schedule : List Nat) :
    Coherent embedding descriptors (sharing.run embedding schedule) := by
  induction schedule generalizing sharing with
  | nil => exact coherent
  | cons place rest induction => exact induction (coherent.advance place)

theorem answer_eq (coherent : Coherent embedding descriptors sharing) {lookup : Lookup}
    (member : lookup ∈ sharing.lookups) {vector : Row} (answered : lookup.stage = .answered vector) :
    embedding.vector lookup.descriptor = vector :=
  coherent.faithful _ _ (coherent.answers lookup member vector answered)

theorem probe_eq (coherent : Coherent embedding descriptors sharing)
    (finished : ∀ lookup ∈ sharing.lookups, ∃ vector, lookup.stage = .answered vector)
    (descriptor : String) :
    sharing.cache.probe descriptor =
      if descriptor ∈ descriptors then some (embedding.vector descriptor) else none := by
  split
  next listed =>
    rw [← coherent.descriptors_eq] at listed
    obtain ⟨lookup, member, rfl⟩ := List.mem_map.mp listed
    obtain ⟨vector, answered⟩ := finished lookup member
    rw [coherent.answers lookup member vector answered, coherent.answer_eq member answered]
  next unlisted =>
    cases found : sharing.cache.probe descriptor with
    | none => rfl
    | some vector => exact absurd (coherent.wanted descriptor vector found) unlisted

end Coherent

theorem getElem?_advance (embedding : Embedding) (sharing : Sharing) (place other : Nat)
    {lookup : Lookup}
    (there : sharing.lookups[other]? = some lookup) :
    ∃ later, (sharing.advance embedding place).lookups[other]? = some later ∧
      later.stage.stepsLeft ≤ lookup.stage.stepsLeft - if place = other then 1 else 0 := by
  by_cases same : place = other
  · subst same
    have within := (List.getElem?_eq_some_iff.mp there).1
    rw [lookups_advance there, if_pos rfl]
    exact ⟨_, List.getElem?_set_self within, lookup.stepsLeft_step⟩
  · rw [if_neg same]
    cases stepping : sharing.lookups[place]? with
    | none =>
        rw [advance_of_none stepping]
        exact ⟨lookup, there, Nat.le_refl _⟩
    | some first =>
        rw [lookups_advance stepping]
        refine ⟨lookup, ?_, Nat.le_refl _⟩
        rw [← there]
        exact List.getElem?_set_ne same

theorem getElem?_run (embedding : Embedding) (sharing : Sharing) (schedule : List Nat)
    (place : Nat) {lookup : Lookup} (there : sharing.lookups[place]? = some lookup) :
    ∃ later, (sharing.run embedding schedule).lookups[place]? = some later ∧
      later.stage.stepsLeft ≤ lookup.stage.stepsLeft - schedule.count place := by
  induction schedule generalizing sharing lookup with
  | nil => exact ⟨lookup, there, Nat.le_refl _⟩
  | cons first rest induction =>
      obtain ⟨next, stepped, fewer⟩ := getElem?_advance embedding sharing first place there
      obtain ⟨later, reached, fewest⟩ := induction _ stepped
      refine ⟨later, reached, ?_⟩
      rw [List.count_cons]
      simp only [beq_iff_eq]
      omega

theorem advance_append (cache : Cache) (done : List Lookup) (lookup : Lookup) (rest : List Lookup) :
    advance embedding ⟨cache, done ++ lookup :: rest⟩ done.length =
      ⟨(lookup.step embedding cache).2, done ++ (lookup.step embedding cache).1 :: rest⟩ := by
  have there : (done ++ lookup :: rest)[done.length]? = some lookup := by simp
  rw [lookups_advance there]
  simp

/-- Lookups one after the other are a schedule among others. -/
theorem exists_run_eq_lookupAll (embedding : Embedding) (cache : Cache) (done : List Lookup)
    (descriptors : List String) :
    ∃ schedule, run embedding ⟨cache, done ++ descriptors.map .ofDescriptor⟩ schedule =
      ⟨(cache.lookupAll embedding descriptors).2,
        done ++ List.zipWith (fun descriptor vector => ⟨descriptor, .answered vector⟩) descriptors
          (cache.lookupAll embedding descriptors).1⟩ := by
  induction descriptors generalizing cache done with
  | nil => exact ⟨[], by simp [Cache.lookupAll]⟩
  | cons descriptor rest induction =>
      obtain ⟨schedule, reached⟩ := induction (cache.lookup embedding descriptor).2
        (done ++ [⟨descriptor, .answered (cache.lookup embedding descriptor).1⟩])
      refine ⟨done.length :: done.length :: schedule, ?_⟩
      have stepped := Lookup.step_step embedding cache descriptor
      dsimp only at stepped
      rw [List.map_cons, run_cons, run_cons, advance_append, advance_append, stepped]
      simpa [Cache.lookupAll] using reached

/-- What lookups that share a cache come to under a schedule of their steps. -/
structure Transparent (embedding : Embedding) (descriptors : List String) (schedule : List Nat)
    (reached : Sharing) : Prop where
  descriptors_eq : reached.lookups.map Lookup.descriptor = descriptors
  answers : ∀ lookup ∈ reached.lookups, ∀ vector, lookup.stage = .answered vector →
    vector = embedding.vector lookup.descriptor
  cached : ∀ descriptor vector, reached.cache.probe descriptor = some vector →
    vector = embedding.vector descriptor
  size_eq_queries : reached.cache.size = reached.cache.queries
  /-- Two steps of its own are enough for a lookup, whatever the others do. -/
  returns : ∀ place lookup, reached.lookups[place]? = some lookup → 2 ≤ schedule.count place →
    lookup.stage = .answered (embedding.vector lookup.descriptor)
  finished : (∀ lookup ∈ reached.lookups, ∃ vector, lookup.stage = .answered vector) →
    reached.cache.size = descriptors.toFinset.card ∧
      reached.cache.queries = descriptors.toFinset.card ∧
      ∀ descriptor, reached.cache.probe descriptor =
        if descriptor ∈ descriptors then some (embedding.vector descriptor) else none

/-- No schedule shows in the answers, in the counts or in what is cached in the end. One of the
schedules is that of lookups one after the other. -/
theorem run_transparent (embedding : Embedding) (descriptors : List String) :
    (∀ schedule, Transparent embedding descriptors schedule
      ((ofDescriptors descriptors).run embedding schedule)) ∧
      ∃ schedule, (ofDescriptors descriptors).run embedding schedule =
        ⟨(Cache.empty.lookupAll embedding descriptors).2,
          List.zipWith (fun descriptor vector => ⟨descriptor, .answered vector⟩) descriptors
            (Cache.empty.lookupAll embedding descriptors).1⟩ := by
  refine ⟨?_, exists_run_eq_lookupAll embedding .empty [] descriptors⟩
  intro schedule
  have coherent := (Coherent.ofDescriptors embedding descriptors).run schedule
  refine ⟨coherent.descriptors_eq, ?_, ?_, coherent.counted, ?_, ?_⟩
  · intro lookup member vector answered
    exact (coherent.answer_eq member answered).symm
  · intro descriptor vector found
    exact (coherent.faithful descriptor vector found).symm
  · intro place lookup there twice
    have placed : place < descriptors.length := by
      rw [← coherent.descriptors_eq, List.length_map]
      exact (List.getElem?_eq_some_iff.mp there).1
    have begun : (ofDescriptors descriptors).lookups[place]? =
        some (.ofDescriptor descriptors[place]) := by
      simp [ofDescriptors, placed]
    obtain ⟨later, reached, fewer⟩ := getElem?_run embedding _ schedule place begun
    obtain rfl : lookup = later := Option.some.inj (there.symm.trans reached)
    have none : lookup.stage.stepsLeft = 0 := by
      change lookup.stage.stepsLeft ≤ 2 - schedule.count place at fewer
      omega
    obtain ⟨vector, answered⟩ := Stage.exists_answered none
    rw [answered, coherent.answer_eq (List.mem_of_getElem? there) answered]
  · intro finished
    have held := coherent.probe_eq finished
    have size : ((ofDescriptors descriptors).run embedding schedule).cache.size =
        descriptors.toFinset.card := by
      apply Cache.size_eq_card
      intro descriptor
      rw [held, List.mem_toFinset]
      simp
    exact ⟨size, coherent.counted.symm.trans size, held⟩

end Sharing

end DefectGraphs.Token
