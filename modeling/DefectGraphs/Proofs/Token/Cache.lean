import DefectGraphs.Token.Cache

/-!
What lookups do to a cache. They lose nothing, and a cache that holds the embedding's own vectors
answers with these and goes on holding nothing else.
-/

namespace DefectGraphs.Token.Cache

variable {embedding : Embedding} {cache : Cache}

def Extends (before after : Cache) : Prop :=
  ∀ descriptor vector, before.probe descriptor = some vector →
    after.probe descriptor = some vector

/-- All that is there comes from the embedding. -/
def Faithful (embedding : Embedding) (cache : Cache) : Prop :=
  ∀ descriptor vector, cache.probe descriptor = some vector → embedding.vector descriptor = vector

theorem faithful_empty (embedding : Embedding) : Faithful embedding empty := by
  intro descriptor vector found
  simp [probe, empty] at found

theorem lookup_of_probe {descriptor : String} {vector : Row}
    (found : cache.probe descriptor = some vector) :
    cache.lookup embedding descriptor = (vector, cache) := by
  rw [lookup, found]

theorem lookup_of_probe_none {descriptor : String} (missing : cache.probe descriptor = none) :
    cache.lookup embedding descriptor = (embedding.vector descriptor,
      ⟨cache.vectors.insert descriptor (embedding.vector descriptor), cache.queries + 1⟩) := by
  have missing' : cache.vectors[descriptor]? = none := missing
  rw [lookup, missing]
  simp only [settle, missing']

/-- A lookup leaves its answer in the cache, and other descriptors alone. -/
theorem probe_lookup (cache : Cache) (embedding : Embedding) (descriptor other : String) :
    (cache.lookup embedding descriptor).2.probe other =
      if descriptor = other then some (cache.lookup embedding descriptor).1
      else cache.probe other := by
  cases found : cache.probe descriptor with
  | some vector =>
      rw [lookup_of_probe found]
      split
      · rename_i same
        rw [← same, found]
      · rfl
  | none =>
      rw [lookup_of_probe_none found]
      simp [probe, Std.HashMap.getElem?_insert]

theorem extends_lookup (cache : Cache) (embedding : Embedding) (descriptor : String) :
    cache.Extends (cache.lookup embedding descriptor).2 := by
  intro other vector found
  rw [probe_lookup]
  split
  · rename_i same
    rw [same, lookup_of_probe found]
  · exact found

theorem Faithful.lookup_fst (faithful : cache.Faithful embedding) (descriptor : String) :
    (cache.lookup embedding descriptor).1 = embedding.vector descriptor := by
  cases found : cache.probe descriptor with
  | some vector => rw [lookup_of_probe found, faithful descriptor vector found]
  | none => rw [lookup_of_probe_none found]

theorem Faithful.lookup (faithful : cache.Faithful embedding) (descriptor : String) :
    (cache.lookup embedding descriptor).2.Faithful embedding := by
  intro other vector found
  rw [probe_lookup] at found
  split at found
  · rename_i same
    rw [← Option.some.inj found, ← same, faithful.lookup_fst]
  · exact faithful other vector found

theorem lookupAll_append (cache : Cache) (embedding : Embedding) (descriptors others : List String) :
    (cache.lookupAll embedding (descriptors ++ others)).2 =
      ((cache.lookupAll embedding descriptors).2.lookupAll embedding others).2 := by
  induction descriptors generalizing cache with
  | nil => rfl
  | cons descriptor rest induction =>
      rw [List.cons_append, lookupAll, lookupAll]
      exact induction _

/-- The later cache is what lookups made of the earlier one. -/
def Warms (embedding : Embedding) (before after : Cache) : Prop :=
  ∃ descriptors, (before.lookupAll embedding descriptors).2 = after

namespace Warms

variable {before middle after : Cache}

theorem refl (embedding : Embedding) (cache : Cache) : Warms embedding cache cache :=
  ⟨[], rfl⟩

theorem lookupAll (embedding : Embedding) (cache : Cache) (descriptors : List String) :
    Warms embedding cache (cache.lookupAll embedding descriptors).2 :=
  ⟨descriptors, rfl⟩

theorem trans (first : Warms embedding before middle) (second : Warms embedding middle after) :
    Warms embedding before after := by
  obtain ⟨descriptors, rfl⟩ := first
  obtain ⟨others, rfl⟩ := second
  exact ⟨descriptors ++ others, lookupAll_append before embedding descriptors others⟩

theorem induction {motive : Cache → Prop} (warms : Warms embedding before after)
    (holds : motive before)
    (step : ∀ cache descriptor, motive cache → motive (cache.lookup embedding descriptor).2) :
    motive after := by
  obtain ⟨descriptors, rfl⟩ := warms
  induction descriptors generalizing before with
  | nil => exact holds
  | cons descriptor rest induction => exact induction (step before descriptor holds)

theorem keeps (warms : Warms embedding before after) : before.Extends after :=
  warms.induction (fun _ _ => id) fun cache descriptor kept other vector found =>
    extends_lookup cache embedding descriptor other vector (kept other vector found)

theorem faithful (warms : Warms embedding before after) (faithful : before.Faithful embedding) :
    after.Faithful embedding :=
  warms.induction faithful fun _ descriptor faithful => faithful.lookup descriptor

end Warms

/-- A faithful cache answers as the embedding would. -/
theorem Faithful.lookupAll_fst (faithful : cache.Faithful embedding) (descriptors : List String) :
    (cache.lookupAll embedding descriptors).1 = descriptors.map embedding.vector := by
  induction descriptors generalizing cache with
  | nil => rfl
  | cons descriptor rest induction =>
      rw [lookupAll, List.map_cons, ← faithful.lookup_fst, ← induction (faithful.lookup descriptor)]

/-- The order of lookups does not show in what a faithful cache holds after them. -/
theorem Faithful.probe_lookupAll (faithful : cache.Faithful embedding) (descriptors : List String)
    (other : String) :
    (cache.lookupAll embedding descriptors).2.probe other =
      if other ∈ descriptors then some (embedding.vector other) else cache.probe other := by
  induction descriptors generalizing cache with
  | nil => rfl
  | cons descriptor rest induction =>
      rw [lookupAll]
      dsimp only
      rw [induction (faithful.lookup descriptor), probe_lookup, faithful.lookup_fst]
      by_cases later : other ∈ rest
      · rw [if_pos later, if_pos (List.mem_cons_of_mem descriptor later)]
      · rw [if_neg later]
        by_cases same : descriptor = other
        · rw [if_pos same, if_pos (by rw [same]; exact List.mem_cons_self), same]
        · rw [if_neg same, if_neg]
          rw [List.mem_cons, not_or]
          exact ⟨Ne.symm same, later⟩

end DefectGraphs.Token.Cache
