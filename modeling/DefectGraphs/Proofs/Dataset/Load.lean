import DefectGraphs.Proofs.Dataset.Calls
import DefectGraphs.Proofs.Graph.Uncached

/-!
What a load leaves of a data set. It replaces the records of all folds that are asked for or of
none, and a token model that is there stays, with all vectors that were looked up in it.
-/

namespace DefectGraphs.Dataset

open DefectGraphs.Graph Label Split

theorem warms_readFolds (dataset : Dataset) (tree : Files.Tree) (manifest : Manifest)
    (embedding : Token.Embedding) (cache : Token.Cache) (folds : List Fold) :
    Token.Cache.Warms embedding cache
      (dataset.readFolds tree manifest embedding cache folds).cache := by
  induction folds generalizing cache with
  | nil => exact .refl _ _
  | cons fold rest induction =>
      have first : Token.Cache.Warms embedding cache
          (Loader.loadAll ⟨dataset.settings, embedding⟩ tree dataset.source.corpus cache
            (manifest.filenames dataset.split fold)).cache :=
        Loader.warms_loadAll ⟨dataset.settings, embedding⟩ _
      unfold readFolds
      dsimp only
      split
      · exact first
      · exact first.trans (induction _)

theorem vectors_of_gives_prepare {dataset : Dataset} {before after : Workspace}
    {manifest : Manifest} {vectors held : Vectors}
    (prepared : dataset.prepare.Gives before (manifest, vectors) after)
    (holds : dataset.vectors = some held) : vectors = held := by
  simp only [prepare, holds, Work.gives_bind, Work.gives_pure] at prepared
  obtain ⟨_, _, -, _, _, -, same, -⟩ := prepared
  exact (Prod.mk.inj same).2.symm

/-- What becomes of a data set when folds are loaded, by the outcome of the load. -/
structure Leaves (dataset : Dataset) (folds : List Fold) (tree : Files.Tree)
    (outcome : Except Failure Nat) (after : Dataset) : Prop where
  keepsVectors : ∀ vectors, dataset.vectors = some vectors →
    ∃ cache, after.vectors = some { vectors with cache } ∧ vectors.cache.Extends cache
  unchanged : ∀ failure, outcome = .error failure →
    after = { dataset with vectors := after.vectors }
  replaced : ∀ files, outcome = .ok files →
    after = { dataset with vectors := after.vectors, loaded := after.loaded } ∧
      ∀ fold ∉ folds, after.loaded fold = dataset.loaded fold
  loaded : ∀ files, outcome = .ok files →
    ∃ manifest, Manifest.load tree dataset.manifest = .ok manifest ∧
      ∀ fold ∈ folds, ∃ records,
        after.loaded fold = some records ∧ dataset.Reads manifest fold records

theorem leaves_of_failed {dataset : Dataset} {folds : List Fold} {tree : Files.Tree}
    {failure : Failure} {kept : Option Vectors}
    (keeps : ∀ vectors, dataset.vectors = some vectors →
      ∃ cache, kept = some { vectors with cache } ∧ vectors.cache.Extends cache) :
    Leaves dataset folds tree (.error failure) { dataset with vectors := kept } := by
  refine ⟨keeps, fun _ _ => rfl, ?_, ?_⟩
  · intro files succeeded
    cases succeeded
  · intro files succeeded
    cases succeeded

theorem leaves_takeOver {dataset : Dataset} {folds : List Fold} {tree : Files.Tree}
    {manifest : Manifest} {vectors : Vectors} {reading : Reading}
    (listed : Manifest.load tree dataset.manifest = .ok manifest)
    (held : ∀ held, dataset.vectors = some held → vectors = held)
    (warms : Token.Cache.Warms vectors.model.embedding vectors.cache reading.cache)
    (reads : ∀ pairs, reading.result = .ok pairs → pairs.map Prod.fst = folds ∧
      ∀ pair ∈ pairs, dataset.Reads manifest pair.1 pair.2) :
    Leaves dataset folds tree (dataset.takeOver vectors reading).1
      (dataset.takeOver vectors reading).2 := by
  unfold takeOver
  cases read : reading.result with
  | error failure =>
      apply leaves_of_failed
      intro _ holds
      rw [← held _ holds]
      exact ⟨_, rfl, warms.keeps⟩
  | ok pairs =>
      obtain ⟨requested, readEach⟩ := reads pairs read
      dsimp only
      refine ⟨?_, ?_, ?_, ?_⟩
      · intro _ holds
        rw [← held _ holds, setFolds_eq]
        exact ⟨_, rfl, warms.keeps⟩
      · intro failure failed
        cases failed
      · intro files _
        refine ⟨?_, ?_⟩
        · rw [setFolds_eq]
        · intro fold other
          rw [← requested] at other
          rw [loaded_setFolds_of_notMem _ other]
      · intro files _
        refine ⟨manifest, listed, ?_⟩
        intro fold asked
        rw [← requested] at asked
        obtain ⟨records, member, holds⟩ := exists_loaded_setFolds _ asked
        exact ⟨records, holds, readEach _ member⟩

/-- A load that fails changes no records, and one that succeeds replaces those it was asked for. -/
theorem load_leaves (dataset : Dataset) (folds : List Fold) (before : Workspace) :
    Leaves dataset folds before.tree ((dataset.load folds).run before).1.1
      ((dataset.load folds).run before).1.2 := by
  rw [run_load]
  rcases prepared : dataset.prepare.run.run before with ⟨failure | ⟨manifest, vectors⟩, after⟩
  · apply leaves_of_failed
    intro vectors holds
    exact ⟨vectors.cache, holds, fun _ _ => id⟩
  · exact leaves_takeOver (gives_prepare prepared)
      (fun _ holds => vectors_of_gives_prepare prepared holds) (warms_readFolds ..)
      (fun _ => reads_of_readFolds)

end DefectGraphs.Dataset
