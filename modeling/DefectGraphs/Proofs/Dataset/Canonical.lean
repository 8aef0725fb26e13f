import DefectGraphs.Proofs.Dataset.Load

/-!
What the folds of a data set hold while no file changes: the records of their files in some order,
whatever calls were made before, and in the order of the manifest right after a load.
-/

namespace DefectGraphs

open DefectGraphs.Graph Label Split

namespace Dataset

def modelPath (dataset : Dataset) : Files.Path :=
  Token.modelPath dataset.source.cache dataset.settings.backend dataset.settings.vectorSize
    dataset.settings.window

/-- The contents of a fold whose files are read one by one, with an embedding's own vectors. -/
def plainFold (dataset : Dataset) (tree : Files.Tree) (manifest : Manifest)
    (embedding : Token.Embedding) (fold : Fold) : Except Failure (List (Record Target)) :=
  ((manifest.filenames dataset.split fold).mapM
    (Loader.plainFile ⟨dataset.settings, embedding⟩ tree dataset.source.corpus)).map
      (contents dataset.settings fold)

/-- The records of the files that the manifest lists for a fold, in its order and with the vectors of
the stored model. -/
def fileRecords (dataset : Dataset) (tree : Files.Tree) (fold : Fold) :
    Except Failure (List (Record Target)) := do
  let manifest ← Manifest.load tree dataset.manifest
  let model ← Token.Model.read dataset.settings.backend tree dataset.modelPath
  (manifest.filenames dataset.split fold).mapM
    (Loader.plainFile ⟨dataset.settings, model.embedding⟩ tree dataset.source.corpus)

/-- What a fold holds by the files alone: the records of its files, and for training these records
balanced. -/
def canonical (dataset : Dataset) (tree : Files.Tree) :
    Fold → Except Failure (List (Record Target))
  | .train => do
    let read ← dataset.fileRecords tree .train
    return Balance.oversample dataset.settings.stratifyBy read
  | .validation => dataset.fileRecords tree .validation
  | .test => dataset.fileRecords tree .test

/-- The vectors are those of the stored model, as far as they have been looked up. -/
structure Stored (dataset : Dataset) (tree : Files.Tree) (vectors : Vectors) : Prop where
  read : Token.Model.read dataset.settings.backend tree dataset.modelPath = .ok vectors.model
  faithful : vectors.cache.Faithful vectors.model.embedding

section Load

variable {dataset : Dataset} {tree : Files.Tree} {manifest : Manifest} {vectors : Vectors}

/-- One fold after another, while the cache goes from each to the next. -/
theorem result_readFolds_cons {embedding : Token.Embedding} {cache : Token.Cache} {run : Loader.Run}
    {fold : Fold} (rest : List Fold) (loads : Loader.loadAll ⟨dataset.settings, embedding⟩ tree
      dataset.source.corpus cache (manifest.filenames dataset.split fold) = run) :
    (dataset.readFolds tree manifest embedding cache (fold :: rest)).result = do
      let records ← run.result
      let others ← (dataset.readFolds tree manifest embedding run.cache rest).result
      return (fold, contents dataset.settings fold records) :: others := by
  rw [readFolds]
  dsimp only
  rw [loads]
  cases run.result <;> rfl

theorem result_readFolds {embedding : Token.Embedding} {cache : Token.Cache}
    (faithful : cache.Faithful embedding) (folds : List Fold) :
    (dataset.readFolds tree manifest embedding cache folds).result =
      folds.mapM fun fold =>
        (dataset.plainFold tree manifest embedding fold).map (Prod.mk fold) := by
  -- The cache changes from fold to fold, and stays faithful.
  induction folds generalizing cache with
  | nil => rfl
  | cons fold rest induction =>
      obtain ⟨run, loads⟩ : ∃ run, Loader.loadAll ⟨dataset.settings, embedding⟩ tree
        dataset.source.corpus cache (manifest.filenames dataset.split fold) = run := ⟨_, rfl⟩
      have warms : Token.Cache.Warms embedding cache run.cache :=
        loads ▸ Loader.warms_loadAll ⟨dataset.settings, embedding⟩ _
      have result : run.result = (manifest.filenames dataset.split fold).mapM
          (Loader.plainFile ⟨dataset.settings, embedding⟩ tree dataset.source.corpus) :=
        loads ▸ Loader.result_loadAll ⟨dataset.settings, embedding⟩ faithful _
      rw [result_readFolds_cons rest loads, List.mapM_cons, plainFold, ← result,
        induction (warms.faithful faithful)]
      cases run.result <;> rfl

theorem fileRecords_eq (listed : Manifest.load tree dataset.manifest = .ok manifest)
    (stored : dataset.Stored tree vectors) (fold : Fold) :
    dataset.fileRecords tree fold = (manifest.filenames dataset.split fold).mapM
      (Loader.plainFile ⟨dataset.settings, vectors.model.embedding⟩ tree
        dataset.source.corpus) := by
  rw [fileRecords, listed, stored.read]
  rfl

theorem canonical_eq (listed : Manifest.load tree dataset.manifest = .ok manifest)
    (stored : dataset.Stored tree vectors) (fold : Fold) :
    dataset.canonical tree fold =
      dataset.plainFold tree manifest vectors.model.embedding fold := by
  have records := fileRecords_eq listed stored fold
  unfold plainFold
  rw [← records]
  cases fold with
  | train =>
      rw [canonical]
      cases dataset.fileRecords tree .train <;> rfl
  | validation =>
      rw [canonical]
      cases dataset.fileRecords tree .validation <;> rfl
  | test =>
      rw [canonical]
      cases dataset.fileRecords tree .test <;> rfl

theorem exists_fileRecords {fold : Fold} {whole : List (Record Target)}
    (given : dataset.canonical tree fold = .ok whole) :
    ∃ read, dataset.fileRecords tree fold = .ok read ∧
      Contains dataset.settings read fold whole := by
  cases fold with
  | train =>
      obtain ⟨read, found, same⟩ := bind_eq_ok.mp given
      cases same
      exact ⟨read, found, .train⟩
  | validation => exact ⟨whole, given, .validation⟩
  | test => exact ⟨whole, given, .test⟩

/-- What a load starts from while the stored model is there. -/
def basis (dataset : Dataset) (tree : Files.Tree) : Except Failure (Manifest × Vectors) := do
  let manifest ← Manifest.load tree dataset.manifest
  match dataset.vectors with
  | some vectors => return (manifest, vectors)
  | none =>
    let model ← Token.Model.read dataset.settings.backend tree dataset.modelPath
    return (manifest, ⟨model, .empty⟩)

theorem run_prepare {before : Workspace}
    (present : before.tree.isPresent dataset.modelPath = true) :
    dataset.prepare.run.run before = (dataset.basis before.tree, before) := by
  simp only [prepare, basis, Work.run_bind, Work.run_tree, Work.run_ofExcept]
  cases Manifest.load before.tree dataset.manifest with
  | error failure => rfl
  | ok manifest =>
      cases dataset.vectors with
      | some vectors => rfl
      | none =>
          have loads : (Token.Model.loadOrTrain dataset.source dataset.settings.backend
              dataset.settings.training).run.run before =
                (Token.Model.read dataset.settings.backend before.tree dataset.modelPath, before) :=
            Token.Model.run_loadOrTrain present
          dsimp only
          rw [Work.run_bind, loads]
          cases Token.Model.read dataset.settings.backend before.tree dataset.modelPath <;> rfl

theorem stored_of_basis (holds : ∀ held, dataset.vectors = some held → dataset.Stored tree held)
    (prepared : dataset.basis tree = .ok (manifest, vectors)) :
    Manifest.load tree dataset.manifest = .ok manifest ∧ dataset.Stored tree vectors := by
  simp only [basis, bind_eq_ok] at prepared
  obtain ⟨listing, listed, prepared⟩ := prepared
  split at prepared
  · rename_i held
    cases prepared
    exact ⟨listed, holds _ held⟩
  · obtain ⟨model, read, prepared⟩ := bind_eq_ok.mp prepared
    cases prepared
    exact ⟨listed, read, Token.Cache.faithful_empty _⟩

theorem exists_basis {fold : Fold} {whole : List (Record Target)}
    (given : dataset.canonical tree fold = .ok whole) :
    ∃ manifest vectors, dataset.basis tree = .ok (manifest, vectors) := by
  obtain ⟨_, found, -⟩ := exists_fileRecords given
  simp only [fileRecords, bind_eq_ok] at found
  obtain ⟨manifest, listed, model, read, -⟩ := found
  cases held : dataset.vectors with
  | some vectors =>
      refine ⟨manifest, vectors, ?_⟩
      rw [basis, listed, held]
      rfl
  | none =>
      refine ⟨manifest, ⟨model, .empty⟩, ?_⟩
      rw [basis, listed, held, read]
      rfl

/-- What a load can do while no file changes. -/
inductive Loads (dataset : Dataset) (tree : Files.Tree) (folds : List Fold) :
    Except Failure Nat → Dataset → Prop where
  | failed {failure : Failure} {vectors : Option Vectors}
      (stored : ∀ held, vectors = some held → dataset.Stored tree held)
      (unread : folds ≠ [] → ∃ fold ∈ folds, ∀ whole, dataset.canonical tree fold ≠ .ok whole) :
      Loads dataset tree folds (.error failure) { dataset with vectors }
  | succeeded {files : Nat} {vectors : Vectors} {pairs : List (Fold × List (Record Target))}
      {after : Dataset} (stored : dataset.Stored tree vectors)
      (requested : pairs.map Prod.fst = folds)
      (read : ∀ pair ∈ pairs, dataset.canonical tree pair.1 = .ok pair.2)
      (replaced : after = { dataset with vectors := some vectors }.setFolds pairs) :
      Loads dataset tree folds (.ok files) after

namespace Loads

variable {folds : List Fold} {outcome : Except Failure Nat} {after : Dataset} {fold : Fold}

theorem loaded_eq {files : Nat} (loads : Loads dataset tree folds (.ok files) after)
    (member : fold ∈ folds) :
    ∃ whole, dataset.canonical tree fold = .ok whole ∧ after.loaded fold = some whole := by
  cases loads with
  | succeeded stored requested read replaced =>
      rw [← requested] at member
      obtain ⟨whole, listed, holds⟩ := exists_loaded_setFolds _ member
      exact ⟨whole, read _ listed, replaced ▸ holds⟩

theorem filenames_eq {files : Nat} (loads : Loads dataset tree folds (.ok files) after)
    (member : fold ∈ folds) {names : List String}
    (told : (dataset.canonical tree fold).map (·.map Record.filename) = .ok names) :
    after.filenames fold = .ok names := by
  obtain ⟨whole, given, holds⟩ := loads.loaded_eq member
  rw [given] at told
  rw [filenames, records_eq_ok.mpr holds, told]

theorem succeeds (loads : Loads dataset tree folds outcome after) (nonempty : folds ≠ [])
    (readable : ∀ fold ∈ folds, ∃ whole, dataset.canonical tree fold = .ok whole) :
    ∃ files, outcome = .ok files := by
  cases loads with
  | failed stored unread =>
      obtain ⟨fold, member, fails⟩ := unread nonempty
      obtain ⟨whole, given⟩ := readable fold member
      exact absurd given (fails whole)
  | succeeded => exact ⟨_, rfl⟩

end Loads

theorem loads_takeOver {reading : Reading} {folds : List Fold}
    (stored : dataset.Stored tree vectors)
    (warms : Token.Cache.Warms vectors.model.embedding vectors.cache reading.cache)
    (result : reading.result =
      folds.mapM fun fold => (dataset.canonical tree fold).map (Prod.mk fold)) :
    Loads dataset tree folds (dataset.takeOver vectors reading).1
      (dataset.takeOver vectors reading).2 := by
  have kept : dataset.Stored tree { vectors with cache := reading.cache } :=
    ⟨stored.read, warms.faithful stored.faithful⟩
  unfold takeOver
  cases read : reading.result with
  | error failure =>
      refine .failed ?_ ?_
      · rintro _ ⟨⟩
        exact kept
      · -- If all the folds could be read, so could the list of them.
        intro _
        by_contra! all
        obtain ⟨pairs, given⟩ := exists_mapM_pair_eq_ok all
        rw [result, given] at read
        cases read
  | ok pairs =>
      rw [result] at read
      obtain ⟨requested, given⟩ := mapM_pair_eq_ok.mp read
      exact .succeeded kept requested given rfl

theorem loads_load {before : Workspace}
    (present : before.tree.isPresent dataset.modelPath = true)
    (holds : ∀ held, dataset.vectors = some held → dataset.Stored before.tree held)
    (folds : List Fold) :
    Loads dataset before.tree folds ((dataset.load folds).run before).1.1
      ((dataset.load folds).run before).1.2 ∧
      ((dataset.load folds).run before).2.tree = before.tree := by
  rw [run_load, run_prepare present]
  rcases prepared : dataset.basis before.tree with failure | ⟨manifest, vectors⟩
  · refine ⟨.failed holds ?_, rfl⟩
    intro nonempty
    obtain ⟨fold, rest, rfl⟩ := List.exists_cons_of_ne_nil nonempty
    refine ⟨fold, List.mem_cons_self, fun whole given => ?_⟩
    obtain ⟨manifest, vectors, succeeded⟩ := exists_basis given
    rw [prepared] at succeeded
    cases succeeded
  · obtain ⟨listed, stored⟩ := stored_of_basis holds prepared
    refine ⟨loads_takeOver stored (warms_readFolds ..) ?_, rfl⟩
    rw [result_readFolds stored.faithful]
    simp only [canonical_eq listed stored]

end Load

end Dataset

end DefectGraphs
