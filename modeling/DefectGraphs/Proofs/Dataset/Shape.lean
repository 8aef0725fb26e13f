import DefectGraphs.Proofs.Balance.Oversample
import DefectGraphs.Proofs.Batch.Shape
import DefectGraphs.Proofs.Dataset.Canonical
import DefectGraphs.Proofs.Graph.Edges
import DefectGraphs.Proofs.Token.Produced

/-!
All records and batches of a data set have one shape: the channels of its layout, and vectors of the
size of the model that it holds. The calls before may have failed, and files may have changed between
them.
-/

namespace DefectGraphs

open DefectGraphs.Graph Label Split

namespace Graph.Loader

variable {loader : Loader} {tree : Files.Tree} {directory : Files.Path} {filename : String}
  {record : Record Target}

theorem length_channels_plainFile
    (loaded : loader.plainFile tree directory filename = .ok record) :
    record.channels.length = loader.settings.layout.channelCount := by
  simp only [plainFile, plainRecord, bind_eq_ok] at loaded
  obtain ⟨graph, -, forward, collected, language, -, label, -, same⟩ := loaded
  cases same
  exact length_encode_of_forwardEdges collected _

theorem hasShape_plainFile {width : Nat}
    (sized : ∀ descriptor, (loader.embedding.vector descriptor).size = width)
    (loaded : loader.plainFile tree directory filename = .ok record) :
    record.HasShape loader.settings.layout.channelCount width := by
  refine ⟨length_channels_plainFile loaded, ?_⟩
  simp only [plainFile, plainRecord, bind_eq_ok] at loaded
  obtain ⟨graph, -, forward, -, language, -, label, -, same⟩ := loaded
  cases same
  intro vector member
  obtain ⟨node, -, rfl⟩ := List.mem_map.mp member
  exact sized node.descriptor

end Graph.Loader

namespace Dataset

section PlainFold

variable {dataset : Dataset} {tree : Files.Tree} {manifest : Manifest} {embedding : Token.Embedding}
  {fold : Fold} {records : List (Record Target)}

theorem exists_plainFile_of_plainFold
    (given : dataset.plainFold tree manifest embedding fold = .ok records) :
    ∀ record ∈ records, ∃ filename, Loader.plainFile ⟨dataset.settings, embedding⟩ tree
      dataset.source.corpus filename = .ok record := by
  obtain ⟨read, loaded, rfl⟩ := map_eq_ok.mp given
  intro record member
  rw [(contains_contents dataset.settings fold _).mem_iff] at member
  obtain ⟨filename, -, own⟩ := exists_of_mem_mapM loaded member
  exact ⟨filename, own⟩

theorem hasShape_plainFold {width : Nat}
    (sized : ∀ descriptor, (embedding.vector descriptor).size = width)
    (given : dataset.plainFold tree manifest embedding fold = .ok records) :
    ∀ record ∈ records, record.HasShape dataset.channelCount width := by
  intro record member
  obtain ⟨filename, own⟩ := exists_plainFile_of_plainFold given record member
  exact Loader.hasShape_plainFile sized own

end PlainFold

/-- The model that is held gives vectors of its size, and records of this size only are held. -/
structure Shaped (dataset : Dataset) : Prop where
  model : ∀ held, dataset.vectors = some held →
    held.model.WellShaped ∧ held.cache.Faithful held.model.embedding
  vectors : ∀ fold records, dataset.loaded fold = some records →
    ∃ held, dataset.vectors = some held
  records : ∀ fold records, dataset.loaded fold = some records →
    ∀ record ∈ records, record.HasShape dataset.channelCount dataset.vectorSize

/-- No file but a trained model is where the data set looks for its model. -/
def ModelProduced (dataset : Dataset) (tree : Files.Tree) : Prop :=
  ∀ bytes, tree.read dataset.modelPath = .ok bytes → Token.Produced bytes

namespace Shaped

variable {dataset : Dataset}

theorem takeOver (shaped : dataset.Shaped) {vectors : Vectors} {reading : Reading}
    (held : ∀ held, dataset.vectors = some held → vectors = held)
    (wellShaped : vectors.model.WellShaped)
    (faithful : reading.cache.Faithful vectors.model.embedding)
    (read : ∀ pairs, reading.result = .ok pairs → ∀ pair ∈ pairs, ∀ record ∈ pair.2,
      record.HasShape dataset.channelCount vectors.model.vectorSize) :
    (dataset.takeOver vectors reading).2.Shaped := by
  -- Records that are there already were made with the model that is still held.
  have before : ∀ fold records, dataset.loaded fold = some records → ∀ record ∈ records,
      record.HasShape dataset.channelCount vectors.model.vectorSize := by
    intro fold records holds
    obtain ⟨own, there⟩ := shaped.vectors fold records holds
    have same : dataset.vectorSize = vectors.model.vectorSize := by
      rw [vectorSize, there, held own there]
      rfl
    rw [← same]
    exact shaped.records fold records holds
  unfold Dataset.takeOver
  cases result : reading.result with
  | error failure =>
      refine ⟨?_, fun _ _ _ => ⟨_, rfl⟩, before⟩
      rintro _ ⟨⟩
      exact ⟨wellShaped, faithful⟩
  | ok pairs =>
      dsimp only
      refine ⟨?_, ?_, ?_⟩
      · rw [setFolds_eq]
        rintro _ ⟨⟩
        exact ⟨wellShaped, faithful⟩
      · rw [setFolds_eq]
        exact fun _ _ _ => ⟨_, rfl⟩
      · intro fold records holds
        rw [setFolds_eq]
        rcases loaded_setFolds holds with listed | earlier
        · exact read pairs result (fold, records) listed
        · exact before fold records earlier

theorem wellShaped_of_gives_prepare (shaped : dataset.Shaped) {before after : Workspace}
    (own : dataset.ModelProduced before.tree) {manifest : Manifest} {vectors : Vectors}
    (prepared : dataset.prepare.Gives before (manifest, vectors) after) :
    vectors.model.WellShaped ∧ vectors.cache.Faithful vectors.model.embedding := by
  cases held : dataset.vectors with
  | some kept =>
      obtain rfl := vectors_of_gives_prepare prepared held
      exact shaped.model vectors held
  | none =>
      simp only [prepare, held, Work.gives_bind, Work.gives_tree, Work.gives_ofExcept,
        Work.gives_pure] at prepared
      obtain ⟨_, _, ⟨rfl, rfl⟩, _, _, ⟨-, rfl⟩, model, _, gives, same, -⟩ := prepared
      cases same
      refine ⟨?_, Token.Cache.faithful_empty model.embedding⟩
      apply Token.Model.wellShaped_of_gives_loadOrTrain _ gives
      exact own

theorem load (shaped : dataset.Shaped) {workspace : Workspace}
    (own : dataset.ModelProduced workspace.tree) (folds : List Fold) :
    (call (dataset, workspace) (.load folds)).1.Shaped := by
  simp only [call, run_load]
  rcases prepared : dataset.prepare.run.run workspace with ⟨failure | ⟨manifest, vectors⟩, after⟩
  · exact shaped
  · obtain ⟨wellShaped, faithful⟩ := shaped.wellShaped_of_gives_prepare own prepared
    have warms := warms_readFolds dataset after.tree manifest vectors.model.embedding
      vectors.cache folds
    apply shaped.takeOver (fun _ holds => vectors_of_gives_prepare prepared holds) wellShaped
      (warms.faithful faithful)
    intro pairs read pair member
    rw [result_readFolds faithful] at read
    exact hasShape_plainFold wellShaped.size_vector ((mapM_pair_eq_ok.mp read).2 pair member)

theorem shuffle (shaped : dataset.Shaped) (workspace : Workspace) (fold : Fold) :
    (call (dataset, workspace) (.shuffle fold)).1.Shaped := by
  rcases call_shuffle (dataset, workspace) fold with ⟨-, same⟩ | ⟨records, held, shuffled⟩
  · rwa [same]
  · rw [shuffled]
    refine ⟨shaped.model, fun _ _ _ => shaped.vectors fold records held, ?_⟩
    intro other others holds record member
    rw [loaded_setFold] at holds
    split at holds
    · cases holds
      have perm := Random.shuffle_perm dataset.stream records
      exact shaped.records fold records held record (perm.mem_iff.mp member)
    · exact shaped.records other others holds record member

end Shaped

/-- The data sets that calls lead to. Each call may find other files than the one before. -/
inductive Reachable (start : Dataset) : Dataset → Prop
  | opened : Reachable start start
  | called {dataset : Dataset} (earlier : Reachable start dataset) {workspace : Workspace}
      (own : dataset.ModelProduced workspace.tree) (next : Call) :
      Reachable start (call (dataset, workspace) next).1

theorem Reachable.shaped {start dataset : Dataset} (reachable : Reachable start dataset)
    (shaped : start.Shaped) : dataset.Shaped := by
  induction reachable with
  | opened => exact shaped
  | called earlier own next before =>
      cases next with
      | load folds => exact before.load own folds
      | shuffle fold => exact before.shuffle _ fold

theorem shaped_ofSettings {split : Nat} {source : Token.Source} {path : Files.Path}
    {settings : Settings} {start : Dataset}
    (opened : ofSettings split source path settings = .ok start) : start.Shaped := by
  obtain rfl := eq_of_ofSettings opened
  refine ⟨?_, ?_, ?_⟩
  · intro held there
    cases there
  · intro fold records holds
    cases holds
  · intro fold records holds
    cases holds

/-- A fold that is there gives batches, and all of them have the shape that the data set tells. -/
theorem batches_haveShape {split : Nat} {source : Token.Source} {path : Files.Path}
    {settings : Settings} {start dataset : Dataset}
    (opened : ofSettings split source path settings = .ok start)
    (reachable : Reachable start dataset) {fold : Fold} {records : List (Record Target)}
    (loaded : dataset.records fold = .ok records) :
    ∃ batches, dataset.batches fold = .ok batches ∧
      ∀ batch ∈ batches, batch.HasShape dataset.channelCount dataset.vectorSize := by
  have shaped := reachable.shaped (shaped_ofSettings opened)
  refine ⟨(assembler dataset.settings).batches records, ?_, ?_⟩
  · rw [batches, loaded]
    rfl
  · apply Assembler.hasShape_batches
    exact shaped.records fold records (records_eq_ok.mp loaded)

/-- A node on its own, told in two components. -/
def smallModel : Token.Model :=
  .trainRows [["METHOD:main"]] (.ofEntries [("METHOD:main", 1)]) none ⟨2, 5, 1, 0, 5, 0, 0⟩

theorem train_smallModel :
    Token.Model.train .wordRows [["METHOD:main"]] ⟨2, 5, 1, 0, 5, 0, 0⟩ = .ok smallModel := by
  have built : Token.Vocabulary.build [["METHOD:main"]] 1 = .ofEntries [("METHOD:main", 1)] := by
    simp [Token.Vocabulary.build, Token.Vocabulary.tally, Token.Vocabulary.distinct]
  rw [Token.Model.train, built]
  rfl

/-- One graph, the split that tests on it, and the small model where a model of another size is
looked for. -/
def otherSize : Workspace :=
  let graph : Files.Node := .file ("\x7b\"label\": \"good\", \"nodes\": " ++
    "[\x7b\"nodeType\": \"METHOD\", \"value\": \"main\"\x7d], \"astEdges\": [], " ++
    "\"cfgEdges\": [], \"reachingDefEdges\": [], \"cdgEdges\": []\x7d").toUTF8
  ⟨⟨.directory [("corpus", .directory [("a.json", graph)]),
    ("cache", .directory [("word2vec_vs100_w5.model", .file smallModel.toBytes)]),
    ("split.txt", .file "0:TEST:a.json\n".toUTF8)], []⟩, []⟩

theorem batches_haveShape_otherSize :
    ∃ start dataset records, ofSettings 0 ⟨"corpus", "corpus", "cache"⟩ "split.txt"
        Settings.default = .ok start ∧ Reachable start dataset ∧
      dataset.records .test = .ok records ∧
      dataset.settings.vectorSize = 100 ∧ dataset.vectorSize = 2 ∧
      ∃ batches, dataset.batches .test = .ok batches ∧ batches ≠ [] ∧
        ∀ batch ∈ batches, batch.HasShape dataset.channelCount 2 := by
  obtain ⟨start, opened, located, answered, counted, asked, size⟩ : ∃ start,
      ofSettings 0 ⟨"corpus", "corpus", "cache"⟩ "split.txt" Settings.default = .ok start ∧
        otherSize.tree.locate start.modelPath = .ok ["cache", "word2vec_vs100_w5.model"] ∧
        let dataset := (call (start, otherSize) (.load [.test])).1
        (dataset.records .test).isOk = true ∧
          (dataset.batches .test).toOption.map List.length = some 1 ∧
          dataset.settings.vectorSize = 100 ∧ dataset.vectorSize = 2 :=
    ⟨_, rfl, by decide +kernel, by decide +kernel⟩
  have held : otherSize.tree.read start.modelPath = .ok smallModel.toBytes :=
    Files.Tree.read_eq_ok.mpr ⟨_, located, rfl⟩
  have own : start.ModelProduced otherSize.tree := by
    intro bytes there
    refine ⟨_, _, _, smallModel, train_smallModel, ?_⟩
    exact Except.ok.inj (held.symm.trans there)
  have reachable := Reachable.opened.called own (.load [.test])
  obtain ⟨records, loaded⟩ := exists_of_isOk answered
  obtain ⟨batches, given, shaped⟩ := batches_haveShape opened reachable loaded
  rw [size] at shaped
  have some : batches ≠ [] := by
    rintro rfl
    rw [given] at counted
    cases counted
  exact ⟨start, _, records, opened, reachable, loaded, asked, size, batches, given, some, shaped⟩

end Dataset

end DefectGraphs
