import DefectGraphs.Command.Run
import DefectGraphs.Proofs.Batch.Totals
import DefectGraphs.Proofs.Command.Job
import DefectGraphs.Proofs.Dataset.Reached
import DefectGraphs.Proofs.Dataset.Shape

/-!
What the command for batches adds up. A fold in a random order is cut into other batches than in its
own, and yet the graphs, the nodes and the edges of each channel are as many in all.
-/

namespace DefectGraphs

open DefectGraphs.Graph Label Split

namespace Dataset

variable {dataset : Dataset}

theorem faithful_of_gives_prepare (fresh : dataset.vectors = none) {before after : Workspace}
    {manifest : Manifest} {vectors : Vectors}
    (prepared : dataset.prepare.Gives before (manifest, vectors) after) :
    vectors.cache.Faithful vectors.model.embedding := by
  simp only [prepare, fresh, Work.gives_bind, Work.gives_pure] at prepared
  obtain ⟨_, _, -, _, _, -, model, _, -, same, -⟩ := prepared
  cases same
  exact Token.Cache.faithful_empty model.embedding

/-- After a first load that succeeds the fold is there, in the channels of the data set. -/
theorem exists_records_of_load (fresh : dataset.vectors = none) {loaded : Dataset} {fold : Fold}
    {before after : Workspace} {files : Nat}
    (loads : (dataset.load [fold]).run before = ((.ok files, loaded), after)) :
    ∃ records, loaded.records fold = .ok records ∧
      ∀ record ∈ records, record.channels.length = loaded.channelCount := by
  rw [run_load] at loads
  rcases prepared : dataset.prepare.run.run before with ⟨failure | ⟨manifest, vectors⟩, middle⟩
  · rw [prepared] at loads
    cases loads
  · rw [prepared] at loads
    have taken := congrArg Prod.fst loads
    -- The cache starts empty, so what is read is what each file gives on its own.
    dsimp only [takeOver] at taken
    rw [result_readFolds (faithful_of_gives_prepare fresh prepared)] at taken
    split at taken
    · cases taken
    · rename_i pairs read
      cases taken
      obtain ⟨requested, plain⟩ := mapM_pair_eq_ok.mp read
      have listed : fold ∈ pairs.map Prod.fst := by
        rw [requested]
        exact List.mem_cons_self
      obtain ⟨records, member, holds⟩ := exists_loaded_setFolds _ listed
      refine ⟨records, records_eq_ok.mpr holds, ?_⟩
      intro record listed
      obtain ⟨filename, own⟩ := exists_plainFile_of_plainFold (plain _ member) record listed
      rw [setFolds_eq]
      exact Loader.length_channels_plainFile own

end Dataset

namespace Command

namespace FoldSummary

/-- What two summaries of a fold have in common, however each was cut into batches. -/
structure SameTotals (first second : FoldSummary) : Prop where
  split : second.split = first.split
  fold : second.fold = first.fold
  channels : second.channels = first.channels
  vectorSize : second.vectorSize = first.vectorSize
  maxNodes : second.maxNodes = first.maxNodes
  graphs : second.graphs = first.graphs
  safe : second.safe = first.safe
  batchedGraphs : (second.batches.map BatchSummary.graphs).sum =
    (first.batches.map BatchSummary.graphs).sum
  nodes : (second.batches.map BatchSummary.nodes).sum =
    (first.batches.map BatchSummary.nodes).sum
  edges : ∀ channel : Nat,
    (second.batches.map fun batch => batch.edges[channel]?.getD 0).sum =
      (first.batches.map fun batch => batch.edges[channel]?.getD 0).sum

/-- A summary tells the graphs that a data set holds in a fold, and its batches account for all of
them. The graphs that are not safe can be counted by subtraction. -/
structure AddsUp (summary : FoldSummary) (dataset : Dataset) (records : List (Record Target)) :
    Prop where
  graphs : summary.graphs = records.length
  safe : summary.safe = records.countP (·.isSafe)
  channels : summary.channels = dataset.channelCount
  batchedGraphs : (summary.batches.map BatchSummary.graphs).sum = records.length
  nodes : (summary.batches.map BatchSummary.nodes).sum = (records.map Record.nodeCount).sum
  edges : ∀ channel : Nat,
    (summary.batches.map fun batch => batch.edges[channel]?.getD 0).sum =
      (records.map fun record => (record.channel channel).length).sum
  length_edges : ∀ batch ∈ summary.batches, batch.edges.length = summary.channels
  safe_le : summary.safe ≤ summary.graphs

/-- The summary of records in their order. -/
def ofRecords (dataset : Dataset) (fold : Fold) (records : List (Record Target)) :
    FoldSummary where
  split := dataset.split
  fold := fold
  graphs := records.length
  safe := records.countP (·.isSafe)
  channels := dataset.channelCount
  vectorSize := dataset.vectorSize
  maxNodes := dataset.settings.maxNodes
  batches := ((Dataset.assembler dataset.settings).batches records).map .ofBatch

theorem ofDataset_eq {dataset : Dataset} {fold : Fold} {records : List (Record Target)}
    (given : dataset.records fold = .ok records) :
    ofDataset dataset fold = .ok (ofRecords dataset fold records) := by
  rw [ofDataset, Dataset.batches, given]
  rfl

variable (dataset : Dataset) (fold : Fold)

theorem sum_map_edges (records : List (Record Target)) (channel : Nat) :
    ((ofRecords dataset fold records).batches.map fun batch => batch.edges[channel]?.getD 0).sum =
      (records.map fun record => (record.channel channel).length).sum := by
  have counted : ∀ batch : Batch Target,
      (BatchSummary.ofBatch batch).edges[channel]?.getD 0 = (batch.channel channel).length := by
    intro batch
    rw [BatchSummary.ofBatch, Batch.channel, List.getElem?_map]
    cases batch.channels[channel]? <;> rfl
  rw [ofRecords, List.map_map, ← Assembler.sum_length_channel_batches]
  exact congrArg List.sum (List.map_congr_left fun batch _ => counted batch)

theorem sum_map_graphs (records : List (Record Target)) :
    ((ofRecords dataset fold records).batches.map BatchSummary.graphs).sum = records.length := by
  rw [ofRecords, List.map_map]
  exact Assembler.sum_graphs_batches _ records

theorem sum_map_nodes (records : List (Record Target)) :
    ((ofRecords dataset fold records).batches.map BatchSummary.nodes).sum =
      (records.map Record.nodeCount).sum := by
  rw [ofRecords, List.map_map]
  exact Assembler.sum_nodeCount_batches _ records

variable {records others : List (Record Target)} (perm : others.Perm records)

include perm

theorem addsUp_ofRecords
    (alike : ∀ record ∈ records, record.channels.length = dataset.channelCount) :
    (ofRecords dataset fold others).AddsUp dataset records where
  graphs := perm.length_eq
  safe := perm.countP_eq _
  channels := rfl
  batchedGraphs := by rw [sum_map_graphs, perm.length_eq]
  nodes := by rw [sum_map_nodes, (perm.map _).sum_nat]
  edges := by
    intro channel
    rw [sum_map_edges, (perm.map _).sum_nat]
  length_edges := by
    intro summary member
    obtain ⟨batch, listed, rfl⟩ := List.mem_map.mp member
    rw [BatchSummary.ofBatch, List.length_map]
    apply Assembler.length_channels_of_mem_batches _ listed
    exact fun record member => alike record (perm.mem_iff.mp member)
  safe_le := List.countP_le_length

theorem sameTotals_of_perm :
    (ofRecords dataset fold records).SameTotals (ofRecords dataset fold others) where
  split := rfl
  fold := rfl
  channels := rfl
  vectorSize := rfl
  maxNodes := rfl
  graphs := perm.length_eq
  safe := perm.countP_eq _
  batchedGraphs := by rw [sum_map_graphs, sum_map_graphs, perm.length_eq]
  nodes := by rw [sum_map_nodes, sum_map_nodes, (perm.map _).sum_nat]
  edges := by
    intro channel
    rw [sum_map_edges, sum_map_edges, (perm.map _).sum_nat]

end FoldSummary

section Summarise

variable {dataset : Dataset} {fold : Fold} {before after : Workspace} {summary : FoldSummary}

theorem gives_summarise {isShuffled : Bool} :
    (summarise dataset fold isShuffled).Gives before summary after ↔
      ∃ files loaded, (dataset.load [fold]).run before = ((.ok files, loaded), after) ∧
        (do
          let dataset ← if isShuffled then loaded.shuffle fold else pure loaded
          FoldSummary.ofDataset dataset fold) = .ok summary := by
  simp only [summarise, Job.gives_bind, Job.gives_liftM, Job.within, Job.plain, Job.gives_adapt,
    Work.gives_ofExcept]
  constructor
  · rintro ⟨⟨result, loaded⟩, middle, loads, files, _, ⟨rfl, rfl⟩, given, rfl⟩
    exact ⟨files, loaded, loads, given⟩
  · rintro ⟨files, loaded, loads, given⟩
    exact ⟨(.ok files, loaded), after, loads, files, after, ⟨rfl, rfl⟩, given, rfl⟩

/-- A fold of records that a data set holds after a load, summed up in its own order and in another
one. -/
structure SumsUp (dataset : Dataset) (fold : Fold) (before after : Workspace)
    (summary reordered : FoldSummary) : Prop where
  totals : summary.SameTotals reordered
  held : ∃ files loaded records, (dataset.load [fold]).run before = ((.ok files, loaded), after) ∧
    loaded.records fold = .ok records ∧
    summary.AddsUp loaded records ∧ reordered.AddsUp loaded records

/-- A fold that can be summed up in its own order can be summed up in a random one. -/
theorem exists_gives_summarise_shuffled (fresh : dataset.vectors = none)
    (succeeds : (summarise dataset fold false).Gives before summary after) :
    ∃ reordered, (summarise dataset fold true).Gives before reordered after ∧
      SumsUp dataset fold before after summary reordered := by
  obtain ⟨files, loaded, loads, given⟩ := gives_summarise.mp succeeds
  obtain ⟨records, held, alike⟩ := Dataset.exists_records_of_load fresh loads
  obtain rfl : FoldSummary.ofRecords loaded fold records = summary :=
    Except.ok.inj ((FoldSummary.ofDataset_eq held).symm.trans given)
  have perm := Random.shuffle_perm loaded.stream records
  have own := FoldSummary.addsUp_ofRecords loaded fold (.refl records) alike
  have other := FoldSummary.addsUp_ofRecords loaded fold perm alike
  refine ⟨FoldSummary.ofRecords loaded fold (Random.shuffle loaded.stream records).1, ?_,
    FoldSummary.sameTotals_of_perm loaded fold perm, files, loaded, records, loads, held, own,
    other⟩
  refine gives_summarise.mpr ⟨files, loaded, loads, ?_⟩
  rw [if_pos rfl, Dataset.shuffle, held]
  apply FoldSummary.ofDataset_eq
  rw [Dataset.records_eq_ok]
  exact if_pos rfl

/-- A command for batches succeeds on a fold in its own order and in a random one. However they are
displayed, the two summaries have the same totals, which are those of the fold that is loaded. -/
def SumsUpAlike (dataset : Dataset) (fold : Fold) (run : Bool → Display → Job (List Line))
    (before cached after : Workspace) : Prop :=
  ∃ summary reordered : FoldSummary, SumsUp dataset fold cached after summary reordered ∧
    ∀ display, (run false display).Gives before (summary.report display) after ∧
      (run true display).Gives before (reordered.report display) after

theorem runBatches_sumsUpAlike {settings : Settings} {source : Token.Source}
    {manifest : Files.Path} {split : Nat} {display : Display} {lines : List Line}
    (succeeds : (runBatches settings source manifest split fold false display).Gives before lines
      after) :
    ∃ dataset, Dataset.ofSettings split source manifest settings = .ok dataset ∧
      SumsUpAlike dataset fold (runBatches settings source manifest split fold) before before
        after := by
  simp only [SumsUpAlike, runBatches, Job.gives_bind, Job.gives_pure, Job.gives_tree, Job.within,
    Job.plain, Job.gives_adapt, Work.gives_ofExcept] at succeeds ⊢
  obtain ⟨tree, _, ⟨same, rfl⟩, listing, _, ⟨listed, rfl⟩, dataset, _, ⟨opened, rfl⟩, summary, _,
    summed, -, rfl⟩ := succeeds
  obtain ⟨reordered, summedAgain, sums⟩ :=
    exists_gives_summarise_shuffled (Dataset.vectors_ofSettings opened) summed
  refine ⟨dataset, opened, summary, reordered, sums, fun display => ⟨?_, ?_⟩⟩
  · exact ⟨tree, _, ⟨same, rfl⟩, listing, _, ⟨listed, rfl⟩, dataset, _, ⟨opened, rfl⟩, summary, _,
      summed, rfl, rfl⟩
  · exact ⟨tree, _, ⟨same, rfl⟩, listing, _, ⟨listed, rfl⟩, dataset, _, ⟨opened, rfl⟩, reordered, _,
      summedAgain, rfl, rfl⟩

end Summarise

/-- An invocation that asks for the batches of a fold, with the flags of another. -/
def Invocation.forBatches (shared : Invocation) (corpus : Files.Path)
    (vocabulary : Option Files.Path) (manifest : Files.Path) (split : Nat) (fold : String)
    (isShuffled : Bool) (display : Display) : Invocation :=
  { shared with action := .batches corpus vocabulary manifest split fold isShuffled display }

/-- When the command for batches succeeds on a fold in its own order, it succeeds on the fold in a
random order, and what it then reports adds up to the same: to what the fold holds. -/
theorem Invocation.run_batches_sameTotals (shared : Invocation) {corpus : Files.Path}
    {vocabulary : Option Files.Path} {manifest : Files.Path} {split : Nat} {fold : String}
    {display : Display} {before after : Workspace} {lines : List Line}
    (succeeds : (shared.forBatches corpus vocabulary manifest split fold false display).run.Gives
      before lines after) :
    ∃ settings opened cached held dataset,
      (loadSettings shared.settingsFile shared.overrides).Gives before settings opened ∧
      (prepareCache shared.cache).Gives opened () cached ∧
      Split.Fold.parse fold = .ok held ∧
      Dataset.ofSettings split ⟨corpus, vocabulary.getD corpus, shared.cache⟩ manifest settings =
        .ok dataset ∧
      SumsUpAlike dataset held (fun isShuffled display =>
        (shared.forBatches corpus vocabulary manifest split fold isShuffled display).run) before
        cached after := by
  simp only [SumsUpAlike, forBatches, Invocation.run, Job.gives_bind, Job.within, Job.gives_adapt,
    Work.gives_ofExcept] at succeeds ⊢
  obtain ⟨settings, opened, read, ⟨⟩, cached, prepared, held, _, ⟨parsed, rfl⟩, ran⟩ := succeeds
  obtain ⟨dataset, fresh, summary, reordered, sums, reports⟩ := runBatches_sumsUpAlike ran
  refine ⟨settings, opened, cached, held, dataset, read, prepared, parsed, fresh, summary,
    reordered, sums, fun display => ⟨?_, ?_⟩⟩
  · exact ⟨settings, opened, read, (), cached, prepared, held, cached, ⟨parsed, rfl⟩,
      (reports display).1⟩
  · exact ⟨settings, opened, read, (), cached, prepared, held, cached, ⟨parsed, rfl⟩,
      (reports display).2⟩

/-- The fold to train on is one of four graphs of one to three nodes, two of them the same, and a
batch has at most four nodes. -/
def unevenBatches : Workspace :=
  ⟨{ Dataset.unevenTrain.tree with
      root := Dataset.unevenTrain.tree.root.set
        (.file "max_nodes_per_batch = 4\nparallel_load = false\n".toUTF8) ["glice.toml"] }, []⟩

def batchesOfTrain (isShuffled : Bool) : Invocation :=
  ⟨.info, none, none, "cache", .batches "corpus" none "split.txt" 0 "train" isShuffled .text⟩

/-- What is printed about the four graphs, for batches that are told in three lines. -/
def unevenReport (first second third : String) : List Line :=
  [blankLine, .text "Split 0 / TRAIN", blankLine, .text "  Graphs: 4 (2 safe, 2 unsafe)",
    .text "  Edge types: 11", .text "  Node features: [2]", .text "  Batches: 3 (max 4 nodes)",
    blankLine, .text first, .text second, .text third, blankLine, .elapsed, blankLine]

/-- The random order is cut elsewhere, and there are as many nodes and edges in it. -/
theorem Invocation.run_batches_sameTotals_unevenTrain :
    ∃ after dataset,
      (batchesOfTrain false).run.Gives unevenBatches
        (unevenReport "     0     2 graphs       3 nodes        7 edges"
          "     1     1 graphs       3 nodes       11 edges"
          "     2     1 graphs       3 nodes       11 edges") after ∧
      (batchesOfTrain true).run.Gives unevenBatches
        (unevenReport "     0     2 graphs       4 nodes       12 edges"
          "     1     1 graphs       3 nodes       11 edges"
          "     2     1 graphs       2 nodes        6 edges") after ∧
      ∃ cached, SumsUpAlike dataset .train (fun isShuffled display =>
        ((batchesOfTrain false).forBatches "corpus" none "split.txt" 0 "train" isShuffled
          display).run) unevenBatches cached after := by
  have printed :
      ((batchesOfTrain false).run.run unevenBatches).1.toOption =
          some (unevenReport "     0     2 graphs       3 nodes        7 edges"
            "     1     1 graphs       3 nodes       11 edges"
            "     2     1 graphs       3 nodes       11 edges") ∧
        ((batchesOfTrain true).run.run unevenBatches).1.toOption =
          some (unevenReport "     0     2 graphs       4 nodes       12 edges"
            "     1     1 graphs       3 nodes       11 edges"
            "     2     1 graphs       2 nodes        6 edges") := by
    decide +kernel
  obtain ⟨inOrder, atRandom⟩ := printed
  obtain ⟨after, succeeds⟩ := Job.exists_gives_of_toOption inOrder
  obtain ⟨_, _, cached, held, dataset, -, -, parsed, -, sums⟩ :=
    Invocation.run_batches_sameTotals (batchesOfTrain false) succeeds
  obtain rfl : Split.Fold.train = held := Except.ok.inj parsed
  obtain ⟨summary, reordered, alike, reports⟩ := sums
  obtain ⟨again, shuffled⟩ := Job.exists_gives_of_toOption atRandom
  obtain rfl : after = again := congrArg Prod.snd ((reports .text).2.symm.trans shuffled)
  exact ⟨after, dataset, succeeds, shuffled, cached, summary, reordered, alike, reports⟩

end Command

end DefectGraphs
