import DefectGraphs.Proofs.Graph.Uncached
import DefectGraphs.Proofs.Token.Persistence
import DefectGraphs.Proofs.Token.Produced
import DefectGraphs.Split.Store

/-!
The three readers of a graph file agree: what a loader makes a record of is also read for a split
and for training, and both take the fields that the record has.
-/

namespace DefectGraphs.Graph

open Files Label

section Members

variable {members : List Json.Member} {graph : Export}

/-- The fields of an export that other readers take too. -/
theorem fields_of_export (read : Export.ofJson? (.object members) = some graph) :
    members.any (·.1.isNone) = false ∧ ∃ filePath label cwe nodes : Json.Field,
      Json.fieldOfMembers members "filePath" = some filePath ∧
      Json.fieldOfMembers members "label" = some label ∧
      Json.fieldOfMembers members "cwe" = some cwe ∧
      Json.fieldOfMembers members "nodes" = some nodes ∧
      filePath.optional Json.asText? = some graph.filePath ∧
      label.required Json.asText? = some graph.label ∧
      cwe.optional Json.asWord32? = some graph.cwe ∧
      nodes.required (Json.asList? Node.ofJson?) = some graph.nodes := by
  simp only [Export.ofJson?, Option.bind_eq_bind, Option.bind_eq_some_iff,
    Json.fields?_object_eq_some] at read
  obtain ⟨fields, ⟨whole, found⟩, read⟩ := read
  simp only [List.mapM_cons, List.mapM_nil, Option.bind_eq_bind, Option.pure_def,
    Option.bind_eq_some_iff, Option.some.injEq] at found
  obtain ⟨filePath, path, _, ⟨label, name, _, ⟨cwe, number, _, ⟨nodes, list, _, ⟨_, -, _, ⟨_, -,
    _, ⟨_, -, _, ⟨_, -, _, rfl, rfl⟩, rfl⟩, rfl⟩, rfl⟩, rfl⟩, rfl⟩, rfl⟩, rfl⟩ := found
  simp only [Option.bind_eq_some_iff, Option.pure_def, Option.some.injEq] at read
  obtain ⟨_, pathRead, _, nameRead, _, numberRead, _, listRead, _, -, _, -, _, -, _, -, rfl⟩ := read
  exact ⟨whole, filePath, label, cwe, nodes, path, name, number, list, pathRead, nameRead,
    numberRead, listRead⟩

theorem heading_of_export (read : Export.ofJson? (.object members) = some graph) :
    Heading.ofJson? (.object members) = some ⟨graph.label, graph.cwe, graph.filePath⟩ := by
  obtain ⟨whole, filePath, label, cwe, -, path, name, number, -, pathRead, nameRead, numberRead,
    -⟩ := fields_of_export read
  have found : (Json.object members).fields? ["label", "cwe", "filePath"] =
      some [label, cwe, filePath] :=
    Json.fields?_object_eq_some.mpr ⟨whole, by simp [name, number, path]⟩
  simp only [Heading.ofJson?, found, Option.bind_eq_bind, Option.bind_some, nameRead,
    Json.Field.optionalMember_of_object number, numberRead,
    Json.Field.optionalMember_of_object path, pathRead]
  rfl

theorem nodes_of_export (read : Export.ofJson? (.object members) = some graph) :
    nodesOfJson? (.object members) = some graph.nodes := by
  obtain ⟨whole, -, -, -, nodes, -, -, -, list, -, -, -, listRead⟩ := fields_of_export read
  have found : (Json.object members).fields? ["nodes"] = some [nodes] :=
    Json.fields?_object_eq_some.mpr ⟨whole, by simp [list]⟩
  simp only [nodesOfJson?, found, Option.bind_eq_bind, Option.bind_some, listRead]

end Members

theorem languageOf_eq (graph : Export) :
    languageOf graph = graph.filePath.mapM Language.ofPath := by
  unfold languageOf
  cases graph.filePath <;> rfl

theorem Loader.fields_of_plainRecord {loader : Loader} {filename : String} {path : Path}
    {graph : Export} {record : Record Target}
    (made : loader.plainRecord filename path graph = .ok record) :
    languageOf graph = .ok record.language ∧ record.cwe = graph.cwe ∧
      record.isSafe = graph.isSafe ∧
      record.features = graph.nodes.map fun node => loader.embedding.vector node.descriptor := by
  simp only [plainRecord, bind_eq_ok] at made
  obtain ⟨forward, -, language, found, label, -, same⟩ := made
  cases same
  exact ⟨found, rfl, rfl, rfl⟩

theorem readStratum_eq {tree : Tree} {path : Path} {content : String} {heading : Heading}
    {language : Option Language} (held : tree.readText path = .ok content)
    (read : Heading.parse? content = some heading)
    (found : heading.filePath.mapM Language.ofPath = .ok language) :
    Split.readStratum tree path =
      .ok (Split.stratumText heading.label heading.cwe language) := by
  have read' : readGraph Heading.parse? tree path = .ok heading := by
    simp only [readGraph, held, read]
  rw [Split.readStratum, read', ok_bind]
  cases source : heading.filePath with
  | none =>
      rw [source] at found
      cases found
      rfl
  | some file =>
      rw [source, Option.mapM_some] at found
      obtain ⟨known, ofPath, rfl⟩ := map_eq_ok.mp found
      dsimp only
      rw [ofPath]
      rfl

theorem getElem?_readSentences {tree : Tree} {directory : Path} {names : List String}
    {sentences : List (List String)} (listed : graphNames tree directory = .ok names)
    (read : readSentences tree directory = .ok sentences) {place : Nat} {name : String}
    (there : names[place]? = some name) {content : String}
    (held : tree.readText (directory.join name) = .ok content) {nodes : List Node}
    (nodesRead : parseNodes? content = some nodes) :
    sentences[place]? = some (nodes.map Node.descriptor) := by
  simp only [readSentences, graphFiles, listed, bind_eq_ok, map_eq_ok] at read
  obtain ⟨files, ⟨_, same, rfl⟩, each⟩ := read
  cases same
  have pairs := mapM_eq_ok.mp each
  have within : place < (names.map directory.join).length := by
    rw [List.length_map]
    exact (List.getElem?_eq_some_iff.mp there).1
  have within' : place < sentences.length := pairs.length_eq ▸ within
  have sentence := pairs.get within within'
  have file : (names.map directory.join)[place] = directory.join name := by
    rw [List.getElem_map, (List.getElem?_eq_some_iff.mp there).2]
  simp only [List.get_eq_getElem, file, readGraph, held, nodesRead, Except.map] at sentence
  rw [List.getElem?_eq_getElem within', ← Except.ok.inj sentence]

/-- A model that is newly trained on a file, with no token too rare, has a row for each node. -/
theorem exists_resolves {source : Token.Source} {training : Token.Training}
    {before after : Workspace} {found : Token.Model} (all : training.minCount ≤ 1)
    (absent : before.tree.isPresent ((training.key .wordRows).path source.cache) = false)
    (gives : (Token.Model.loadOrTrain source .wordRows training).Gives before found after)
    {names : List String}
    (listed : graphNames before.tree (source.directory before.tree) = .ok names)
    {name : String} (member : name ∈ names) {content : String}
    (held : before.tree.readText ((source.directory before.tree).join name) = .ok content)
    {nodes : List Node} (nodesRead : parseNodes? content = some nodes) {node : Node}
    (within : node ∈ nodes) : ∃ index, found.Resolves node.descriptor index := by
  obtain ⟨trained, trains, rfl, -⟩ := Token.Model.exists_writes_of_gives absent gives
  obtain ⟨-, sentences, read, -, succeeds⟩ := Token.Source.train_eq_ok.mp trains
  obtain ⟨place, there⟩ := List.getElem?_of_mem member
  have sentence := getElem?_readSentences listed read there held nodesRead
  apply Token.Model.exists_resolves_of_train all succeeds
  exact List.mem_flatten_of_mem (List.mem_of_getElem? sentence) (List.mem_map_of_mem within)

/-- What the readers for splits and for training make of the text of a record. -/
structure Agrees (embedding : Token.Embedding) (content : String) (record : Record Target)
    (heading : Heading) (nodes : List Node) : Prop where
  forSplit : Heading.parse? content = some heading
  forTraining : parseNodes? content = some nodes
  isSafe : record.isSafe = true ↔ heading.label = "good"
  cwe : heading.cwe = record.cwe
  language : heading.filePath.mapM Language.ofPath = .ok record.language
  stratum : ∀ (tree : Tree) (path : Path), tree.readText path = .ok content →
    Split.readStratum tree path =
      .ok (Split.stratumText heading.label record.cwe record.language)
  sentence : ∀ (tree : Tree) (directory : Path) (names : List String)
    (sentences : List (List String)), graphNames tree directory = .ok names →
      readSentences tree directory = .ok sentences → ∀ (place : Nat) (name : String),
        names[place]? = some name → tree.readText (directory.join name) = .ok content →
          sentences[place]? = some (nodes.map Node.descriptor)
  features : record.features = (nodes.map Node.descriptor).map embedding.vector
  rows : ∀ (source : Token.Source) (training : Token.Training) (before after : Workspace)
    (found : Token.Model), training.minCount ≤ 1 →
    before.tree.isPresent ((training.key .wordRows).path source.cache) = false →
      (Token.Model.loadOrTrain source .wordRows training).Gives before found after →
        ∀ names, graphNames before.tree (source.directory before.tree) = .ok names →
          ∀ name ∈ names,
            before.tree.readText ((source.directory before.tree).join name) = .ok content →
              ∀ node ∈ nodes, ∃ index, found.Resolves node.descriptor index

/-- A text that is an object and makes a record is read in the same way for a split and for
training. -/
theorem parse_agrees {loader : Loader} {cache : Token.Cache} {filename : String} {path : Path}
    {content : String} {members : List Json.Member} {record : Record Target}
    (object : Json.parse? content = some (.object members))
    (faithful : cache.Faithful loader.embedding)
    (made : (loader.parse cache filename path content).1 = .ok record) :
    ∃ heading nodes, Agrees loader.embedding content record heading nodes := by
  unfold Loader.parse at made
  cases parsed : Export.parse? content with
  | none =>
      rw [parsed] at made
      cases made
  | some graph =>
      rw [parsed] at made
      dsimp only at made
      rw [Loader.record_fst loader faithful] at made
      obtain ⟨language, cwe, isSafe, features⟩ := Loader.fields_of_plainRecord made
      rw [languageOf_eq] at language
      have read : Export.ofJson? (.object members) = some graph := by
        rwa [Export.parse?, object, Option.bind_some] at parsed
      have heading : Heading.parse? content = some ⟨graph.label, graph.cwe, graph.filePath⟩ := by
        rw [Heading.parse?, object, Option.bind_some, heading_of_export read]
      have nodes : parseNodes? content = some graph.nodes := by
        rw [parseNodes?, object, Option.bind_some, nodes_of_export read]
      refine ⟨_, graph.nodes, heading, nodes, ?_, cwe.symm, language, ?_, ?_, ?_, ?_⟩
      · rw [isSafe, Export.isSafe, beq_iff_eq, safeLabel]
      · intro tree path held
        rw [cwe]
        exact readStratum_eq held heading language
      · intro tree directory names sentences listed given place name there held
        exact getElem?_readSentences listed given there held nodes
      · rw [features, List.map_map]
        rfl
      · intro source training before after found all absent gives names listed name member held node
        exact exists_resolves all absent gives listed member held nodes

/-- No relation but that of neighbouring nodes. -/
def nextOnly : Settings :=
  { Settings.default with
    astEdges := false, cfgEdges := false, reachingDefEdges := false, cdgEdges := false }

def firstMembers : List Json.Member :=
  [(some "label", .text (some "bad")),
    (some "cwe", .number ⟨false, ['1', '2', '1'], [], false, []⟩),
    (some "nodes", .array
      [.object [(some "nodeType", .text (some "METHOD")), (some "value", .text (some "main"))],
        .object [(some "nodeType", .text (some "CALL")), (some "value", .text (some " f "))]])]

open Token.Model in
theorem parse_agrees_firstContent : ∃ members record heading nodes after,
    Json.parse? firstContent = some (.object members) ∧
      (Loader.parse ⟨nextOnly, firstModel.ofBits.embedding⟩ .empty "a.json"
        "corpus/a.json" firstContent).1 = .ok record ∧
      Agrees firstModel.ofBits.embedding firstContent record heading nodes ∧
      (loadOrTrain firstSource .wordRows firstTraining).Gives firstCorpus firstModel.ofBits after ∧
      ∀ node ∈ nodes, ∃ index, firstModel.ofBits.Resolves node.descriptor index := by
  have object : Json.parse? firstContent = some (.object firstMembers) := rfl
  have accepted : (Loader.parse ⟨nextOnly, firstModel.ofBits.embedding⟩ .empty "a.json"
      "corpus/a.json" firstContent).1.isOk = true := by decide +kernel
  obtain ⟨record, made⟩ := exists_of_isOk accepted
  obtain ⟨heading, nodes, agrees⟩ := parse_agrees object (Token.Cache.faithful_empty _) made
  obtain ⟨after, gives⟩ := exists_gives_firstModel
  refine ⟨firstMembers, record, heading, nodes, after, object, made, agrees, gives, ?_⟩
  exact agrees.rows firstSource firstTraining firstCorpus after _ (by decide) absent_firstCorpus
    gives ["a.json"] (by decide +kernel) "a.json" (by decide) (by decide +kernel)

end DefectGraphs.Graph
