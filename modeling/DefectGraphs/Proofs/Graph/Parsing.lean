import DefectGraphs.Proofs.Batch.Union
import DefectGraphs.Proofs.Graph.Edges
import DefectGraphs.Proofs.Graph.Schema
import DefectGraphs.Proofs.Graph.Uncached
import DefectGraphs.Proofs.Label.Target

/-!
What a loader makes of a text: the record that its settings ask of the graph in the text, or the
failure of the first thing that is wrong with it. The edges of relations that are switched off must be
edges, but show in nothing that is made.
-/

namespace DefectGraphs.Graph

open Channel Label

/-- The language of a source file, if the file is named. -/
inductive IsLanguage : Option Files.Path → Option Language → Prop
  | unnamed : IsLanguage none none
  | known {source : Files.Path} {language : Language}
      (ending : Files.Path.extension source = some language.extension) :
      IsLanguage (some source) (some language)

section Outcomes

variable {graph : Export}

theorem Export.isSafe_iff : graph.isSafe = true ↔ graph.label = "good" :=
  beq_iff_eq

theorem languageOf_eq_ok {language : Option Language} :
    languageOf graph = .ok language ↔ IsLanguage graph.filePath language := by
  unfold languageOf
  cases graph.filePath with
  | none =>
      constructor
      · rintro ⟨⟩
        exact .unnamed
      · rintro ⟨⟩
        rfl
  | some source =>
      dsimp only
      rw [map_eq_ok]
      constructor
      · rintro ⟨own, known, rfl⟩
        exact .known (Language.ofPath_eq_ok.mp known)
      · rintro (_ | ending)
        exact ⟨_, Language.ofPath_eq_ok.mpr ending, rfl⟩

theorem languageOf_eq_error {failure : Failure} :
    languageOf graph = .error failure ↔
      ∃ source, graph.filePath = some source ∧ Language.IsUnknown source ∧
        .unknownLanguage source = failure := by
  unfold languageOf
  cases graph.filePath with
  | none => simp
  | some source =>
      simp only [Option.some_inj, exists_eq_left', ← Language.ofPath_eq_error]
      cases Language.ofPath source <;> simp [Except.map]

end Outcomes

namespace Loader

/-- The record that a loader's settings ask of a graph. -/
structure IsRecordOf (loader : Loader) (filename : String) (graph : Export)
    (record : Record Target) : Prop where
  filename : record.filename = filename
  language : IsLanguage graph.filePath record.language
  cwe : record.cwe = graph.cwe
  isSafe : record.isSafe = true ↔ graph.label = "good"
  label : Target.IsTarget record.isSafe graph.cwe loader.settings.shape record.label
  declaredEdges : ∀ relation ∈ declared, loader.settings.enables relation = true →
    graph.edges? relation = some (graph.relationEdges relation)
  nextEdges : (graph.relationEdges .next).map (fun edge => (edge.source.toNat, edge.target.toNat)) =
    (List.range (graph.nodes.length % UInt32.size - 1)).map fun node => (node, node + 1)
  channels : record.channels = loader.settings.layout.encode
    ((Relation.all.filter loader.settings.enables).map graph.relationEdges) graph.nodes.length
  channelCount : record.channels.length = loader.settings.layout.channelCount
  features : record.features =
    graph.nodes.map fun node => loader.embedding.vector node.descriptor
  edgesInRange : (∀ relation ∈ declared, loader.settings.enables relation = true →
    ∀ edge ∈ graph.relationEdges relation, edge.IsWithin graph.nodes.length) → record.EdgesInRange

/-- What a loader makes of a graph: the first of these that applies. -/
inductive MakesOf (loader : Loader) (filename : String) (path : Files.Path) (graph : Export) :
    Except Failure (Record Target) → Prop
  | missingEdgeList {relation : Relation} {key : String}
      (missing : graph.missing? loader.settings = some relation)
      (named : relation.key? = some key) :
      MakesOf loader filename path graph (.error (.missingEdgeList path key))
  | unknownLanguage (complete : graph.missing? loader.settings = none) {source : Files.Path}
      (named : graph.filePath = some source) (unknown : Language.IsUnknown source) :
      MakesOf loader filename path graph (.error (.unknownLanguage source))
  | unclassed (complete : graph.missing? loader.settings = none) {language : Option Language}
      (known : IsLanguage graph.filePath language) (classBased : loader.settings.shape ≠ .binary)
      {failure : Failure}
      (unclassed : Target.Unclassed path (graph.label == "good") graph.cwe failure) :
      MakesOf loader filename path graph (.error failure)
  | record (complete : graph.missing? loader.settings = none) {record : Record Target}
      (own : loader.IsRecordOf filename graph record) :
      MakesOf loader filename path graph (.ok record)

/-- What a loader makes of a text. -/
inductive Makes (loader : Loader) (filename : String) (path : Files.Path) (text : String) :
    Except Failure (Record Target) → Prop
  | malformed (untold : ∀ graph : Export, ¬graph.IsToldIn text) :
      Makes loader filename path text (.error (.malformedGraph path))
  | ofGraph {graph : Export} (told : graph.IsToldIn text)
      {outcome : Except Failure (Record Target)}
      (made : loader.MakesOf filename path graph outcome) :
      Makes loader filename path text outcome

variable {loader : Loader} {cache : Token.Cache} {filename : String} {path : Files.Path}
  {graph : Export}

theorem isRecordOf_of_plainRecord {record : Record Target}
    (made : loader.plainRecord filename path graph = .ok record) :
    graph.missing? loader.settings = none ∧ loader.IsRecordOf filename graph record := by
  simp only [plainRecord, bind_eq_ok] at made
  obtain ⟨forward, collected, language, known, label, encoded, same⟩ := made
  cases same
  have sized := length_encode_of_forwardEdges collected graph.nodes.length
  obtain ⟨complete, rfl⟩ := forwardEdges_eq_ok.mp collected
  exact ⟨complete, {
    filename := rfl
    language := languageOf_eq_ok.mp known
    cwe := rfl
    isSafe := Export.isSafe_iff
    label := Target.encode_eq_ok.mp encoded
    declaredEdges := fun _ => Export.edges?_of_missing? complete
    nextEdges := ends_nextEdges _
    channels := by rw [Settings.relations_eq]
    channelCount := sized
    features := rfl
    edgesInRange := by
      intro within edges member edge there
      rw [Record.nodeCount, List.length_map]
      exact Layout.isWithin_of_mem_encode (isWithin_of_mem_relationEdges within) edges member edge
        there }⟩

theorem makesOf_plainRecord (loader : Loader) (filename : String) (path : Files.Path)
    (graph : Export) :
    loader.MakesOf filename path graph (loader.plainRecord filename path graph) := by
  cases made : loader.plainRecord filename path graph with
  | ok record =>
      obtain ⟨complete, own⟩ := isRecordOf_of_plainRecord made
      exact .record complete own
  | error failure =>
      simp only [plainRecord, bind_eq_error] at made
      rcases made with incomplete | ⟨forward, collected, made⟩
      · obtain ⟨relation, key, missing, named, rfl⟩ := forwardEdges_eq_error.mp incomplete
        exact .missingEdgeList missing named
      obtain ⟨complete, rfl⟩ := forwardEdges_eq_ok.mp collected
      rcases made with unnamed | ⟨language, known, made⟩
      · obtain ⟨source, named, unknown, rfl⟩ := languageOf_eq_error.mp unnamed
        exact .unknownLanguage complete named unknown
      rcases made with unlabelled | ⟨label, -, made⟩
      · obtain ⟨classBased, unclassed⟩ := Target.encode_eq_error.mp unlabelled
        exact .unclassed complete (languageOf_eq_ok.mp known) classBased unclassed
      · cases made

theorem plainRecord_of_makesOf {outcome : Except Failure (Record Target)}
    (made : loader.MakesOf filename path graph outcome) :
    loader.plainRecord filename path graph = outcome := by
  cases made with
  | missingEdgeList missing named =>
      rw [plainRecord, forwardEdges_eq_error.mpr ⟨_, _, missing, named, rfl⟩]
      rfl
  | unknownLanguage complete named unknown =>
      rw [plainRecord, forwardEdges_eq_ok.mpr ⟨complete, rfl⟩, ok_bind,
        languageOf_eq_error.mpr ⟨_, named, unknown, rfl⟩]
      rfl
  | unclassed complete known classBased unclassed =>
      have unlabelled : Target.encode loader.settings.shape graph.isSafe graph.cwe path = _ :=
        Target.encode_eq_error.mpr ⟨classBased, unclassed⟩
      rw [plainRecord, forwardEdges_eq_ok.mpr ⟨complete, rfl⟩, ok_bind,
        languageOf_eq_ok.mpr known, ok_bind, unlabelled]
      rfl
  | record complete own =>
      rename_i record
      have isSafe : record.isSafe = graph.isSafe :=
        Bool.coe_iff_coe.mp (own.isSafe.trans Export.isSafe_iff.symm)
      have label := own.label
      rw [isSafe] at label
      rw [plainRecord, forwardEdges_eq_ok.mpr ⟨complete, rfl⟩, ok_bind,
        languageOf_eq_ok.mpr own.language, ok_bind, Target.encode_eq_ok.mpr label, ok_bind,
        Settings.relations_eq, ← own.channels, ← own.features, ← own.filename, ← own.cwe, ← isSafe]
      rfl

theorem parse_fst_eq_iff (faithful : cache.Faithful loader.embedding) {text : String}
    {outcome : Except Failure (Record Target)} :
    (loader.parse cache filename path text).1 = outcome ↔
      loader.Makes filename path text outcome := by
  unfold parse
  cases read : Export.parse? text with
  | none =>
      have untold (graph : Export) : ¬graph.IsToldIn text := fun told => by
        cases read.symm.trans (Export.parse?_eq_some.mpr told)
      constructor
      · rintro rfl
        exact .malformed untold
      · rintro (_ | ⟨told, -⟩)
        · rfl
        · exact absurd told (untold _)
  | some graph =>
      dsimp only
      rw [record_fst loader faithful]
      have told := Export.parse?_eq_some.mp read
      constructor
      · rintro rfl
        exact .ofGraph told (makesOf_plainRecord loader filename path graph)
      · rintro (untold | ⟨other, made⟩)
        · exact absurd told (untold graph)
        · cases read.symm.trans (Export.parse?_eq_some.mpr other)
          exact plainRecord_of_makesOf made

end Loader

/-- Two graphs that differ in edges of relations that are switched off, and in nothing else. -/
structure Export.SameFor (settings : Settings) (graph other : Export) : Prop where
  filePath : graph.filePath = other.filePath
  label : graph.label = other.label
  cwe : graph.cwe = other.cwe
  nodes : graph.nodes = other.nodes
  edges : ∀ relation, settings.enables relation = true →
    graph.edges? relation = other.edges? relation

theorem Loader.record_congr {loader : Loader} {graph other : Export}
    (same : graph.SameFor loader.settings other) (cache : Token.Cache) (filename : String)
    (path : Files.Path) :
    loader.record cache filename path graph = loader.record cache filename path other := by
  have forward : forwardEdges graph path loader.settings.relations =
      forwardEdges other path loader.settings.relations := by
    rw [forwardEdges_eq, forwardEdges_eq]
    apply mapM_congr
    intro relation member
    rw [edgesOf, edgesOf, same.nodes, same.edges relation (Settings.mem_relations_iff.mp member)]
  unfold record
  rw [forward]
  simp only [languageOf, Export.isSafe, same.filePath, same.label, same.cwe, same.nodes]

/-- Two values that say the same of a graph, but for the edges of relations that are switched off.
Of these each says anything that could be edges. -/
structure AlikeFor (settings : Settings) (value other : Json) : Prop where
  isRecord : value.IsRecord Export.fieldNames ↔ other.IsRecord Export.fieldNames
  plain : ∀ name ∈ ["filePath", "label", "cwe", "nodes"],
    value.held? Export.fieldNames name = other.held? Export.fieldNames name
  enabled : ∀ relation key, relation.key? = some key → settings.enables relation = true →
    value.held? Export.fieldNames key = other.held? Export.fieldNames key
  disabled : ∀ relation key, relation.key? = some key → settings.enables relation = false →
    (∃ edges, Export.IsEdgeList (value.held? Export.fieldNames key) edges) ∧
      ∃ edges, Export.IsEdgeList (other.held? Export.fieldNames key) edges

namespace AlikeFor

variable {settings : Settings} {value other : Json}

theorem symm (alike : AlikeFor settings value other) : AlikeFor settings other value where
  isRecord := alike.isRecord.symm
  plain := fun name member => (alike.plain name member).symm
  enabled := fun relation key named enabled => (alike.enabled relation key named enabled).symm
  disabled := fun relation key named off => (alike.disabled relation key named off).symm

variable {graph : Export}

/-- The other value tells edges of every relation, and the same where the relation is switched on. -/
theorem exists_edges (alike : AlikeFor settings value other) (told : graph.IsToldBy value)
    (relation : Relation) :
    ∃ edges, (∀ key, relation.key? = some key →
        Export.IsEdgeList (other.held? Export.fieldNames key) edges) ∧
      (settings.enables relation = true → graph.edges? relation = edges) := by
  cases named : relation.key? with
  | none => exact ⟨graph.edges? relation, nofun, fun _ => rfl⟩
  | some key =>
      cases switched : settings.enables relation with
      | true =>
          refine ⟨graph.edges? relation, ?_, fun _ => rfl⟩
          rintro _ ⟨⟩
          rw [← alike.enabled relation key named switched]
          exact told.edges relation key named
      | false =>
          obtain ⟨edges, listed⟩ := (alike.disabled relation key named switched).2
          refine ⟨edges, ?_, nofun⟩
          rintro _ ⟨⟩
          exact listed

theorem exists_isToldBy (alike : AlikeFor settings value other) (told : graph.IsToldBy value) :
    ∃ same : Export, same.IsToldBy other ∧ graph.SameFor settings same := by
  choose edges listed kept using alike.exists_edges told
  refine ⟨{ graph with
    astEdges := edges .ast
    cfgEdges := edges .cfg
    reachingDefEdges := edges .reachingDef
    cdgEdges := edges .cdg }, ⟨alike.isRecord.mp told.isRecord, ?_, ?_, ?_, ?_, ?_⟩,
    ⟨rfl, rfl, rfl, rfl, ?_⟩⟩
  · exact alike.plain "filePath" (by decide) ▸ told.filePath
  · exact alike.plain "label" (by decide) ▸ told.label
  · exact alike.plain "cwe" (by decide) ▸ told.cwe
  · exact alike.plain "nodes" (by decide) ▸ told.nodes
  · intro relation key named
    have own := listed relation key named
    cases relation with
    | next => cases named
    | _ => exact own
  · intro relation enabled
    have own := kept relation enabled
    cases relation with
    | next => rfl
    | _ => exact own

end AlikeFor

theorem Loader.parse_congr {loader : Loader} {text other : String} {value otherValue : Json}
    (read : Json.parse? text = some value) (readOther : Json.parse? other = some otherValue)
    (alike : AlikeFor loader.settings value otherValue) (cache : Token.Cache) (filename : String)
    (path : Files.Path) :
    loader.parse cache filename path text = loader.parse cache filename path other := by
  unfold parse Export.parse?
  rw [read, readOther, Option.bind_some, Option.bind_some]
  cases made : Export.ofJson? value with
  | some graph =>
      obtain ⟨same, told, sameFor⟩ :=
        alike.exists_isToldBy ((Export.reads_ofJson? value graph).mp made)
      rw [(Export.reads_ofJson? otherValue same).mpr told]
      exact record_congr sameFor cache filename path
  | none =>
      cases madeOther : Export.ofJson? otherValue with
      | none => rfl
      | some graph =>
          obtain ⟨same, told, -⟩ :=
            alike.symm.exists_isToldBy ((Export.reads_ofJson? otherValue graph).mp madeOther)
          cases made.symm.trans ((Export.reads_ofJson? value same).mpr told)

/-- Of the relations that are declared, only that of the syntax tree is switched on. -/
def astOnly : Loader :=
  ⟨{ Settings.default with
      cfgEdges := false, reachingDefEdges := false, cdgEdges := false, shape := .classId },
    ⟨.wordRows, 1, 0, fun _ => #[0]⟩⟩

/-- Two nodes with an edge between them, and whatever the ending says. -/
def twoNodes (ending : String) : String :=
  "\x7b\"label\":\"bad\",\"cwe\":121,\"nodes\":[[\"METHOD\",\"f\"],[\"CALL\",\"g\"]]," ++
    "\"astEdges\":[[0,1]]" ++ ending ++ "\x7d"

def oneDigit (digit : Char) : Json := .number ⟨false, [digit], [], false, []⟩

def twoNodesMembers (ending : List Json.Member) : List Json.Member :=
  [(some "label", .text (some "bad")), (some "cwe", .number ⟨false, ['1', '2', '1'], [], false, []⟩),
    (some "nodes", .array
      [.array [.text (some "METHOD"), .text (some "f")],
        .array [.text (some "CALL"), .text (some "g")]]),
    (some "astEdges", .array [.array [oneDigit '0', oneDigit '1']])] ++ ending

def strayEdges : Json := .array [.array [oneDigit '1', oneDigit '7']]

theorem alikeFor_twoNodes : AlikeFor astOnly.settings (.object (twoNodesMembers []))
    (.object (twoNodesMembers [(some "cdgEdges", strayEdges)])) where
  isRecord := iff_of_true ⟨rfl, by decide⟩ ⟨rfl, by decide⟩
  plain := by
    intro name member
    simp only [List.mem_cons, List.not_mem_nil, or_false] at member
    rcases member with rfl | rfl | rfl | rfl <;> rfl
  enabled := by
    intro relation key named enabled
    cases relation <;> cases named
    · rfl
    · cases enabled
    · cases enabled
    · cases enabled
  disabled := by
    intro relation key named off
    have read : (Json.Field.given strayEdges).optional (Json.asList? edgeOfJson?) =
      some (some [⟨1, 7⟩]) := rfl
    have listed : Export.IsEdgeList (some strayEdges) (some [⟨1, 7⟩]) :=
      (Json.Field.optional_eq_some reads_edgeOfJson?.asList?).mp read
    cases relation <;> cases named
    · cases off
    · exact ⟨⟨none, .missing⟩, none, .missing⟩
    · exact ⟨⟨none, .missing⟩, none, .missing⟩
    · exact ⟨⟨none, .missing⟩, _, listed⟩

end DefectGraphs.Graph
