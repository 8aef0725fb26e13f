import DefectGraphs.Graph.Export
import DefectGraphs.Proofs.Json.Schema

/-!
The schema of exported graphs, told from the JSON value alone, and that it is what the reader reads.
-/

namespace DefectGraphs.Graph

open Channel

namespace Node

abbrev fieldNames : List String := ["nodeType", "value"]

structure IsToldBy (value : Json) (node : Node) : Prop where
  isRecord : value.IsRecord fieldNames
  kind : Json.IsRequired Json.IsText (value.held? fieldNames "nodeType") node.kind
  text : Json.IsRequired Json.IsText (value.held? fieldNames "value") node.text

theorem reads_ofJson? : Json.Reads ofJson? IsToldBy := by
  intro value node
  cases found : value.fields? fieldNames with
  | none =>
      have untold : ¬IsToldBy value node := fun told =>
        Json.not_isRecord_of_fields? found told.isRecord
      simp [ofJson?, found, untold]
  | some fields =>
      obtain ⟨record, values⟩ := Json.fields?_eq_some (by decide) found
      simp only [List.map_cons, List.map_nil, List.map_eq_cons_iff, List.map_eq_nil_iff] at values
      obtain ⟨kind, _, rfl, kindHeld, text, _, rfl, textHeld, rfl⟩ := values
      simp only [ofJson?, found, Option.bind_eq_bind, Option.bind_some, Option.bind_eq_some_iff,
        Option.pure_def, Option.some.injEq, Json.Field.required_eq_some Json.reads_asText?,
        kindHeld, textHeld]
      constructor
      · rintro ⟨_, kindTold, _, textTold, rfl⟩
        exact ⟨record, kindTold, textTold⟩
      · intro told
        exact ⟨_, told.kind, _, told.text, rfl⟩

end Node

abbrev edgeFieldNames : List String := ["from", "to"]

structure EdgeIsToldBy (value : Json) (edge : Edge) : Prop where
  isRecord : value.IsRecord edgeFieldNames
  source : Json.IsRequired Json.IsWord32 (value.held? edgeFieldNames "from") edge.source.toNat
  target : Json.IsRequired Json.IsWord32 (value.held? edgeFieldNames "to") edge.target.toNat

theorem toNat_toUInt32_of_isRequired {held : Option Json} {word : Nat}
    (told : Json.IsRequired Json.IsWord32 held word) : word.toUInt32.toNat = word := by
  obtain ⟨_, -, _, -, -, fits⟩ := told
  exact Nat.mod_eq_of_lt fits

theorem reads_edgeOfJson? : Json.Reads edgeOfJson? EdgeIsToldBy := by
  intro value edge
  cases found : value.fields? edgeFieldNames with
  | none =>
      have untold : ¬EdgeIsToldBy value edge := fun told =>
        Json.not_isRecord_of_fields? found told.isRecord
      simp [edgeOfJson?, found, untold]
  | some fields =>
      obtain ⟨record, values⟩ := Json.fields?_eq_some (by decide) found
      simp only [List.map_cons, List.map_nil, List.map_eq_cons_iff, List.map_eq_nil_iff] at values
      obtain ⟨source, _, rfl, sourceHeld, target, _, rfl, targetHeld, rfl⟩ := values
      simp only [edgeOfJson?, found, Option.bind_eq_bind, Option.bind_some,
        Option.bind_eq_some_iff, Option.pure_def, Option.some.injEq,
        Json.Field.required_eq_some Json.reads_asWord32?, sourceHeld, targetHeld]
      constructor
      · rintro ⟨from', sourceTold, to', targetTold, rfl⟩
        refine ⟨record, ?_, ?_⟩
        · rwa [toNat_toUInt32_of_isRequired sourceTold]
        · rwa [toNat_toUInt32_of_isRequired targetTold]
      · intro told
        exact ⟨_, told.source, _, told.target, by simp⟩

namespace Export

abbrev fieldNames : List String :=
  ["filePath", "label", "cwe", "nodes", "astEdges", "cfgEdges", "reachingDefEdges", "cdgEdges"]

/-- A list of edges that may be left out or be null. -/
abbrev IsEdgeList : Option Json → Option (List Edge) → Prop :=
  Json.IsOptional (Json.IsList EdgeIsToldBy)

structure IsToldBy (value : Json) (graph : Export) : Prop where
  isRecord : value.IsRecord fieldNames
  filePath : Json.IsOptional Json.IsText (value.held? fieldNames "filePath") graph.filePath
  label : Json.IsRequired Json.IsText (value.held? fieldNames "label") graph.label
  cwe : Json.IsOptional Json.IsWord32 (value.held? fieldNames "cwe") graph.cwe
  nodes : Json.IsRequired (Json.IsList Node.IsToldBy) (value.held? fieldNames "nodes") graph.nodes
  edges : ∀ relation key, relation.key? = some key →
    IsEdgeList (value.held? fieldNames key) (graph.edges? relation)

theorem reads_ofJson? : Json.Reads ofJson? IsToldBy := by
  intro value graph
  cases found : value.fields? fieldNames with
  | none =>
      have untold : ¬IsToldBy value graph := fun told =>
        Json.not_isRecord_of_fields? found told.isRecord
      simp [ofJson?, found, untold]
  | some fields =>
      obtain ⟨record, values⟩ := Json.fields?_eq_some (by decide) found
      simp only [List.map_cons, List.map_nil, List.map_eq_cons_iff, List.map_eq_nil_iff] at values
      obtain ⟨filePath, _, rfl, filePathHeld, label, _, rfl, labelHeld, cwe, _, rfl, cweHeld, nodes,
        _, rfl, nodesHeld, ast, _, rfl, astHeld, cfg, _, rfl, cfgHeld, reachingDef, _, rfl,
        reachingDefHeld, cdg, _, rfl, cdgHeld, rfl⟩ := values
      simp only [ofJson?, found, Option.bind_eq_bind, Option.bind_some, Option.bind_eq_some_iff,
        Option.pure_def, Option.some.injEq, Json.Field.required_eq_some Json.reads_asText?,
        Json.Field.optional_eq_some Json.reads_asText?,
        Json.Field.optional_eq_some Json.reads_asWord32?,
        Json.Field.required_eq_some Node.reads_ofJson?.asList?,
        Json.Field.optional_eq_some reads_edgeOfJson?.asList?,
        filePathHeld, labelHeld, cweHeld, nodesHeld, astHeld, cfgHeld, reachingDefHeld, cdgHeld]
      constructor
      · rintro ⟨_, filePathTold, _, labelTold, _, cweTold, _, nodesTold, _, astTold, _, cfgTold, _,
          reachingDefTold, _, cdgTold, rfl⟩
        refine ⟨record, filePathTold, labelTold, cweTold, nodesTold, ?_⟩
        intro relation key named
        cases relation <;> cases named
        · exact astTold
        · exact cfgTold
        · exact reachingDefTold
        · exact cdgTold
      · intro told
        exact ⟨_, told.filePath, _, told.label, _, told.cwe, _, told.nodes,
          _, told.edges .ast _ rfl, _, told.edges .cfg _ rfl, _, told.edges .reachingDef _ rfl,
          _, told.edges .cdg _ rfl, rfl⟩

/-- The text is a JSON value that tells the graph. -/
def IsToldIn (text : String) (graph : Export) : Prop :=
  ∃ value, Json.parse? text = some value ∧ graph.IsToldBy value

theorem parse?_eq_some {text : String} {graph : Export} :
    parse? text = some graph ↔ graph.IsToldIn text := by
  rw [parse?, Option.bind_eq_some_iff]
  exact exists_congr fun value => and_congr_right fun _ => reads_ofJson? value graph

end Export

end DefectGraphs.Graph
