import DefectGraphs.Graph.Loading
import DefectGraphs.Proofs.Channel.Layout
import DefectGraphs.Proofs.Outcome

/-!
The edges that the settings ask of a graph: which list is the first that is missing, what the edges
of every relation are when none is, and that the channels made of them name nodes of the graph.
-/

namespace DefectGraphs

open Channel

namespace Settings

/-- Whether the edges of a relation are laid out. -/
def enables (settings : Settings) : Relation → Bool
  | .ast => settings.astEdges
  | .cfg => settings.cfgEdges
  | .reachingDef => settings.reachingDefEdges
  | .cdg => settings.cdgEdges
  | .next => settings.nextEdges

theorem relations_eq (settings : Settings) :
    settings.relations = Relation.all.filter settings.enables := by
  unfold relations
  congr

theorem mem_relations_iff {settings : Settings} {relation : Relation} :
    relation ∈ settings.relations ↔ settings.enables relation = true := by
  rw [relations_eq, List.mem_filter]
  exact and_iff_right (by cases relation <;> decide)

theorem length_relations (settings : Settings) :
    settings.relations.length = settings.forwardCount := by
  unfold relations forwardCount Relation.all
  cases settings.astEdges <;> cases settings.cfgEdges <;> cases settings.reachingDefEdges <;>
    cases settings.cdgEdges <;> cases settings.nextEdges <;> rfl

end Settings

namespace Channel

/-- Both ends are nodes of a graph that has so many. -/
def Edge.IsWithin (nodes : Nat) (edge : Edge) : Prop :=
  edge.source.toNat < nodes ∧ edge.target.toNat < nodes

theorem Edge.IsWithin.flip {nodes : Nat} {edge : Edge} (within : edge.IsWithin nodes) :
    edge.flip.IsWithin nodes :=
  within.symm

/-- Each node but the last is joined to the one after it. A number of nodes that is no word wraps
around. -/
theorem ends_nextEdges (nodes : Nat) :
    (nextEdges nodes).map (fun edge => (edge.source.toNat, edge.target.toNat)) =
      (List.range (nodes % UInt32.size - 1)).map fun node => (node, node + 1) := by
  rw [nextEdges, List.map_map]
  apply List.map_congr_left
  intro node member
  have few : nodes % UInt32.size < UInt32.size := Nat.mod_lt nodes (by decide)
  have small : node + 1 < UInt32.size := by
    have := List.mem_range.mp member
    omega
  exact Prod.ext (Nat.mod_eq_of_lt (Nat.lt_of_succ_lt small)) (Nat.mod_eq_of_lt small)

theorem isWithin_of_mem_nextEdges {nodes : Nat} {edge : Edge} (member : edge ∈ nextEdges nodes) :
    edge.IsWithin nodes := by
  have ends := List.mem_map_of_mem (f := fun edge => (edge.source.toNat, edge.target.toNat)) member
  rw [ends_nextEdges] at ends
  obtain ⟨node, before, same⟩ := List.mem_map.mp ends
  obtain ⟨source, target⟩ := Prod.mk.inj same
  have fewer := Nat.mod_le nodes UInt32.size
  have := List.mem_range.mp before
  exact ⟨by omega, by omega⟩

theorem isWithin_of_mem_selfLoops {nodes : Nat} {edge : Edge} (member : edge ∈ selfLoops nodes) :
    edge.IsWithin nodes := by
  obtain ⟨node, before, rfl⟩ := List.mem_map.mp member
  have before := List.mem_range.mp before
  have few : nodes % UInt32.size < UInt32.size := Nat.mod_lt nodes (by decide)
  have own : node.toUInt32.toNat = node := Nat.mod_eq_of_lt (Nat.lt_trans before few)
  have fits : node < nodes := Nat.lt_of_lt_of_le before (Nat.mod_le nodes UInt32.size)
  rw [← own] at fits
  exact ⟨fits, fits⟩

/-- Channels have no ends that neither the relations nor the self loops have. -/
theorem Layout.isWithin_of_mem_encode {layout : Layout} {forward : List (List Edge)} {nodes : Nat}
    (within : ∀ edges ∈ forward, ∀ edge ∈ edges, edge.IsWithin nodes) :
    ∀ edges ∈ layout.encode forward nodes, ∀ edge ∈ edges, edge.IsWithin nodes := by
  have flipped (edges : List Edge) (member : edges ∈ forward) :
      ∀ edge ∈ edges.map Edge.flip, edge.IsWithin nodes := by
    intro edge there
    obtain ⟨own, held, rfl⟩ := List.mem_map.mp there
    exact (within edges member own held).flip
  intro edges member
  simp only [encode_eq, List.mem_append] at member
  rcases member with (isForward | isReverse) | isLoops
  · obtain ⟨⟨own, kind⟩, entry, rfl⟩ := List.mem_map.mp isForward
    have member := List.fst_mem_of_mem_zipIdx entry
    dsimp only
    split
    · rw [List.forall_mem_append]
      exact ⟨within own member, flipped own member⟩
    · exact within own member
  · obtain ⟨⟨own, kind⟩, entry, rfl⟩ := List.mem_map.mp isReverse
    exact flipped own (List.fst_mem_of_mem_zipIdx (List.mem_filter.mp entry).1)
  · split at isLoops
    · rw [List.mem_singleton.mp isLoops]
      exact fun edge => isWithin_of_mem_selfLoops
    · cases isLoops

end Channel

namespace Graph

/-- The relations whose edges a graph declares, in the order in which they are looked for. -/
def declared : List Relation := [.ast, .cfg, .reachingDef, .cdg]

theorem mem_declared_iff {relation : Relation} : relation ∈ declared ↔ relation ≠ .next := by
  cases relation <;> decide

namespace Export

/-- The first relation that is switched on and whose edges the graph should declare but does not. -/
def missing? (settings : Settings) (graph : Export) : Option Relation :=
  declared.find? fun relation => settings.enables relation && (graph.edges? relation).isNone

/-- The edges of a relation, none where they should be declared but are not. -/
def relationEdges (graph : Export) : Relation → List Edge
  | .next => nextEdges graph.nodes.length
  | relation => (graph.edges? relation).getD []

/-- When no edge list is missing, each relation that is switched on has its own. -/
theorem edges?_of_missing? {settings : Settings} {graph : Export}
    (complete : graph.missing? settings = none) {relation : Relation}
    (member : relation ∈ declared) (enabled : settings.enables relation = true) :
    graph.edges? relation = some (graph.relationEdges relation) := by
  have given := List.find?_eq_none.mp complete relation member
  rw [enabled, Bool.true_and, Option.isNone_iff_eq_none] at given
  obtain ⟨edges, held⟩ := Option.ne_none_iff_exists'.mp given
  cases relation with
  | next => cases held
  | _ => simp only [relationEdges, held, Option.getD_some]

def lacks (graph : Export) (relation : Relation) : Bool :=
  relation.key?.isSome && (graph.edges? relation).isNone

theorem missing?_eq (settings : Settings) (graph : Export) :
    graph.missing? settings = settings.relations.find? graph.lacks := by
  rw [missing?, Settings.relations_eq, List.find?_filter]
  simp [declared, Relation.all, lacks, Relation.key?, List.find?_cons, -Option.isNone_iff_eq_none]

end Export

/-- The edges of one forward relation. -/
def edgesOf (graph : Export) (path : Files.Path) (relation : Relation) :
    Except Failure (List Edge) :=
  match relation.key? with
  | none => .ok (nextEdges graph.nodes.length)
  | some key =>
    match graph.edges? relation with
    | some edges => .ok edges
    | none => .error (.missingEdgeList path key)

variable {graph : Export} {path : Files.Path}

theorem forwardEdges_eq (graph : Export) (path : Files.Path) (relations : List Relation) :
    forwardEdges graph path relations = relations.mapM (edgesOf graph path) := rfl

theorem edgesOf_eq_ok {relation : Relation} {edges : List Edge} :
    edgesOf graph path relation = .ok edges ↔
      graph.lacks relation = false ∧ graph.relationEdges relation = edges := by
  cases declares : graph.edges? relation <;> cases relation <;>
    simp_all [edgesOf, Export.lacks, Export.relationEdges, Relation.key?, Export.edges?]

theorem edgesOf_eq_error {relation : Relation} {failure : Failure} :
    edgesOf graph path relation = .error failure ↔
      graph.lacks relation = true ∧
        ∃ key, relation.key? = some key ∧ .missingEdgeList path key = failure := by
  cases declares : graph.edges? relation <;> cases relation <;>
    simp_all [edgesOf, Export.lacks, Relation.key?, Export.edges?]

theorem forwardEdges_eq_ok {settings : Settings} {forward : List (List Edge)} :
    forwardEdges graph path settings.relations = .ok forward ↔
      graph.missing? settings = none ∧ settings.relations.map graph.relationEdges = forward := by
  have each : List.Forall₂ (fun relation edges => graph.relationEdges relation = edges)
      settings.relations forward ↔ settings.relations.map graph.relationEdges = forward := by
    rw [← List.forall₂_map_left_iff (R := (· = ·)), List.forall₂_eq_eq_eq]
  simp only [forwardEdges_eq, mapM_eq_ok, edgesOf_eq_ok, List.forall₂_and_left, each,
    Export.missing?_eq, List.find?_eq_none, Bool.not_eq_true]

theorem exists_missing_of_forwardEdges {settings : Settings} {failure : Failure}
    (failed : forwardEdges graph path settings.relations = .error failure) :
    ∃ relation key, graph.missing? settings = some relation ∧ relation.key? = some key ∧
      .missingEdgeList path key = failure := by
  rw [forwardEdges_eq] at failed
  obtain ⟨before, relation, after, split, succeeded, fails⟩ := exists_of_mapM_eq_error failed
  obtain ⟨lacks, key, named, rfl⟩ := edgesOf_eq_error.mp fails
  refine ⟨relation, key, ?_, named, rfl⟩
  rw [Export.missing?_eq, List.find?_eq_some_iff_append]
  refine ⟨lacks, before, after, split, fun earlier member => ?_⟩
  obtain ⟨edges, collected⟩ := succeeded earlier member
  rw [(edgesOf_eq_ok.mp collected).1, Bool.not_false]

theorem forwardEdges_eq_error {settings : Settings} {failure : Failure} :
    forwardEdges graph path settings.relations = .error failure ↔
      ∃ relation key, graph.missing? settings = some relation ∧ relation.key? = some key ∧
        .missingEdgeList path key = failure := by
  refine ⟨exists_missing_of_forwardEdges, ?_⟩
  rintro ⟨relation, key, missing, named, rfl⟩
  cases collected : forwardEdges graph path settings.relations with
  | ok forward => cases missing.symm.trans (forwardEdges_eq_ok.mp collected).1
  | error failure =>
      -- The outcome is a failure, so it is that of the one relation which is missing first.
      obtain ⟨other, otherKey, otherMissing, otherNamed, rfl⟩ :=
        exists_missing_of_forwardEdges collected
      cases missing.symm.trans otherMissing
      cases named.symm.trans otherNamed
      rfl

/-- A graph whose declared edges are within it has all edges within it. -/
theorem isWithin_of_mem_relationEdges {settings : Settings}
    (within : ∀ relation ∈ declared, settings.enables relation = true →
      ∀ edge ∈ graph.relationEdges relation, edge.IsWithin graph.nodes.length) :
    ∀ edges ∈ settings.relations.map graph.relationEdges, ∀ edge ∈ edges,
      edge.IsWithin graph.nodes.length := by
  rw [List.forall_mem_map]
  intro relation member
  by_cases isNext : relation = .next
  · rw [isNext]
    exact fun edge => isWithin_of_mem_nextEdges
  · exact within relation (mem_declared_iff.mpr isNext) (Settings.mem_relations_iff.mp member)

theorem length_forwardEdges {relations : List Relation} {forward : List (List Edge)}
    (collected : forwardEdges graph path relations = .ok forward) :
    forward.length = relations.length :=
  (mapM_eq_ok.mp collected).length_eq.symm

theorem length_encode_of_forwardEdges {settings : Settings} {forward : List (List Edge)}
    (collected : forwardEdges graph path settings.relations = .ok forward) (nodes : Nat) :
    (settings.layout.encode forward nodes).length = settings.layout.channelCount :=
  (Layout.ties_ofTie _ _ _).length_encode nodes
    ((length_forwardEdges collected).trans settings.length_relations)

end Graph

end DefectGraphs
