import DefectGraphs.Proofs.Outcome
import DefectGraphs.Settings.Basic
import Mathlib.Logic.Function.Basic

/-!
Settings seen key by key: what a setting holds, what it is put to, and what a value stands for there.
An assignment puts one setting to what the value stands for, whatever the settings were.
-/

namespace DefectGraphs.Settings

namespace Key

/-- What a setting can hold. -/
def Content : Key → Type
  | .maxNodes | .vectorSize | .window | .minCount | .epochs | .negative | .buckets | .seed => Nat
  | .astEdges | .cfgEdges | .reachingDefEdges | .cdgEdges | .nextEdges | .selfLoops
  | .parallel => Bool
  | .tie => Channel.Tie
  | .backend => Token.Backend
  | .shape => Label.Shape
  | .stratifyBy => List Balance.StratumField

/-- What a value stands for in a setting. -/
def decode? (value : Value) : (key : Key) → Option key.Content
  | .maxNodes | .vectorSize | .window | .minCount | .epochs | .negative | .buckets | .seed =>
    value.count?
  | .astEdges | .cfgEdges | .reachingDefEdges | .cdgEdges | .nextEdges | .selfLoops
  | .parallel => value.flag?
  | .tie => value.tie?
  | .backend => value.choice? Token.Backend.all Token.Backend.name
  | .shape => value.choice? Label.Shape.all Label.Shape.name
  | .stratifyBy =>
    value.list? (Value.choice? Balance.StratumField.all Balance.StratumField.name)

/-- The value that stands for what a setting holds. -/
def write : (key : Key) → key.Content → Value
  | .maxNodes, count | .vectorSize, count | .window, count | .minCount, count | .epochs, count
  | .negative, count | .buckets, count | .seed, count => .atom (.count count)
  | .astEdges, flag | .cfgEdges, flag | .reachingDefEdges, flag | .cdgEdges, flag
  | .nextEdges, flag | .selfLoops, flag | .parallel, flag => .atom (.flag flag)
  | .tie, .all tied => .atom (.flag tied)
  | .tie, .only indices => .list (indices.map .count)
  | .backend, choice => .atom (.name (Token.Backend.name choice))
  | .shape, choice => .atom (.name (Label.Shape.name choice))
  | .stratifyBy, choices =>
    .list (choices.map fun choice => .name (Balance.StratumField.name choice))

def IsWord (count : Nat) : Prop :=
  count < UInt64.size

/-- The numbers that a setting holds are words of 64 bits. -/
def Fits : (key : Key) → key.Content → Prop
  | .maxNodes, count | .vectorSize, count | .window, count | .minCount, count | .epochs, count
  | .negative, count | .buckets, count | .seed, count => IsWord count
  | .tie, .only indices => ∀ index ∈ indices, IsWord index
  | _, _ => True

theorem list?_map {read : Value → Option α} {write : α → Atom} {items : List α}
    (each : ∀ item ∈ items, read (.atom (write item)) = some item) :
    Value.list? read (.list (items.map write)) = some items := by
  rw [Value.list?, List.mapM_map]
  have all := mapM_eq_some_map (g := id) each
  rwa [List.map_id] at all

theorem decode?_write {key : Key} {content : key.Content} (fits : key.Fits content) :
    key.decode? (key.write content) = some content := by
  have counted {count : Nat} (small : IsWord count) :
      Value.count? (.atom (.count count)) = some count :=
    if_pos small
  cases key with
  | maxNodes | vectorSize | window | minCount | epochs | negative | buckets | seed =>
      exact counted fits
  | astEdges | cfgEdges | reachingDefEdges | cdgEdges | nextEdges | selfLoops | parallel => rfl
  | tie =>
      cases content with
      | all tied => rfl
      | only indices =>
          have read := list?_map fun index member => counted (fits index member)
          exact congrArg (Option.map Channel.Tie.only) read
  | backend => cases content <;> rfl
  | shape => cases content <;> rfl
  | stratifyBy =>
      apply list?_map
      intro field _
      cases field <;> rfl

theorem ofName?_name (key : Key) : ofName? key.name = some key := by
  cases key <;> rfl

theorem ofName?_eq_some_iff {name : String} {key : Key} :
    ofName? name = some key ↔ key.name = name := by
  constructor
  · intro found
    simpa using List.find?_some found
  · rintro rfl
    exact ofName?_name key

end Key

def held (settings : Settings) : (key : Key) → key.Content
  | .maxNodes => settings.maxNodes
  | .astEdges => settings.astEdges
  | .cfgEdges => settings.cfgEdges
  | .reachingDefEdges => settings.reachingDefEdges
  | .cdgEdges => settings.cdgEdges
  | .nextEdges => settings.nextEdges
  | .selfLoops => settings.selfLoops
  | .tie => settings.tie
  | .vectorSize => settings.vectorSize
  | .window => settings.window
  | .minCount => settings.minCount
  | .epochs => settings.epochs
  | .negative => settings.negative
  | .buckets => settings.buckets
  | .backend => settings.backend
  | .shape => settings.shape
  | .stratifyBy => settings.stratifyBy
  | .seed => settings.seed
  | .parallel => settings.parallel

def ofHeld (held : (key : Key) → key.Content) : Settings :=
  ⟨held .maxNodes, held .astEdges, held .cfgEdges, held .reachingDefEdges, held .cdgEdges,
    held .nextEdges, held .selfLoops, held .tie, held .vectorSize, held .window, held .minCount,
    held .epochs, held .negative, held .buckets, held .backend, held .shape, held .stratifyBy,
    held .seed, held .parallel⟩

theorem ofHeld_held (settings : Settings) : ofHeld settings.held = settings := rfl

theorem ext_held {settings other : Settings} (same : ∀ key, settings.held key = other.held key) :
    settings = other := by
  rw [← ofHeld_held settings, funext same, ofHeld_held]

theorem held_ofHeld (held : (key : Key) → key.Content) : (ofHeld held).held = held := by
  funext key
  cases key <;> rfl

def put (settings : Settings) (key : Key) (content : key.Content) : Settings :=
  ofHeld (Function.update settings.held key content)

@[simp] theorem held_put (settings : Settings) (key : Key) (content : key.Content) :
    (settings.put key content).held key = content := by
  rw [put, held_ofHeld, Function.update_self]

theorem held_put_of_ne (settings : Settings) {key other : Key} (content : key.Content)
    (apart : other ≠ key) : (settings.put key content).held other = settings.held other := by
  rw [put, held_ofHeld, Function.update_of_ne apart]

theorem assign_eq (settings : Settings) (key : Key) (value : Value) :
    settings.assign key value = (key.decode? value).map (settings.put key) := by
  cases key <;> rfl

theorem assign_eq_some_iff {settings changed : Settings} {key : Key} {value : Value} :
    settings.assign key value = some changed ↔
      key.decode? value = some (changed.held key) ∧
        ∀ other, other ≠ key → changed.held other = settings.held other := by
  rw [assign_eq, Option.map_eq_some_iff]
  constructor
  · rintro ⟨content, decoded, rfl⟩
    rw [held_put]
    exact ⟨decoded, fun other => settings.held_put_of_ne content⟩
  · rintro ⟨decoded, others⟩
    refine ⟨_, decoded, ext_held fun other => ?_⟩
    by_cases same : other = key
    · subst same
      exact settings.held_put _ _
    · rw [settings.held_put_of_ne _ same, others other same]

/-- Assignments to different keys are independent of one another. -/
theorem assignAll_eq_some_iff {settings changed : Settings} {values : List (Key × Value)}
    (distinct : (values.map Prod.fst).Nodup) :
    settings.assignAll values = some changed ↔
      (∀ pair ∈ values, pair.1.decode? pair.2 = some (changed.held pair.1)) ∧
        ∀ key ∉ values.map Prod.fst, changed.held key = settings.held key := by
  induction values generalizing settings with
  | nil =>
      simp only [assignAll, List.foldlM_nil, Option.pure_def, Option.some.injEq]
      constructor
      · rintro rfl
        simp
      · rintro ⟨-, same⟩
        exact ext_held fun key => (same key List.not_mem_nil).symm
  | cons pair rest induction =>
      obtain ⟨key, value⟩ := pair
      obtain ⟨later, distinct⟩ := List.nodup_cons.mp distinct
      have step : settings.assignAll ((key, value) :: rest) =
          (settings.assign key value).bind (·.assignAll rest) := List.foldlM_cons
      rw [step, Option.bind_eq_some_iff, List.forall_mem_cons]
      simp only [induction distinct, assign_eq_some_iff, List.map_cons, List.mem_cons, not_or]
      constructor
      · rintro ⟨middle, ⟨decoded, others⟩, values, kept⟩
        refine ⟨⟨?_, values⟩, ?_⟩
        · rw [kept key later]
          exact decoded
        · rintro other ⟨apart, unnamed⟩
          rw [kept other unnamed, others other apart]
      · rintro ⟨⟨decoded, values⟩, kept⟩
        refine ⟨settings.put key (changed.held key), ⟨?_, ?_⟩, values, ?_⟩
        · rw [held_put]
          exact decoded
        · exact fun other => settings.held_put_of_ne _
        · intro other unnamed
          by_cases same : other = key
          · subst same
            rw [held_put]
          · rw [settings.held_put_of_ne _ same]
            exact kept other ⟨same, unnamed⟩

end DefectGraphs.Settings
