import DefectGraphs.Balance.Stratum
import DefectGraphs.Channel.Layout
import DefectGraphs.Label.Target
import DefectGraphs.Token.Backend

/-!
The settings of a data set: their names and defaults, how a named value is assigned to them, and
which combinations are valid.
-/

namespace DefectGraphs

structure Settings where
  maxNodes : Nat
  astEdges : Bool
  cfgEdges : Bool
  reachingDefEdges : Bool
  cdgEdges : Bool
  nextEdges : Bool
  selfLoops : Bool
  tie : Channel.Tie
  vectorSize : Nat
  window : Nat
  minCount : Nat
  epochs : Nat
  negative : Nat
  buckets : Nat
  backend : Token.Backend
  shape : Label.Shape
  stratifyBy : List Balance.StratumField
  seed : Nat
  parallel : Bool
  deriving DecidableEq, Repr

namespace Settings

def default : Settings where
  maxNodes := 10000
  astEdges := true
  cfgEdges := true
  reachingDefEdges := true
  cdgEdges := true
  nextEdges := true
  selfLoops := true
  tie := .all false
  vectorSize := 100
  window := 5
  minCount := 5
  epochs := 5
  negative := 5
  buckets := 100000
  backend := .wordRows
  shape := .oneHot
  stratifyBy := [.cwe, .language]
  seed := 0
  parallel := true

/-- The settings by name, in declaration order. -/
inductive Key where
  | maxNodes
  | astEdges
  | cfgEdges
  | reachingDefEdges
  | cdgEdges
  | nextEdges
  | selfLoops
  | tie
  | vectorSize
  | window
  | minCount
  | epochs
  | negative
  | buckets
  | backend
  | shape
  | stratifyBy
  | seed
  | parallel
  deriving DecidableEq, Repr

namespace Key

def all : List Key :=
  [.maxNodes, .astEdges, .cfgEdges, .reachingDefEdges, .cdgEdges, .nextEdges, .selfLoops, .tie,
    .vectorSize, .window, .minCount, .epochs, .negative, .buckets, .backend, .shape, .stratifyBy,
    .seed, .parallel]

def name : Key → String
  | .maxNodes => "max_nodes_per_batch"
  | .astEdges => "add_ast_edges"
  | .cfgEdges => "add_cfg_edges"
  | .reachingDefEdges => "add_reaching_def_edges"
  | .cdgEdges => "add_cdg_edges"
  | .nextEdges => "add_next_edges"
  | .selfLoops => "add_self_loop_edges"
  | .tie => "tie_fwd_bkwd_edges"
  | .vectorSize => "w2v_vector_size"
  | .window => "w2v_window"
  | .minCount => "w2v_min_count"
  | .epochs => "w2v_epochs"
  | .negative => "w2v_negative"
  | .buckets => "subword_buckets"
  | .backend => "embedding_backend"
  | .shape => "label_kind"
  | .stratifyBy => "stratify_by"
  | .seed => "random_seed"
  | .parallel => "parallel_load"

def ofName? (name : String) : Option Key :=
  all.find? fun key => key.name == name

end Key

/-- A value without parts, as far as settings tell values apart. -/
inductive Atom where
  | flag (value : Bool)
  | count (value : Nat)
  | name (value : String)
  | other
  deriving DecidableEq, Repr

/-- A value that may be assigned to a setting, whatever format it was written in. -/
inductive Value where
  | atom (value : Atom)
  | list (items : List Atom)
  deriving DecidableEq, Repr

namespace Value

def flag? : Value → Option Bool
  | .atom (.flag value) => some value
  | _ => none

def count? : Value → Option Nat
  | .atom (.count value) => if value < UInt64.size then some value else none
  | _ => none

def choice? (choices : List α) (name : α → String) : Value → Option α
  | .atom (.name value) => choices.find? fun choice => name choice == value
  | _ => none

def list? (read : Value → Option α) : Value → Option (List α)
  | .list items => items.mapM fun item => read (.atom item)
  | _ => none

def tie? (value : Value) : Option Channel.Tie :=
  (value.flag?.map .all).or ((value.list? count?).map .only)

end Value

def assign (settings : Settings) (key : Key) (value : Value) : Option Settings :=
  match key with
  | .maxNodes => value.count?.map ({ settings with maxNodes := · })
  | .astEdges => value.flag?.map ({ settings with astEdges := · })
  | .cfgEdges => value.flag?.map ({ settings with cfgEdges := · })
  | .reachingDefEdges => value.flag?.map ({ settings with reachingDefEdges := · })
  | .cdgEdges => value.flag?.map ({ settings with cdgEdges := · })
  | .nextEdges => value.flag?.map ({ settings with nextEdges := · })
  | .selfLoops => value.flag?.map ({ settings with selfLoops := · })
  | .tie => value.tie?.map ({ settings with tie := · })
  | .vectorSize => value.count?.map ({ settings with vectorSize := · })
  | .window => value.count?.map ({ settings with window := · })
  | .minCount => value.count?.map ({ settings with minCount := · })
  | .epochs => value.count?.map ({ settings with epochs := · })
  | .negative => value.count?.map ({ settings with negative := · })
  | .buckets => value.count?.map ({ settings with buckets := · })
  | .backend => (value.choice? Token.Backend.all Token.Backend.name).map
      ({ settings with backend := · })
  | .shape => (value.choice? Label.Shape.all Label.Shape.name).map ({ settings with shape := · })
  | .stratifyBy =>
      (value.list? (Value.choice? Balance.StratumField.all Balance.StratumField.name)).map
        ({ settings with stratifyBy := · })
  | .seed => value.count?.map ({ settings with seed := · })
  | .parallel => value.flag?.map ({ settings with parallel := · })

def assignAll (settings : Settings) (values : List (Key × Value)) : Option Settings :=
  values.foldlM (fun settings (key, value) => settings.assign key value) settings

/-- The forward relations that are switched on, in channel order. -/
def relations (settings : Settings) : List Channel.Relation :=
  Channel.Relation.all.filter fun
    | .ast => settings.astEdges
    | .cfg => settings.cfgEdges
    | .reachingDef => settings.reachingDefEdges
    | .cdg => settings.cdgEdges
    | .next => settings.nextEdges

def forwardCount (settings : Settings) : Nat :=
  [settings.astEdges, settings.cfgEdges, settings.reachingDefEdges, settings.cdgEdges,
    settings.nextEdges].count true

def layout (settings : Settings) : Channel.Layout :=
  .ofTie settings.forwardCount settings.tie settings.selfLoops

def training (settings : Settings) : Token.Training where
  vectorSize := settings.vectorSize
  window := settings.window
  minCount := settings.minCount
  epochs := settings.epochs
  negative := settings.negative
  seed := settings.seed
  buckets := settings.buckets

def strayTie? (settings : Settings) : Option Nat :=
  match settings.tie with
  | .all _ => none
  | .only indices => indices.find? (settings.forwardCount ≤ ·)

def problem? (settings : Settings) : Option SettingsError :=
  if settings.maxNodes = 0 then some (.notPositive Key.maxNodes.name)
  else if settings.vectorSize = 0 then some (.notPositive Key.vectorSize.name)
  else if settings.window = 0 then some (.notPositive Key.window.name)
  else if settings.backend = .subword ∧ settings.buckets = 0 then
    some (.notPositive Key.buckets.name)
  else settings.strayTie?.map (.tieOutOfRange · settings.forwardCount)

def validate (settings : Settings) : Except Failure Unit :=
  match settings.problem? with
  | none => .ok ()
  | some error => .error (.settings error)

end Settings

end DefectGraphs
