import DefectGraphs.Balance.Stratum
import DefectGraphs.Graph.Record
import DefectGraphs.Grouping
import DefectGraphs.Random.Draw

/-!
Strata in which safe and unsafe records are equally many. The smaller group of a stratum is topped
up by draws with replacement, from a stream that depends on the stratum's name alone.
-/

namespace DefectGraphs.Balance

open DefectGraphs.Graph DefectGraphs.Random

structure Tally where
  stratum : Stratum
  safe : Nat
  unsafeCount : Nat
  drawn : Nat
  deriving DecidableEq, Repr

def stratumOf (fields : List StratumField) (record : Record α) : Stratum :=
  .select fields record.cwe record.language

/-- Draws with replacement; an empty pool gives nothing. -/
def draw (pool : Array α) : Nat → Stream → List α
  | 0, _ => []
  | count + 1, stream =>
    let (index, stream) := stream.below pool.size
    (pool[index]?).toList ++ draw pool count stream

/-- A stratum's records: those of the larger group, those of the smaller one, and the draws that
make up the difference. The safe group counts as larger when both are of one size. -/
structure Stack (α : Type) where
  larger : List (Record α)
  smaller : List (Record α)
  drawn : List (Record α)

namespace Stack

/-- The stack of two groups, of which the second is not the longer one. -/
def ofGroups (stratum : Stratum) (larger smaller : List (Record α)) : Stack α :=
  let needed := larger.length - smaller.length
  let drawn := if smaller.isEmpty then [] else draw smaller.toArray needed (.ofSeed stratum.seed)
  ⟨larger, smaller, drawn⟩

def ofStratum (stratum : Stratum) (records : List (Record α)) : Stack α :=
  let safe := records.filter (·.isSafe)
  let other := records.filter (!·.isSafe)
  if safe.length < other.length then ofGroups stratum other safe else ofGroups stratum safe other

def records (stack : Stack α) : List (Record α) :=
  stack.larger ++ stack.smaller ++ stack.drawn

end Stack

/-- The strata of a list of records, in the order in which they first appear. -/
def strata (fields : List StratumField) (records : List (Record α)) :
    List (Stratum × List (Record α)) :=
  groupBy (stratumOf fields) records

def oversample (fields : List StratumField) (records : List (Record α)) : List (Record α) :=
  (strata fields records).flatMap fun (stratum, members) =>
    (Stack.ofStratum stratum members).records

def tallies (fields : List StratumField) (records : List (Record α)) : List Tally :=
  (strata fields records).map fun (stratum, members) => {
    stratum
    safe := members.countP (·.isSafe)
    unsafeCount := members.countP (!·.isSafe)
    drawn := (Stack.ofStratum stratum members).drawn.length }

/-- Whether a stratum has records of one kind only, so that nothing can be drawn. -/
def Tally.isOneSided (tally : Tally) : Bool :=
  tally.safe != tally.unsafeCount && (tally.safe == 0 || tally.unsafeCount == 0)

end DefectGraphs.Balance
