import DefectGraphs.Label.Language
import DefectGraphs.Text.Digest

/-!
The strata in which safe and unsafe samples are balanced against each other.
-/

namespace DefectGraphs.Balance

inductive StratumField where
  | cwe
  | language
  deriving DecidableEq, Repr

namespace StratumField

def all : List StratumField := [.cwe, .language]

def name : StratumField → String
  | .cwe => "cwe"
  | .language => "language"

end StratumField

/-- The values of the selected fields; a field that is not selected has none. -/
structure Stratum where
  cwe : Option Nat
  language : Option Label.Language
  deriving DecidableEq, Repr

namespace Stratum

def select (fields : List StratumField) (cwe : Option Nat) (language : Option Label.Language) :
    Stratum where
  cwe := if fields.contains .cwe then cwe else none
  language := if fields.contains .language then language else none

def name (stratum : Stratum) : String :=
  "cwe=" ++ (stratum.cwe.map toString).getD "-" ++
    " language=" ++ (stratum.language.map Label.Language.name).getD "-"

/-- The seed of a stratum's draws depends on its name alone. -/
def seed (stratum : Stratum) : Nat :=
  (Text.digest stratum.name).toNat

end Stratum

end DefectGraphs.Balance
