/-!
The two ways of giving vectors to descriptors.
-/

namespace DefectGraphs.Token

/-- A closed vocabulary has one vector for each descriptor seen often enough; with subwords a
descriptor is the mean of its own row and those of its character grams. -/
inductive Backend where
  | wordRows
  | subword
  deriving DecidableEq, Repr

namespace Backend

def all : List Backend := [.wordRows, .subword]

def name : Backend → String
  | .wordRows => "word2vec"
  | .subword => "subword"

end Backend

structure Training where
  vectorSize : Nat
  window : Nat
  minCount : Nat
  epochs : Nat
  /-- How many other words each pair is contrasted with. -/
  negative : Nat
  seed : Nat
  /-- How many rows the character grams share. -/
  buckets : Nat
  deriving DecidableEq, Repr

end DefectGraphs.Token
