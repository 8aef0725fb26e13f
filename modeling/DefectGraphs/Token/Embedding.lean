import DefectGraphs.Token.Backend

/-!
Embeddings: what gives a vector to every descriptor.
-/

namespace DefectGraphs.Token

abbrev Row := Array Float32

structure Embedding where
  backend : Backend
  vectorSize : Nat
  /-- The number of descriptors with a row of their own. -/
  vocabularySize : Nat
  vector : String → Row

end DefectGraphs.Token
