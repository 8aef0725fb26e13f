import DefectGraphs.Token.Embedding
import Std.Data.HashMap

/-!
Looked-up vectors, kept so that an embedding is asked once for each descriptor.
-/

namespace DefectGraphs.Token

structure Cache where
  vectors : Std.HashMap String Row
  queries : Nat

namespace Cache

def empty : Cache := ⟨∅, 0⟩

def size (cache : Cache) : Nat := cache.vectors.size

/-- The first step of a lookup: a vector that is already there. -/
def probe (cache : Cache) (descriptor : String) : Option Row :=
  cache.vectors[descriptor]?

/-- The second step: the vector that is there by now, or else the embedding's, which is kept. -/
def settle (embedding : Embedding) (cache : Cache) (descriptor : String) : Row × Cache :=
  match cache.vectors[descriptor]? with
  | some vector => (vector, cache)
  | none =>
    let vector := embedding.vector descriptor
    (vector, ⟨cache.vectors.insert descriptor vector, cache.queries + 1⟩)

def lookup (embedding : Embedding) (cache : Cache) (descriptor : String) : Row × Cache :=
  match cache.probe descriptor with
  | some vector => (vector, cache)
  | none => cache.settle embedding descriptor

def lookupAll (embedding : Embedding) (cache : Cache) : List String → List Row × Cache
  | [] => ([], cache)
  | descriptor :: rest =>
    let (vector, cache) := cache.lookup embedding descriptor
    let (vectors, cache) := cache.lookupAll embedding rest
    (vector :: vectors, cache)

end Cache

end DefectGraphs.Token
