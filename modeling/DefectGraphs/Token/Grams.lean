import DefectGraphs.Text.Digest

/-!
Character grams: the short runs of characters in a token between boundary marks, and the rows that
they share by their digest.
-/

namespace DefectGraphs.Token

structure GramTable where
  least : Nat
  most : Nat
  buckets : Nat
  deriving DecidableEq, Repr

namespace GramTable

def standard (buckets : Nat) : GramTable :=
  ⟨3, 6, buckets⟩

/-- The starts of a text whose length is between `least` and `most`, shortest first. -/
private def starts (table : GramTable) (chars : List Char) : List (List Char) :=
  ((List.range' table.least (table.most + 1 - table.least)).filter (· ≤ chars.length)).map
    (chars.take ·)

/-- All grams of a text, by where they start and then by length. -/
def gramsOf (table : GramTable) : List Char → List (List Char)
  | [] => []
  | c :: rest => table.starts (c :: rest) ++ table.gramsOf rest

/-- The token between the marks of its ends. -/
def bounded (token : String) : List Char :=
  '<' :: token.toList ++ ['>']

def grams (table : GramTable) (token : String) : List String :=
  (table.gramsOf (bounded token)).map String.ofList

/-- The row of a digest, past the first `offset` rows. Rows are counted in words of 32 bits, so a
table that needs more of them wraps around to the first ones. -/
def row (table : GramTable) (offset : Nat) (digest : UInt64) : Nat :=
  (offset + digest.toNat % table.buckets) % UInt32.size

theorem row_eq_of_le {table : GramTable} {offset : Nat} (some : 0 < table.buckets)
    (fits : offset + table.buckets ≤ UInt32.size) (digest : UInt64) :
    table.row offset digest = offset + digest.toNat % table.buckets := by
  have small := Nat.mod_lt digest.toNat some
  exact Nat.mod_eq_of_lt (by omega)

theorem row_lt {table : GramTable} (some : 0 < table.buckets) (offset : Nat) (digest : UInt64) :
    table.row offset digest < offset + table.buckets := by
  have small := Nat.mod_lt digest.toNat some
  have least := Nat.mod_le (offset + digest.toNat % table.buckets) UInt32.size
  rw [row]
  omega

/-- The rows of a token's grams. -/
def rows (table : GramTable) (offset : Nat) (token : String) : List Nat :=
  (table.grams token).map fun gram => table.row offset (Text.digest gram)

end GramTable

end DefectGraphs.Token
