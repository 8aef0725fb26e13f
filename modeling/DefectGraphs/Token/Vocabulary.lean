import Std.Data.HashMap

/-!
Vocabularies: the descriptors of a corpus that occur often enough, ranked by how often they do.
-/

namespace DefectGraphs.Token

/-- The place of the first occurrence of each text in a list. -/
def indexTexts (texts : List String) : Std.HashMap String Nat :=
  texts.zipIdx.foldr (fun (text, place) index => index.insert text place) ∅

private theorem getElem?_foldr_insert (texts : List String) (start : Nat) (text : String) :
    ((texts.zipIdx start).foldr (fun (text, place) index => index.insert text place)
      (∅ : Std.HashMap String Nat))[text]? = (texts.idxOf? text).map (· + start) := by
  induction texts generalizing start with
  | nil => simp
  | cons head tail ih =>
    simp only [List.zipIdx_cons, List.foldr_cons, Std.HashMap.getElem?_insert, ih,
      List.idxOf?_cons]
    by_cases h : head = text
    · simp [h]
    · simp only [beq_iff_eq, h, if_false, Option.map_map]
      congr 1
      funext place
      simp [Nat.add_assoc, Nat.add_comm 1]

theorem getElem?_indexTexts (texts : List String) (text : String) :
    (indexTexts texts)[text]? = texts.idxOf? text := by
  simp [indexTexts, getElem?_foldr_insert]

/-- Descriptors with their counts. The row of a descriptor is its place in the list, which is the
same as a word of 32 bits in a vocabulary of no more than `Vocabulary.maxSize` descriptors. -/
structure Vocabulary where
  entries : List (String × Nat)
  index : Std.HashMap String Nat
  index_eq : index = indexTexts (entries.map Prod.fst)

namespace Vocabulary

/-- As many descriptors as words of 32 bits tell apart. -/
def maxSize : Nat := UInt32.size

def ofEntries (entries : List (String × Nat)) : Vocabulary :=
  ⟨entries, indexTexts (entries.map Prod.fst), rfl⟩

def size (vocabulary : Vocabulary) : Nat :=
  vocabulary.entries.length

def tokens (vocabulary : Vocabulary) : List String :=
  vocabulary.entries.map Prod.fst

def counts (vocabulary : Vocabulary) : List Nat :=
  vocabulary.entries.map Prod.snd

def indexOf? (vocabulary : Vocabulary) (token : String) : Option Nat :=
  vocabulary.index[token]?

theorem indexOf?_eq (vocabulary : Vocabulary) (token : String) :
    vocabulary.indexOf? token = vocabulary.tokens.idxOf? token := by
  rw [indexOf?, vocabulary.index_eq, getElem?_indexTexts, tokens]

def token? (vocabulary : Vocabulary) (index : Nat) : Option String :=
  (vocabulary.entries[index]?).map Prod.fst

def tally (tokens : List String) : Std.HashMap String Nat :=
  tokens.foldl (fun counts token => counts.alter token fun count => some (count.getD 0 + 1)) ∅

/-- The distinct tokens, in the order in which they first appear. -/
def distinct (tokens : List String) : List String :=
  (tokens.foldl
    (fun (seen, found) token =>
      if seen.contains token then (seen, found) else (seen.insert token (), token :: found))
    ((∅ : Std.HashMap String Unit), [])).2.reverse

/-- The tokens that occur at least `minCount` times, the more frequent ones first; tokens of one
count keep the order in which they first appear. -/
def build (sentences : List (List String)) (minCount : Nat) : Vocabulary :=
  let tokens := sentences.flatten
  let counts := tally tokens
  let counted := (distinct tokens).map fun token => (token, counts.getD token 0)
  ofEntries ((counted.filter fun entry => minCount ≤ entry.2).mergeSort
    fun left right => right.2 ≤ left.2)

/-- A sentence as rows, without the tokens that have none. -/
def encode (vocabulary : Vocabulary) (sentence : List String) : List Nat :=
  sentence.filterMap vocabulary.indexOf?

end Vocabulary

end DefectGraphs.Token
