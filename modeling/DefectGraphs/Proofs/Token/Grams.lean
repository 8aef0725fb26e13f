import DefectGraphs.Proofs.Token.Descriptor
import DefectGraphs.Proofs.Token.InBounds
import Mathlib.Algebra.BigOperators.Intervals

/-!
The grams of a token are counted out once each, by where they start and then by length, and every
digest gives them rows within their range. A search that leaves a place at the first gram that is too
long for it misses none, and the descriptor of a node is never without grams.
-/

namespace DefectGraphs.Token

namespace GramTable

variable (table : GramTable)

/-- The gram of a number of characters that begins at a place of the token between its marks. -/
def gramAt (token : String) (start count : Nat) : String :=
  String.ofList (((bounded token).drop start).take count)

theorem length_bounded (token : String) : (bounded token).length = token.toList.length + 2 := by
  simp [bounded]

section Spans

def lengths : List Nat :=
  List.range' table.least (table.most + 1 - table.least)

/-- Where a gram starts and how long it is, for each gram of a text of that size. -/
def spans (size : Nat) : List (Nat × Nat) :=
  (List.range size).flatMap fun start =>
    (table.lengths.filter (start + · ≤ size)).map (Prod.mk start)

theorem mem_lengths {count : Nat} :
    count ∈ table.lengths ↔ table.least ≤ count ∧ count ≤ table.most := by
  rw [lengths, List.mem_range'_1]
  omega

theorem mem_spans (positive : 1 ≤ table.least) {size start count : Nat} :
    (start, count) ∈ table.spans size ↔
      table.least ≤ count ∧ count ≤ table.most ∧ start + count ≤ size := by
  simp only [spans, List.mem_flatMap, List.mem_range, List.mem_map, List.mem_filter, mem_lengths,
    decide_eq_true_eq, Prod.mk.injEq]
  constructor
  · intro ⟨_, _, _, ⟨listed, fits⟩, sameStart, sameCount⟩
    subst sameStart sameCount
    exact ⟨listed.1, listed.2, fits⟩
  · intro ⟨least, most, fits⟩
    exact ⟨start, by omega, count, ⟨⟨least, most⟩, fits⟩, rfl, rfl⟩

theorem pairwise_spans (size : Nat) :
    (table.spans size).Pairwise (Prod.Lex (· < ·) (· < ·)) := by
  rw [spans, List.pairwise_flatMap]
  constructor
  · intro start _
    rw [List.pairwise_map]
    have ascending : table.lengths.Pairwise (· < ·) := List.pairwise_lt_range'
    apply (ascending.filter _).imp
    intro count longer shorter
    exact .right start shorter
  · apply List.pairwise_lt_range.imp
    intro start later before first member second member'
    obtain ⟨_, _, same⟩ := List.mem_map.mp member
    obtain ⟨_, _, same'⟩ := List.mem_map.mp member'
    subst same same'
    exact .left _ _ before

theorem grams_eq_map_spans (token : String) :
    table.grams token = (table.spans (bounded token).length).map fun span =>
      gramAt token span.1 span.2 := by
  rw [grams, Guarded.gramsOf_eq_flatMap, spans, List.map_flatMap, List.map_flatMap]
  simp only [List.map_map]
  rfl

theorem sum_map_sub_succ (counts : List Nat) (size : Nat) :
    (counts.map (size + 1 - ·)).sum =
      (counts.filter (· ≤ size)).length + (counts.map (size - ·)).sum := by
  induction counts with
  | nil => rfl
  | cons count rest induction =>
      rw [List.map_cons, List.map_cons, List.sum_cons, List.sum_cons, induction]
      by_cases fits : count ≤ size
      · rw [List.filter_cons_of_pos (by simpa using fits), List.length_cons]
        omega
      · rw [List.filter_cons_of_neg (by simpa using fits)]
        omega

theorem length_gramsOf (positive : 1 ≤ table.least) (chars : List Char) :
    (table.gramsOf chars).length = (table.lengths.map (chars.length + 1 - ·)).sum := by
  induction chars with
  | nil =>
      have none : ∀ difference ∈ table.lengths.map (0 + 1 - ·), difference = 0 := by
        rw [List.forall_mem_map]
        intro count member
        have least := (mem_lengths table).mp member
        omega
      exact (List.sum_eq_zero_iff_forall_eq_nat.mpr none).symm
  | cons c rest induction =>
      have first : table.gramsOf (c :: rest) =
          (table.lengths.filter (· ≤ (c :: rest).length)).map ((c :: rest).take ·) ++
            table.gramsOf rest := rfl
      rw [first, List.length_append, List.length_map, induction, List.length_cons,
        sum_map_sub_succ table.lengths (rest.length + 1)]

end Spans

section Rows

variable (digest : String → UInt64) (offset : Nat) (token : String)

/-- The rows of a token's grams by any digest. -/
def rowsBy : List Nat :=
  (table.grams token).map fun gram => table.row offset (digest gram)

theorem rows_eq_rowsBy : table.rows offset token = table.rowsBy Text.digest offset token := rfl

theorem rowsBy_eq_map_spans : table.rowsBy digest offset token =
    (table.spans (bounded token).length).map fun span =>
      table.row offset (digest (gramAt token span.1 span.2)) := by
  rw [rowsBy, grams_eq_map_spans, List.map_map]
  rfl

theorem length_rowsBy (positive : 1 ≤ table.least) : (table.rowsBy digest offset token).length =
    ∑ count ∈ Finset.Icc table.least table.most, ((bounded token).length + 1 - count) := by
  rw [rowsBy, List.length_map, grams, List.length_map, length_gramsOf table positive]
  rfl

variable {table offset} (some : 1 ≤ table.buckets)
  (fits : offset + table.buckets ≤ UInt32.size)

include some fits

/-- The rows of a table that words of 32 bits can count. -/
theorem rowsBy_eq_map_spans_of_le : table.rowsBy digest offset token =
    (table.spans (bounded token).length).map fun span =>
      offset + (digest (gramAt token span.1 span.2)).toNat % table.buckets := by
  rw [rowsBy_eq_map_spans]
  exact List.map_congr_left fun _ _ => row_eq_of_le some fits _

variable {digest token}

theorem within_of_mem_rowsBy {row : Nat} (member : row ∈ table.rowsBy digest offset token) :
    offset ≤ row ∧ row < offset + table.buckets := by
  obtain ⟨gram, _, same⟩ := List.mem_map.mp member
  subst same
  rw [row_eq_of_le some fits]
  have small := Nat.mod_lt (digest gram).toNat some
  omega

end Rows

end GramTable

namespace Guarded

section Search

variable (digest : String → UInt64) (table : GramTable) (offset : Nat) (chars : List Char)

/-- The row of a gram, cut to 32 bits. -/
def wordOf? (gram : List Char) : Option UInt32 :=
  if 0 < table.buckets then do
    let row ← number64? (offset + (digest (String.ofList gram)).toNat % table.buckets)
    some row.toUInt32
  else none

/-- Adds the rows of the grams that begin at one place, of one length after the other. A gram that
does not end in the text ends the search at that place. -/
def searchAt? (start : Nat) (found : List UInt32) : List Nat → Option (List UInt32)
  | [] => some found
  | count :: longer => do
    let stop ← number64? (start + count)
    if chars.length < stop then some found
    else
      let gram ← slice? chars start stop
      let word ← wordOf? digest table offset gram
      searchAt? start (found ++ [word]) longer

def search? : Option (List UInt32) :=
  (List.range chars.length).foldlM
    (fun found start => searchAt? digest table offset chars start found table.lengths) []

/-- The rows of the grams that begin at one place and end in the text, cut to 32 bits. -/
def wordsAt (start : Nat) (lengths : List Nat) : List UInt32 :=
  (lengths.filter (start + · ≤ chars.length)).map fun count =>
    (offset + (digest (String.ofList ((chars.drop start).take count))).toNat %
      table.buckets).toUInt32

theorem wordsAt_cons_of_le {start count : Nat} (within : start + count ≤ chars.length)
    (longer : List Nat) : wordsAt digest table offset chars start (count :: longer) =
      (offset + (digest (String.ofList ((chars.drop start).take count))).toNat %
        table.buckets).toUInt32 :: wordsAt digest table offset chars start longer := by
  simp [wordsAt, within]

theorem wordsAt_range'_of_lt {start first : Nat} (beyond : chars.length < start + first)
    (counts : Nat) : wordsAt digest table offset chars start (List.range' first counts) = [] := by
  have none : (List.range' first counts).filter (start + · ≤ chars.length) = [] := by
    rw [List.filter_eq_nil_iff]
    intro count member
    have least := (List.mem_range'_1.mp member).1
    simp only [decide_eq_true_eq]
    omega
  rw [wordsAt, none, List.map_nil]

variable {table offset chars} (some : 1 ≤ table.buckets)
  (fits : offset + table.buckets ≤ UInt32.size)

include some fits

theorem wordOf?_eq (gram : List Char) : wordOf? digest table offset gram = .some
    (offset + (digest (String.ofList gram)).toNat % table.buckets).toUInt32 := by
  have positive : 0 < table.buckets := some
  have small := Nat.mod_lt (digest (String.ofList gram)).toNat positive
  have word : UInt32.size < UInt64.size := by decide
  rw [wordOf?, if_pos positive, number64?_of_lt (by omega)]
  rfl

/-- Lengths that fit at a place come before all that do not, so leaving the place at the first that
does not passes over no gram. -/
theorem searchAt?_range' (size : chars.length + 1 < UInt64.size) {start first : Nat}
    (small : start + first < UInt64.size) (found : List UInt32) (counts : Nat) :
    searchAt? digest table offset chars start found (List.range' first counts) =
      .some (found ++ wordsAt digest table offset chars start (List.range' first counts)) := by
  induction counts generalizing first found with
  | zero => simp [searchAt?, wordsAt]
  | succ counts induction =>
      by_cases within : start + first ≤ chars.length
      · have slice : slice? chars start (start + first) =
            .some ((chars.drop start).take first) := by
          rw [slice?, if_pos ⟨Nat.le_add_right _ _, within⟩, Nat.add_sub_cancel_left]
        have later := induction (by omega : start + (first + 1) < UInt64.size)
        simp only [List.range'_succ, searchAt?, number64?_of_lt small, slice,
          wordOf?_eq digest some fits, if_neg (Nat.not_lt.mpr within), Option.bind_eq_bind,
          Option.bind_some, later, wordsAt_cons_of_le digest table offset chars within,
          List.append_assoc, List.singleton_append]
      · have beyond := Nat.lt_of_not_le within
        rw [wordsAt_range'_of_lt digest table offset chars beyond, List.range'_succ, searchAt?,
          number64?_of_lt small, Option.bind_eq_bind, Option.bind_some, if_pos beyond,
          List.append_nil]

/-- From one place to the next, each with its grams. -/
theorem foldlM_searchAt? (least : 1 ≤ table.least)
    (small : table.least + chars.length < UInt64.size) (found : List UInt32) {starts : List Nat}
    (inside : ∀ start ∈ starts, start < chars.length) :
    starts.foldlM (fun found start => searchAt? digest table offset chars start found table.lengths)
        found =
      .some (found ++ starts.flatMap fun start =>
        wordsAt digest table offset chars start table.lengths) := by
  induction starts generalizing found with
  | nil => simp
  | cons start rest induction =>
      obtain ⟨first, others⟩ := List.forall_mem_cons.mp inside
      have size : chars.length + 1 < UInt64.size := by omega
      have room : start + table.least < UInt64.size := by omega
      have here := searchAt?_range' digest some fits size room found
        (table.most + 1 - table.least)
      rw [← GramTable.lengths] at here
      rw [List.foldlM_cons, here, Option.bind_eq_bind, Option.bind_some, induction _ others,
        List.flatMap_cons, List.append_assoc]

theorem search?_bounded (least : 1 ≤ table.least) {token : String}
    (small : table.least + (GramTable.bounded token).length < UInt64.size) :
    search? digest table offset (GramTable.bounded token) =
      .some ((table.rowsBy digest offset token).map Nat.toUInt32) := by
  have inside : ∀ start ∈ List.range (GramTable.bounded token).length,
      start < (GramTable.bounded token).length := by
    intro start
    exact List.mem_range.mp
  rw [search?, foldlM_searchAt? digest some fits least small [] inside, List.nil_append,
    GramTable.rowsBy_eq_map_spans_of_le digest token some fits, GramTable.spans, List.map_flatMap,
    List.map_flatMap]
  simp only [List.map_map]
  rfl

theorem map_toNat_toUInt32 (token : String) :
    ((table.rowsBy digest offset token).map Nat.toUInt32).map UInt32.toNat =
      table.rowsBy digest offset token := by
  have each : ∀ row ∈ table.rowsBy digest offset token, (UInt32.toNat ∘ Nat.toUInt32) row = row := by
    intro row member
    have within := GramTable.within_of_mem_rowsBy some fits member
    have small : row < UInt32.size := by omega
    exact Nat.mod_eq_of_lt small
  rw [List.map_map, List.map_congr_left each, List.map_id']

end Search

end Guarded

section Nodes

variable (digest : String → UInt64) (buckets offset : Nat) (kind text : String)

/-- Between its marks a descriptor has room for a gram of three characters. -/
theorem rowsBy_descriptor_ne_nil :
    (GramTable.standard buckets).rowsBy digest offset (descriptor kind text) ≠ [] := by
  have colon : (descriptor kind text).toList ≠ [] := by simp [toList_descriptor]
  have room : 0 + 3 ≤ (GramTable.bounded (descriptor kind text)).length := by
    have some := List.length_pos_iff.mpr colon
    rw [GramTable.length_bounded]
    omega
  have first : (0, 3) ∈ (GramTable.standard buckets).spans
      (GramTable.bounded (descriptor kind text)).length := by
    rw [GramTable.mem_spans _ (by simp [GramTable.standard])]
    exact ⟨by simp [GramTable.standard], by simp [GramTable.standard], room⟩
  rw [GramTable.rowsBy_eq_map_spans]
  exact mt List.map_eq_nil_iff.mp (List.ne_nil_of_mem first)

end Nodes

namespace Model

variable {sentences : List (List String)} {training : Training} {model : Model}

theorem grams_of_train (trained : train .subword sentences training = .ok model) :
    model.grams = some (.standard training.buckets) := by
  obtain ⟨-, -, made⟩ := train_eq_ok.mp trained
  subst made
  rfl

theorem vector_eq_mean {table : GramTable} (grams : model.grams = some table) (key : String) :
    model.vector key =
      model.matrix.mean model.vectorSize (inputRows model.vocabulary model.grams key) := by
  simp only [vector, grams]

theorem inputRows_descriptor_ne_nil {buckets : Nat} (vocabulary : Vocabulary)
    (kind text : String) :
    inputRows vocabulary (some (.standard buckets)) (descriptor kind text) ≠ [] := by
  rw [inputRows, Option.map_some, Option.getD_some, GramTable.rows_eq_rowsBy]
  apply List.append_ne_nil_of_right_ne_nil
  exact rowsBy_descriptor_ne_nil Text.digest buckets vocabulary.size kind text

end Model

namespace GramTable

/-- A list of rows has one row for each gram of a token, by start and then by length: the row that
the digest gives it, in a range of as many rows as there are buckets. The nested loops find them
as long as no end of a gram leaves its bits. -/
structure Enumerates (table : GramTable) (digest : String → UInt64) (offset : Nat)
    (token : String) (rows : List Nat) : Prop where
  spans : ∃ spans : List (Nat × Nat),
    (∀ start count, (start, count) ∈ spans ↔
      table.least ≤ count ∧ count ≤ table.most ∧ start + count ≤ (bounded token).length) ∧
    spans.Pairwise (Prod.Lex (· < ·) (· < ·)) ∧
    rows = spans.map fun span =>
      offset + (digest (gramAt token span.1 span.2)).toNat % table.buckets
  length : rows.length =
    ∑ count ∈ Finset.Icc table.least table.most, ((bounded token).length + 1 - count)
  within : ∀ row ∈ rows, offset ≤ row ∧ row < offset + table.buckets
  searched : table.least + (bounded token).length < UInt64.size →
    ∃ words, Guarded.search? digest table offset (bounded token) = some words ∧
      words.map UInt32.toNat = rows

theorem enumerates_rowsBy {table : GramTable} {offset : Nat} (least : 1 ≤ table.least)
    (some : 1 ≤ table.buckets) (fits : offset + table.buckets ≤ UInt32.size)
    (digest : String → UInt64) (token : String) :
    table.Enumerates digest offset token (table.rowsBy digest offset token) where
  spans := ⟨_, fun _ _ => table.mem_spans least, table.pairwise_spans _,
    rowsBy_eq_map_spans_of_le digest token some fits⟩
  length := table.length_rowsBy digest offset token least
  within := fun _ => within_of_mem_rowsBy some fits
  searched := fun small => ⟨_, Guarded.search?_bounded digest some fits least small,
    Guarded.map_toNat_toUInt32 digest some fits token⟩

/-- Whatever the digest, the rows of a token are those of its grams, each gram once. A node has
grams of three to six characters, so its vector in a model with these is never a mean of no rows. -/
theorem rows_enumerate {table : GramTable} {offset : Nat} (least : 1 ≤ table.least)
    (some : 1 ≤ table.buckets) (fits : offset + table.buckets ≤ UInt32.size) (token : String) :
    table.Enumerates Text.digest offset token (table.rows offset token) ∧
      (∀ digest, table.Enumerates digest offset token (table.rowsBy digest offset token)) ∧
      (∀ digest buckets offset kind text,
        (standard buckets).rowsBy digest offset (descriptor kind text) ≠ []) ∧
      (∀ sentences training model, Model.train .subword sentences training = .ok model →
        model.grams = .some (standard training.buckets)) ∧
      ∀ (model : Model) buckets, model.grams = .some (standard buckets) →
        ∀ kind text, ∃ rows, rows ≠ [] ∧
          rows = inputRows model.vocabulary model.grams (descriptor kind text) ∧
          model.vector (descriptor kind text) = model.matrix.mean model.vectorSize rows := by
  refine ⟨enumerates_rowsBy least some fits _ token,
    fun digest => enumerates_rowsBy least some fits digest token, rowsBy_descriptor_ne_nil,
    fun _ _ _ => Model.grams_of_train, ?_⟩
  intro model buckets grams kind text
  refine ⟨_, ?_, rfl, Model.vector_eq_mean grams _⟩
  rw [grams]
  exact Model.inputRows_descriptor_ne_nil model.vocabulary kind text

/-- One character makes three with its marks: two grams of two, one of three and none of four. -/
theorem rows_enumerate_shortToken :
    (1 ≤ 2 ∧ 1 ≤ 7 ∧ 5 + 7 ≤ UInt32.size) ∧
      (⟨2, 4, 7⟩ : GramTable).Enumerates Text.digest 5 "é" ((⟨2, 4, 7⟩ : GramTable).rows 5 "é") ∧
      ((⟨2, 4, 7⟩ : GramTable).rows 5 "é").length = 3 := by
  have listed := (@rows_enumerate ⟨2, 4, 7⟩ 5 (by decide) (by decide) (by decide) "é").1
  exact ⟨by decide, listed, listed.length.trans (by decide)⟩

end GramTable

end DefectGraphs.Token
