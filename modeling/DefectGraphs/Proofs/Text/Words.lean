import DefectGraphs.Proofs.Text.Reading
import Mathlib.Data.List.Chain
import Mathlib.Data.List.DropRight

/-!
The words of a text. Joined by single spaces they are a text with no other blanks, and such texts
are told by their words.
-/

namespace DefectGraphs.Text

section Separator

variable [BEq α] [LawfulBEq α] {separator : α} {before other after later : List α}

/-- A text with a separator is told by what stands before its first place and what stands after. -/
theorem append_cons_inj_left (absent : separator ∉ before) (absent' : separator ∉ other) :
    before ++ separator :: after = other ++ separator :: later ↔ before = other ∧ after = later := by
  constructor
  · intro same
    have parts := congrArg (List.splitOn separator) same
    simp only [List.splitOn_append_cons_self_of_not_mem absent,
      List.splitOn_append_cons_self_of_not_mem absent', List.cons.injEq] at parts
    obtain ⟨first, -⟩ := parts
    subst first
    exact ⟨rfl, (List.cons_eq_cons.mp (List.append_cancel_left same)).2⟩
  · intro ⟨first, rest⟩
    rw [first, rest]

theorem append_cons_inj_right (absent : separator ∉ after) (absent' : separator ∉ later) :
    before ++ separator :: after = other ++ separator :: later ↔ before = other ∧ after = later := by
  have reversed : after.reverse ++ separator :: before.reverse =
      later.reverse ++ separator :: other.reverse ↔ _ :=
    append_cons_inj_left (by simpa using absent) (by simpa using absent')
  rw [← List.reverse_inj]
  simpa [and_comm] using reversed

end Separator

/-- A text of one character or more without blanks. -/
structure IsWord (chars : List Char) : Prop where
  nonempty : chars ≠ []
  solid : ∀ c ∈ chars, isBlank c = false

/-- The only blanks are spaces, and none of them stands at an end or next to another. -/
structure IsSpaced (chars : List Char) : Prop where
  first : ∀ c ∈ chars.head?, isBlank c = false
  last : ∀ c ∈ chars.getLast?, isBlank c = false
  spaces : ∀ c ∈ chars, isBlank c = true → c = ' '
  single : chars.IsChain fun left right => isBlank left = false ∨ isBlank right = false

section Words

theorem isWord_of_mem_wordChars {chars word : List Char} (member : word ∈ wordChars chars) :
    IsWord word := by
  obtain ⟨part, some⟩ := List.mem_filter.mp member
  exact ⟨by simpa using some, eq_false_of_mem_splitOnP part⟩

theorem wordChars_of_isWord {chars : List Char} (word : IsWord chars) :
    wordChars chars = [chars] := by
  rw [wordChars, List.splitOnP_eq_singleton word.solid]
  simp [word.nonempty]

theorem wordChars_append_cons {c : Char} (blank : isBlank c = true) (before after : List Char) :
    wordChars (before ++ c :: after) = wordChars before ++ wordChars after := by
  rw [wordChars, List.splitOnP_append_cons before after blank, List.filter_append]
  rfl

theorem wordChars_intercalate {words : List (List Char)} (each : ∀ word ∈ words, IsWord word) :
    wordChars ([' '].intercalate words) = words := by
  induction words with
  | nil => rfl
  | cons word rest induction =>
      obtain ⟨first, others⟩ := List.forall_mem_cons.mp each
      cases rest with
      | nil => simpa using wordChars_of_isWord first
      | cons next rest =>
          have joined : [' '].intercalate (word :: next :: rest) =
              word ++ ' ' :: [' '].intercalate (next :: rest) := by simp
          rw [joined, wordChars_append_cons rfl, wordChars_of_isWord first, induction others]
          rfl

end Words

section Spaced

variable {chars before after : List Char} {c : Char}

theorem IsWord.isSpaced (word : IsWord chars) : IsSpaced chars where
  first := fun c member => word.solid c (List.mem_of_mem_head? member)
  last := fun c member => word.solid c (List.mem_of_mem_getLast? member)
  spaces := by
    intro c member blank
    rw [word.solid c member] at blank
    cases blank
  single := by
    apply List.Pairwise.isChain
    exact List.pairwise_of_forall_mem_list fun left member _ _ => .inl (word.solid left member)

theorem isSpaced_nil : IsSpaced [] := by
  constructor <;> simp

/-- Spaced texts stay so when a space comes between them. -/
theorem IsSpaced.append_space (spaced : IsSpaced before) (spaced' : IsSpaced after)
    (nonempty : before ≠ []) (nonempty' : after ≠ []) : IsSpaced (before ++ ' ' :: after) where
  first := by
    rw [List.head?_append_of_ne_nil _ nonempty]
    exact spaced.first
  last := by
    rw [List.getLast?_append_of_ne_nil _ (by simp), List.getLast?_cons_of_ne_nil nonempty']
    exact spaced'.last
  spaces := by
    intro c member blank
    simp only [List.mem_append, List.mem_cons] at member
    rcases member with earlier | same | later
    · exact spaced.spaces c earlier blank
    · exact same
    · exact spaced'.spaces c later blank
  single := by
    apply spaced.single.append
    · apply spaced'.single.cons
      intro right starts
      exact .inr (spaced'.first right starts)
    · intro left ends right _
      exact .inl (spaced.last left ends)

theorem isSpaced_intercalate {words : List (List Char)} (each : ∀ word ∈ words, IsWord word) :
    IsSpaced ([' '].intercalate words) := by
  induction words with
  | nil => exact isSpaced_nil
  | cons word rest induction =>
      obtain ⟨first, others⟩ := List.forall_mem_cons.mp each
      cases rest with
      | nil => simpa using first.isSpaced
      | cons next rest =>
          have some : [' '].intercalate (next :: rest) ≠ [] := by
            intro empty
            have same := congrArg wordChars empty
            rw [wordChars_intercalate others] at same
            cases same
          have spaced := first.isSpaced.append_space (induction others) first.nonempty some
          simpa using spaced

/-- A blank of a spaced text divides it into two spaced texts. -/
theorem IsSpaced.of_append_cons (spaced : IsSpaced (before ++ c :: after))
    (blank : isBlank c = true) :
    c = ' ' ∧ before ≠ [] ∧ after ≠ [] ∧ IsSpaced before ∧ IsSpaced after := by
  obtain ⟨first, last, spaces, single⟩ := spaced
  obtain ⟨chain, chain', apart⟩ := List.isChain_append.mp single
  obtain ⟨apart', chain'⟩ := List.isChain_cons.mp chain'
  have some : before ≠ [] := by
    intro none
    have kept := first c (by simp [none])
    rw [blank] at kept
    cases kept
  have some' : after ≠ [] := by
    intro none
    have kept := last c (by simp [none])
    rw [blank] at kept
    cases kept
  rw [List.head?_append_of_ne_nil _ some] at first
  rw [List.getLast?_append_of_ne_nil _ (by simp), List.getLast?_cons_of_ne_nil some'] at last
  simp only [List.forall_mem_append, List.forall_mem_cons] at spaces
  refine ⟨spaces.2.1 blank, some, some', ?_, ?_⟩
  · refine ⟨first, ?_, spaces.1, chain⟩
    intro left ends
    simpa [blank] using apart left ends c (by simp)
  · refine ⟨?_, last, spaces.2.2, chain'⟩
    intro right starts
    simpa [blank] using apart' right starts

theorem intercalate_append {words others : List (List Char)} (some : words ≠ [])
    (some' : others ≠ []) : [' '].intercalate (words ++ others) =
      [' '].intercalate words ++ ' ' :: [' '].intercalate others := by
  induction words with
  | nil => exact absurd rfl some
  | cons word rest induction =>
      cases rest with
      | nil => simp [List.intercalate_cons_of_ne_nil some']
      | cons next rest => simpa using induction (by simp)

theorem wordChars_ne_nil (joined : [' '].intercalate (wordChars chars) = chars)
    (some : chars ≠ []) : wordChars chars ≠ [] := by
  intro none
  rw [none] at joined
  exact some joined.symm

theorem IsSpaced.intercalate_wordChars {chars : List Char} (spaced : IsSpaced chars) :
    [' '].intercalate (wordChars chars) = chars := by
  by_cases solid : ∀ c ∈ chars, isBlank c = false
  · cases chars with
    | nil => rfl
    | cons c rest => rw [wordChars_of_isWord ⟨by simp, solid⟩, List.intercalate_singleton]
  · obtain ⟨c, member, blank⟩ : ∃ c ∈ chars, isBlank c = true := by simpa using solid
    obtain ⟨before, after, rfl⟩ := List.append_of_mem member
    obtain ⟨rfl, some, some', left, right⟩ := spaced.of_append_cons blank
    have joined := IsSpaced.intercalate_wordChars left
    have joined' := IsSpaced.intercalate_wordChars right
    have words := wordChars_ne_nil joined some
    have words' := wordChars_ne_nil joined' some'
    rw [wordChars_append_cons blank, intercalate_append words words', joined, joined']
termination_by chars.length
decreasing_by all_goals grind

/-- Spaced texts are those that joining their words gives back. -/
theorem intercalate_wordChars_eq_self_iff :
    [' '].intercalate (wordChars chars) = chars ↔ IsSpaced chars := by
  constructor
  · intro same
    rw [← same]
    exact isSpaced_intercalate fun word => isWord_of_mem_wordChars
  · exact IsSpaced.intercalate_wordChars

/-- A character that is not blank may stand between the end of a text and a spaced one. -/
theorem isSpaced_append_cons_iff (solid : isBlank c = false)
    (last : ∀ d ∈ before.getLast?, isBlank d = false) (spaced : IsSpaced after) :
    IsSpaced (before ++ c :: after) ↔ IsSpaced before := by
  constructor
  · intro ⟨first, _, spaces, single⟩
    refine ⟨?_, last, ?_, (List.isChain_append.mp single).1⟩
    · intro d starts
      exact first d (by rw [List.head?_append, Option.mem_def.mp starts]; rfl)
    · intro d member
      exact spaces d (List.mem_append_left _ member)
  · intro ⟨first, _, spaces, single⟩
    constructor
    · cases before with
      | nil => simpa using solid
      | cons d rest => simpa using first
    · cases after with
      | nil => simpa using solid
      | cons d rest => simpa using spaced.last
    · simp only [List.forall_mem_append, List.forall_mem_cons]
      exact ⟨spaces, by simp [solid], spaced.spaces⟩
    · apply single.append
      · apply spaced.single.cons
        intro right _
        exact .inl solid
      · intro left _ right starts
        simp only [List.head?_cons, Option.mem_def, Option.some.injEq] at starts
        exact .inr (starts ▸ solid)

end Spaced

section Trim

variable {text : String} {chars : List Char}

theorem isBlank_of_mem_head?_trimChars : ∀ c ∈ (trimChars chars).head?, isBlank c = false := by
  intro c starts
  have fails := List.head?_dropWhile_not isBlank chars
  have kept : trimChars chars <+: chars.dropWhile isBlank := List.rdropWhile_prefix isBlank _
  rw [Option.mem_def, List.head?_eq_some_iff] at starts
  obtain ⟨rest, cut⟩ := starts
  obtain ⟨others, whole⟩ := kept
  rw [← whole, cut] at fails
  exact fails

theorem isBlank_of_mem_getLast?_trimChars :
    ∀ c ∈ (trimChars chars).getLast?, isBlank c = false := by
  intro c last
  have kept : c ∈ (trim (String.ofList chars)).toList.getLast? := by
    rwa [trim, String.toList_ofList, String.toList_ofList]
  exact isBlank_of_mem_getLast?_trim kept

/-- Nothing is trimmed off just when neither end is blank. -/
theorem trimChars_eq_self_iff : trimChars chars = chars ↔
    (∀ c ∈ chars.head?, isBlank c = false) ∧ ∀ c ∈ chars.getLast?, isBlank c = false := by
  constructor
  · intro same
    rw [← same]
    exact ⟨isBlank_of_mem_head?_trimChars, isBlank_of_mem_getLast?_trimChars⟩
  · intro ⟨first, last⟩
    exact trimChars_eq_self first last

end Trim

end DefectGraphs.Text
