import DefectGraphs.Proofs.Text.Words
import DefectGraphs.Token.Descriptor

/-!
What a descriptor keeps of a node. Blanks do not show in it, and without a colon in the kind all else
can be read back.
-/

namespace DefectGraphs.Token

open Text

section Parts

variable (kind text : String)

theorem toList_descriptor : (descriptor kind text).toList =
    (trim kind).toList ++ ':' :: [' '].intercalate (wordChars text.toList) := by
  simp [descriptor, words, String.toList_intercalate, Function.comp_def]

theorem toList_trim : (trim kind).toList = trimChars kind.toList :=
  String.toList_ofList

theorem isSpaced_words : IsSpaced ([' '].intercalate (wordChars text.toList)) :=
  isSpaced_intercalate fun _ => isWord_of_mem_wordChars

theorem wordChars_words :
    wordChars ([' '].intercalate (wordChars text.toList)) = wordChars text.toList :=
  wordChars_intercalate fun _ => isWord_of_mem_wordChars

theorem words_inj {text other : String} :
    words text = words other ↔ wordChars text.toList = wordChars other.toList :=
  List.map_inj_right fun _ _ => String.ofList_inj.mp

theorem isBlank_of_mem_head?_descriptor :
    ∀ c ∈ (descriptor kind text).toList.head?, isBlank c = false := by
  intro c starts
  rw [toList_descriptor] at starts
  cases cut : (trim kind).toList with
  | nil =>
      rw [cut] at starts
      cases starts
      rfl
  | cons d rest =>
      rw [toList_trim] at cut
      rw [toList_trim, cut] at starts
      exact isBlank_of_mem_head?_trimChars c (by rwa [cut])

theorem isBlank_of_mem_getLast?_descriptor :
    ∀ c ∈ (descriptor kind text).toList.getLast?, isBlank c = false := by
  intro c last
  rw [toList_descriptor, List.getLast?_append_of_ne_nil _ (by simp)] at last
  by_cases empty : [' '].intercalate (wordChars text.toList) = []
  · rw [empty] at last
    cases last
    rfl
  · rw [List.getLast?_cons_of_ne_nil empty] at last
    exact (isSpaced_words text).last c last

end Parts

/-- A text as a descriptor lays it out: the kind without its blank ends, a colon, and the words of
the text with single spaces between them. -/
structure IsLaidOut (kind text : String) (chars : List Char) : Prop where
  first : ∀ c ∈ chars.head?, isBlank c = false
  last : ∀ c ∈ chars.getLast?, isBlank c = false
  parts : ∃ rest, chars = (trim kind).toList ++ ':' :: rest ∧ IsSpaced rest ∧
    wordChars rest = wordChars text.toList

theorem isLaidOut_descriptor (kind text : String) :
    IsLaidOut kind text (descriptor kind text).toList where
  first := isBlank_of_mem_head?_descriptor kind text
  last := isBlank_of_mem_getLast?_descriptor kind text
  parts := ⟨_, toList_descriptor kind text, isSpaced_words text, wordChars_words text⟩

theorem descriptor_congr {kind other text text' : String} (sameKind : trim kind = trim other)
    (sameWords : words text = words text') : descriptor kind text = descriptor other text' := by
  rw [descriptor, descriptor, sameKind, sameWords]

/-- The first colon of a descriptor ends its kind, if the kind has no colon of its own. -/
theorem parts_of_descriptor_eq {kind other text text' : String} (plain : ':' ∉ kind.toList)
    (plain' : ':' ∉ other.toList) (same : descriptor kind text = descriptor other text') :
    trim kind = trim other ∧ words text = words text' := by
  have chars := congrArg String.toList same
  rw [toList_descriptor, toList_descriptor,
    append_cons_inj_left (mt mem_of_mem_trim plain) (mt mem_of_mem_trim plain')] at chars
  obtain ⟨kinds, texts⟩ := chars
  have read := congrArg wordChars texts
  rw [wordChars_words, wordChars_words] at read
  exact ⟨String.toList_inj.mp kinds, words_inj.mpr read⟩

/-- Descriptors tell nodes apart up to the blanks around the kind and between the words of the text,
and up to nothing else where no kind has a colon. -/
theorem descriptor_identifies (kind text : String) :
    IsLaidOut kind text (descriptor kind text).toList ∧
      ∀ other text' : String,
        (trim kind = trim other → words text = words text' →
          descriptor kind text = descriptor other text') ∧
        (':' ∉ kind.toList → ':' ∉ other.toList → descriptor kind text = descriptor other text' →
          trim kind = trim other ∧ words text = words text') := by
  refine ⟨isLaidOut_descriptor kind text, ?_⟩
  intro other text'
  exact ⟨descriptor_congr, parts_of_descriptor_eq⟩

/-- A line feed, a tab, a no-break space and an em space do not show. -/
theorem descriptor_identifies_oddBlanks :
    trim "\u00a0CALL" = trim "CALL\u2003" ∧
      words "strcpy(buf,\n    src)" = words "  strcpy(buf, src)\t" ∧
      descriptor "\u00a0CALL" "strcpy(buf,\n    src)" =
        descriptor "CALL\u2003" "  strcpy(buf, src)\t" := by
  have kinds : trim "\u00a0CALL" = trim "CALL\u2003" := by decide
  have texts : words "strcpy(buf,\n    src)" = words "  strcpy(buf, src)\t" := by decide
  exact ⟨kinds, texts, ((descriptor_identifies _ _).2 _ _).1 kinds texts⟩

end DefectGraphs.Token
