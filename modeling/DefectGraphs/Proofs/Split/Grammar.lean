import DefectGraphs.Proofs.Split.RoundTrip
import DefectGraphs.Proofs.Text.Numeral

/-!
The grammar of manifests. Just the texts whose lines are blank or tell an entry are read, and the
first other line is the one that a refusal names.
-/

namespace DefectGraphs

open Text

/-- What a refusal becomes when so many lines come before the text. -/
def Failure.below (count : Nat) : Failure → Failure
  | .malformedLine number content => .malformedLine (number + count) content
  | failure => failure

namespace Split

/-- The name of a fold in any mixture of cases, or the short name of validation. -/
def Fold.IsNamed (fold : Fold) (name : String) : Prop :=
  name.toList.map Char.toLower = fold.lowerName.toList ∨
    fold = .validation ∧ name.toList.map Char.toLower = "valid".toList

theorem Fold.ofName?_eq_some_iff {name : String} {fold : Fold} :
    ofName? name = some fold ↔ fold.IsNamed name := by
  have same (word : String) : String.ofList (name.toList.map Char.toLower) = word ↔
      name.toList.map Char.toLower = word.toList := by
    rw [String.ext_iff, String.toList_ofList]
  unfold ofName? IsNamed
  simp only [← same, all]
  generalize String.ofList (name.toList.map Char.toLower) = lower
  by_cases short : lower = "valid"
  · subst short
    cases fold <;> decide
  · rw [if_neg short]
    cases fold <;> grind [lowerName]

theorem Fold.IsNamed.notMem {fold : Fold} {name : String} (named : fold.IsNamed name) :
    ':' ∉ name.toList := by
  intro member
  have lowered : ':' ∈ name.toList.map Char.toLower := List.mem_map.mpr ⟨':', member, by decide⟩
  rcases named with long | ⟨-, short⟩
  · rw [long] at lowered
    revert lowered
    cases fold <;> decide
  · rw [short] at lowered
    exact absurd lowered (by decide)

theorem notMem_of_isNumeral {text : String} {value : Nat} (numeral : IsNumeral text value) :
    ':' ∉ text.toList := by
  intro member
  obtain ⟨digits, -, decimal, plain | signed, -⟩ := numeral
  · exact absurd (decimal ':' (plain ▸ member)) (by decide)
  · rw [signed, List.mem_cons] at member
    rcases member with sign | inside
    · exact absurd sign (by decide)
    · exact absurd (decimal ':' inside) (by decide)

theorem notMem_of_notMem_trim {text : String} {c : Char} (inner : c ∉ (trim text).toList)
    (visible : isBlank c = false) : c ∉ text.toList := by
  intro member
  rcases isBlank_or_mem_trim member with blank | kept
  · rw [visible] at blank
    cases blank
  · exact inner kept

namespace Entry

/-- A numeral, the name of a fold and the name of a file, with colons between them. There may be
blanks around the first two, and colons in the last. -/
structure IsToldBy (entry : Entry) (content : String) : Prop where
  parts : ∃ number fold : String, content = number ++ ":" ++ fold ++ ":" ++ entry.filename ∧
    IsNumeral (trim number) entry.split ∧ entry.fold.IsNamed (trim fold)
  split_lt : entry.split < UInt64.size
  nonempty : entry.filename ≠ ""

theorem isToldBy_of_ofLine? {content : String} {entry : Entry}
    (read : ofLine? content = some entry) : entry.IsToldBy content := by
  simp only [ofLine?, Option.bind_eq_bind, Option.bind_eq_some_iff] at read
  obtain ⟨⟨number, rest⟩, first, ⟨fold, filename⟩, second, read⟩ := read
  cases filename with
  | nil => simp at read
  | cons c filename =>
      simp only [List.isEmpty_cons, Bool.false_eq_true, if_false, Option.bind_eq_some_iff] at read
      obtain ⟨split, numeral, named, isName, same⟩ := read
      cases same
      rw [word64?_eq_some_iff] at numeral
      rw [Fold.ofName?_eq_some_iff] at isName
      refine ⟨⟨String.ofList number, String.ofList fold, ?_, numeral.1, isName⟩, numeral.2, by simp⟩
      have rest_eq : rest = fold ++ ':' :: c :: filename := cutColon_eq_some second
      rw [String.ext_iff, cutColon_eq_some first, rest_eq]
      simp

theorem ofLine?_of_isToldBy {content : String} {entry : Entry} (told : entry.IsToldBy content) :
    ofLine? content = some entry := by
  obtain ⟨⟨number, fold, rfl, numeral, named⟩, small, nonempty⟩ := told
  have numberPlain : ':' ∉ number.toList :=
    notMem_of_notMem_trim (notMem_of_isNumeral numeral) (by decide)
  have foldPlain : ':' ∉ fold.toList := notMem_of_notMem_trim named.notMem (by decide)
  have some : ¬entry.filename.toList.isEmpty := by simpa using nonempty
  have chars : (number ++ ":" ++ fold ++ ":" ++ entry.filename).toList =
      number.toList ++ ':' :: (fold.toList ++ ':' :: entry.filename.toList) := by
    simp
  rw [ofLine?, chars, cutColon_append numberPlain, Option.bind_eq_bind, Option.bind_some]
  dsimp only
  rw [cutColon_append foldPlain, Option.bind_eq_bind, Option.bind_some]
  dsimp only
  rw [if_neg some, String.ofList_toList, String.ofList_toList, String.ofList_toList,
    word64?_eq_some_iff.mpr ⟨numeral, small⟩, Fold.ofName?_eq_some_iff.mpr named]
  rfl

theorem ofLine?_eq_some_iff {content : String} {entry : Entry} :
    ofLine? content = some entry ↔ entry.IsToldBy content :=
  ⟨isToldBy_of_ofLine?, ofLine?_of_isToldBy⟩

end Entry

namespace Manifest

def IsBlankLine (line : String) : Prop :=
  trim line = ""

instance : DecidablePred IsBlankLine := fun line => inferInstanceAs (Decidable (trim line = ""))

/-- A line that a manifest may have. -/
def Fits (line : String) : Prop :=
  IsBlankLine line ∨ ∃ entry : Entry, entry.IsToldBy (trim line)

theorem parseLines_of_blank {line : String} (blank : IsBlankLine line) (number : Nat)
    (rest : List String) : parseLines number (line :: rest) = parseLines (number + 1) rest := by
  rw [parseLines, blank]
  rfl

theorem parseLines_of_not_blank {line : String} (full : ¬IsBlankLine line) (number : Nat)
    (rest : List String) :
    parseLines number (line :: rest) =
      match Entry.ofLine? (trim line) with
      | none => .error (.malformedLine number (trim line))
      | some entry => (parseLines (number + 1) rest).map (entry :: ·) := by
  have some : ¬(trim line).isEmpty := by simpa [IsBlankLine] using full
  cases read : Entry.ofLine? (trim line) with
  | none => rw [parseLines, if_neg some, read]
  | some entry => rw [parseLines, if_neg some, read]

theorem not_isBlankLine_of_told {line : String} {entry : Entry}
    (told : entry.IsToldBy (trim line)) : ¬IsBlankLine line := by
  obtain ⟨number, fold, content, -, -⟩ := told.parts
  intro blank
  rw [IsBlankLine, content] at blank
  simp at blank

theorem parseLines_of_told {line : String} {entry : Entry} (told : entry.IsToldBy (trim line))
    (number : Nat) (rest : List String) :
    parseLines number (line :: rest) = (parseLines (number + 1) rest).map (entry :: ·) := by
  rw [parseLines_of_not_blank (not_isBlankLine_of_told told), Entry.ofLine?_eq_some_iff.mpr told]

theorem parseLines_of_not_fits {line : String} (misfit : ¬Fits line) (number : Nat)
    (rest : List String) :
    parseLines number (line :: rest) = .error (.malformedLine number (trim line)) := by
  obtain ⟨full, untold⟩ := not_or.mp misfit
  have unread : Entry.ofLine? (trim line) = none := by
    rw [Option.eq_none_iff_forall_ne_some]
    intro entry read
    exact untold ⟨entry, Entry.ofLine?_eq_some_iff.mp read⟩
  rw [parseLines_of_not_blank full, unread]

/-- The entries of lines that all fit are those of the lines that are not blank. -/
theorem parseLines_eq_ok_iff (number : Nat) {lines : List String} {entries : List Entry} :
    parseLines number lines = .ok entries ↔
      List.Forall₂ (fun line entry => entry.IsToldBy (trim line))
        (lines.filter (¬IsBlankLine ·)) entries := by
  induction lines generalizing number entries with
  | nil =>
      rw [parseLines, List.filter_nil, List.forall₂_nil_left_iff, Except.ok.injEq, eq_comm]
  | cons line rest induction =>
      by_cases blank : IsBlankLine line
      · rw [parseLines_of_blank blank, induction, List.filter_cons_of_neg (by simpa using blank)]
      · rw [List.filter_cons_of_pos (by simpa using blank), List.forall₂_cons_left_iff,
          parseLines_of_not_blank blank]
        cases read : Entry.ofLine? (trim line) with
        | none =>
            constructor
            · intro parsed
              cases parsed
            · rintro ⟨entry, _, told, -, -⟩
              rw [Entry.ofLine?_eq_some_iff.mpr told] at read
              cases read
        | some entry =>
            refine map_eq_ok.trans ?_
            constructor
            · rintro ⟨others, parsed, rfl⟩
              exact ⟨entry, others, Entry.ofLine?_eq_some_iff.mp read, (induction _).mp parsed, rfl⟩
            · rintro ⟨other, others, told, parsed, rfl⟩
              rw [Entry.ofLine?_eq_some_iff.mpr told] at read
              cases read
              exact ⟨others, (induction _).mpr parsed, rfl⟩

theorem exists_parseLines_iff (number : Nat) {lines : List String} :
    (∃ entries, parseLines number lines = .ok entries) ↔ ∀ line ∈ lines, Fits line := by
  induction lines generalizing number with
  | nil => simp [parseLines]
  | cons line rest induction =>
      rw [List.forall_mem_cons, ← induction (number + 1)]
      by_cases fits : Fits line
      · rcases fits with blank | ⟨entry, told⟩
        · rw [parseLines_of_blank blank]
          exact (and_iff_right (.inl blank)).symm
        · rw [parseLines_of_told told]
          simp only [map_eq_ok]
          constructor
          · rintro ⟨_, others, parsed, -⟩
            exact ⟨.inr ⟨entry, told⟩, others, parsed⟩
          · rintro ⟨-, others, parsed⟩
            exact ⟨_, others, parsed, rfl⟩
      · rw [parseLines_of_not_fits fits]
        simp [fits]

theorem parseLines_append (number : Nat) (first second : List String) :
    parseLines number (first ++ second) = do
      let entries ← parseLines number first
      let others ← parseLines (number + first.length) second
      return entries ++ others := by
  induction first generalizing number with
  | nil =>
      rw [List.nil_append, parseLines, ok_bind, List.length_nil, Nat.add_zero]
      cases parseLines number second <;> rfl
  | cons line rest induction =>
      have down : number + (line :: rest).length = number + 1 + rest.length := by
        rw [List.length_cons]
        omega
      rw [List.cons_append, down]
      by_cases fits : Fits line
      · rcases fits with blank | ⟨entry, told⟩
        · rw [parseLines_of_blank blank, parseLines_of_blank blank, induction]
        · rw [parseLines_of_told told, parseLines_of_told told, induction]
          cases parseLines (number + 1) rest with
          | error failure => rfl
          | ok entries => cases parseLines (number + 1 + rest.length) second <;> rfl
      · rw [parseLines_of_not_fits fits, parseLines_of_not_fits fits]
        rfl

theorem parseLines_add (number count : Nat) (lines : List String) :
    parseLines (number + count) lines =
      (parseLines number lines).mapError (Failure.below count) := by
  induction lines generalizing number with
  | nil => rfl
  | cons line rest induction =>
      have next := induction (number + 1)
      rw [Nat.add_right_comm] at next
      by_cases fits : Fits line
      · rcases fits with blank | ⟨entry, told⟩
        · rw [parseLines_of_blank blank, parseLines_of_blank blank, next]
        · rw [parseLines_of_told told, parseLines_of_told told, next]
          cases parseLines (number + 1) rest <;> rfl
      · rw [parseLines_of_not_fits fits, parseLines_of_not_fits fits]
        rfl

theorem exists_first_not_fits {lines : List String} (misfit : ¬∀ line ∈ lines, Fits line) :
    ∃ before line after, lines = before ++ line :: after ∧ (∀ earlier ∈ before, Fits earlier) ∧
      ¬Fits line := by
  classical
  have found : (lines.find? (¬Fits ·)).isSome := by
    rw [List.find?_isSome]
    simpa using misfit
  obtain ⟨line, first⟩ := Option.isSome_iff_exists.mp found
  obtain ⟨bad, before, after, split, fit⟩ := List.find?_eq_some_iff_append.mp first
  exact ⟨before, line, after, split, by simpa using fit, by simpa using bad⟩

theorem parseLines_of_first_not_fits (number : Nat) {before after : List String} {line : String}
    (fit : ∀ earlier ∈ before, Fits earlier) (misfit : ¬Fits line) :
    parseLines number (before ++ line :: after) =
      .error (.malformedLine (number + before.length) (trim line)) := by
  obtain ⟨entries, parsed⟩ := (exists_parseLines_iff number).mpr fit
  rw [parseLines_append, parsed, parseLines_of_not_fits misfit]
  rfl

/-- A refusal names the first line that does not fit. -/
theorem parseLines_eq_error_iff (number : Nat) {lines : List String} {failure : Failure} :
    parseLines number lines = .error failure ↔
      ∃ before line after, lines = before ++ line :: after ∧ (∀ earlier ∈ before, Fits earlier) ∧
        ¬Fits line ∧ failure = .malformedLine (number + before.length) (trim line) := by
  constructor
  · intro failed
    have misfit : ¬∀ line ∈ lines, Fits line := by
      intro fit
      obtain ⟨entries, parsed⟩ := (exists_parseLines_iff number).mpr fit
      rw [failed] at parsed
      cases parsed
    obtain ⟨before, line, after, rfl, fit, bad⟩ := exists_first_not_fits misfit
    rw [parseLines_of_first_not_fits number fit bad] at failed
    cases failed
    exact ⟨before, line, after, rfl, fit, bad, rfl⟩
  · rintro ⟨before, line, after, rfl, fit, bad, rfl⟩
    exact parseLines_of_first_not_fits number fit bad

/-- What a text is read as, by its lines. -/
structure FollowsGrammar (text : String) : Prop where
  reads : ∀ manifest, parse text = .ok manifest ↔
    List.Forall₂ (fun line entry => entry.IsToldBy (trim line))
      ((lines text).filter (¬IsBlankLine ·)) manifest.entries
  accepts : (∃ manifest, parse text = .ok manifest) ↔ ∀ line ∈ lines text, Fits line
  refuses : ∀ failure, parse text = .error failure ↔
    ∃ before line after, lines text = before ++ line :: after ∧
      (∀ earlier ∈ before, Fits earlier) ∧ ¬Fits line ∧
        failure = .malformedLine (before.length + 1) (trim line)
  /-- Two texts with a line feed between them are read one after the other. -/
  continues : ∀ next, parse (text ++ "\n" ++ next) =
    match parse text, parse next with
    | .ok first, .ok second => .ok ⟨first.entries ++ second.entries⟩
    | .error failure, _ => .error failure
    | .ok _, .error failure => .error (failure.below (text.toList.count '\n' + 1))

theorem parse_append (text next : String) :
    parse (text ++ "\n" ++ next) =
      match parse text, parse next with
      | .ok first, .ok second => .ok ⟨first.entries ++ second.entries⟩
      | .error failure, _ => .error failure
      | .ok _, .error failure => .error (failure.below (text.toList.count '\n' + 1)) := by
  rw [parse, parse, parse, lines_append, parseLines_append, length_lines, parseLines_add]
  cases parseLines 1 (lines text) with
  | error failure => rfl
  | ok entries => cases parseLines 1 (lines next) <;> rfl

theorem parse_followsGrammar (text : String) : FollowsGrammar text where
  reads := by
    rintro ⟨entries⟩
    rw [← parseLines_eq_ok_iff 1, parse, map_eq_ok]
    simp
  accepts := by
    rw [← exists_parseLines_iff 1, parse]
    simp [map_eq_ok]
  refuses := by
    intro failure
    simp only [Nat.add_comm _ 1, ← parseLines_eq_error_iff 1]
    rw [parse]
    cases parseLines 1 (lines text) <;> simp [Except.map]
  continues := parse_append text

end Manifest

end Split

end DefectGraphs
