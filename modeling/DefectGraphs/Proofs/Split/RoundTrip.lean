import DefectGraphs.Proofs.Outcome
import DefectGraphs.Proofs.Text.Reading
import DefectGraphs.Split.Manifest

/-!
A manifest comes back from its text just when a line can hold each of its entries. Reading gives no
other entries, so whatever was read can be written and read again.
-/

namespace DefectGraphs.Split

open Text

namespace Entry

/-- A line can hold the entry. -/
structure FitsLine (entry : Entry) : Prop where
  split_lt : entry.split < UInt64.size
  nonempty : entry.filename ≠ ""
  unbroken : '\n' ∉ entry.filename.toList
  unblank : ∀ c ∈ entry.filename.toList.getLast?, isBlank c = false

theorem cutColon_append {before : List Char} (none : ':' ∉ before) (after : List Char) :
    cutColon (before ++ ':' :: after) = some (before, after) := by
  induction before with
  | nil => rfl
  | cons c rest induction =>
      rw [List.mem_cons, not_or] at none
      rw [List.cons_append, cutColon, if_neg (Ne.symm none.1), induction none.2, Option.map_some]

theorem toList_line (entry : Entry) :
    entry.line.toList = (toString entry.split).toList ++
      ':' :: (entry.fold.name.toList ++ ':' :: entry.filename.toList) := by
  simp [line]

theorem isBlank_of_mem_head?_line {entry : Entry} {c : Char} (first : c ∈ entry.line.toList.head?) :
    isBlank c = false := by
  have some : (toString entry.split).toList ≠ [] := by simp
  rw [toList_line, List.head?_append_of_ne_nil _ some] at first
  exact isBlank_of_isDigit (isDigit_of_mem_toString (List.mem_of_mem_head? first))

theorem FitsLine.trim_line {entry : Entry} (fits : entry.FitsLine) :
    trim entry.line = entry.line := by
  refine trim_eq_self (fun _ => isBlank_of_mem_head?_line) ?_
  intro c last
  have some : entry.filename.toList ≠ [] := by simpa using fits.nonempty
  apply fits.unblank c
  rwa [toList_line, List.getLast?_append_of_ne_nil _ (by simp), List.getLast?_cons_of_ne_nil
    (by simp), List.getLast?_append_of_ne_nil _ (by simp), List.getLast?_cons_of_ne_nil some] at last

theorem FitsLine.lineFeed_notMem_line {entry : Entry} (fits : entry.FitsLine) :
    '\n' ∉ entry.line.toList := by
  have digits : '\n' ∉ (toString entry.split).toList := notMem_toString rfl entry.split
  have name : '\n' ∉ entry.fold.name.toList := by
    cases entry.fold <;> decide
  rw [toList_line]
  simp only [List.mem_append, List.mem_cons, digits, name, fits.unbroken]
  decide

theorem trim_toString (number : Nat) : trim (toString number) = toString number :=
  trim_eq_self
    (fun _ first => isBlank_of_isDigit (isDigit_of_mem_toString (List.mem_of_mem_head? first)))
    (fun _ last => isBlank_of_isDigit (isDigit_of_mem_toString (List.mem_of_mem_getLast? last)))

theorem ofName?_name (fold : Fold) : Fold.ofName? (trim fold.name) = some fold := by
  cases fold <;> decide

theorem FitsLine.ofLine?_line {entry : Entry} (fits : entry.FitsLine) :
    ofLine? entry.line = some entry := by
  have digits : ':' ∉ (toString entry.split).toList := notMem_toString rfl entry.split
  have name : ':' ∉ entry.fold.name.toList := by
    cases entry.fold <;> decide
  have some : ¬entry.filename.toList.isEmpty := by simpa using fits.nonempty
  rw [ofLine?, toList_line, cutColon_append digits, Option.bind_eq_bind, Option.bind_some]
  dsimp only
  rw [cutColon_append name, Option.bind_eq_bind, Option.bind_some]
  dsimp only
  rw [if_neg some, String.ofList_toList, String.ofList_toList, String.ofList_toList,
    trim_toString, word64?_toString fits.split_lt, ofName?_name]
  rfl

theorem cutColon_eq_some {chars before after : List Char}
    (cut : cutColon chars = some (before, after)) : chars = before ++ ':' :: after := by
  induction chars generalizing before with
  | nil => cases cut
  | cons c rest induction =>
      rw [cutColon] at cut
      split at cut
      · rename_i colon
        cases cut
        rw [colon, List.nil_append]
      · cases inner : cutColon rest with
        | none => simp [inner] at cut
        | some pair =>
            rw [inner, Option.map_some] at cut
            cases cut
            rw [induction inner, List.cons_append]

theorem ofLine?_eq_some {line : String} {entry : Entry} (read : ofLine? line = some entry) :
    entry.split < UInt64.size ∧ entry.filename ≠ "" ∧
      ∃ before, line.toList = before ++ ':' :: entry.filename.toList := by
  simp only [ofLine?, Option.bind_eq_bind, Option.bind_eq_some_iff] at read
  obtain ⟨⟨splitChars, rest⟩, first, ⟨foldChars, filename⟩, second, read⟩ := read
  cases filename with
  | nil => simp at read
  | cons c filename =>
      simp only [List.isEmpty_cons, Bool.false_eq_true, if_false, Option.bind_eq_some_iff] at read
      obtain ⟨split, word, fold, -, same⟩ := read
      cases same
      refine ⟨?_, by simp, splitChars ++ ':' :: foldChars, ?_⟩
      · rw [word64?, Option.filter_eq_some_iff] at word
        exact of_decide_eq_true word.2
      · have rest_eq : rest = foldChars ++ ':' :: c :: filename := cutColon_eq_some second
        rw [String.toList_ofList, cutColon_eq_some first, rest_eq, List.append_assoc,
          List.cons_append]

theorem fitsLine_of_ofLine? {line : String} {entry : Entry} (unbroken : '\n' ∉ line.toList)
    (read : ofLine? (trim line) = some entry) : entry.FitsLine := by
  obtain ⟨small, nonempty, before, parts⟩ := ofLine?_eq_some read
  refine ⟨small, nonempty, ?_, ?_⟩
  · intro member
    apply unbroken
    apply mem_of_mem_trim
    rw [parts]
    exact List.mem_append_right before (List.mem_cons_of_mem ':' member)
  · -- The name is the end of a line without blank ends.
    intro c last
    have some : entry.filename.toList ≠ [] := by simpa using nonempty
    have ends : c ∈ (trim line).toList.getLast? := by
      rwa [parts, List.getLast?_append_of_ne_nil _ (by simp), List.getLast?_cons_of_ne_nil some]
    exact isBlank_of_mem_getLast?_trim ends

end Entry

namespace Manifest

theorem parseLines_line {entries : List Entry} (fit : ∀ entry ∈ entries, entry.FitsLine)
    (number : Nat) : parseLines number (entries.map Entry.line ++ [""]) = .ok entries := by
  induction entries generalizing number with
  | nil => rfl
  | cons entry rest induction =>
      rw [List.forall_mem_cons] at fit
      have some : ¬entry.line.isEmpty := by
        simp [Entry.line]
      rw [List.map_cons, List.cons_append, parseLines]
      simp only [fit.1.trim_line, if_neg some, fit.1.ofLine?_line, induction fit.2 (number + 1)]
      rfl

theorem parse_text {manifest : Manifest} (fit : ∀ entry ∈ manifest.entries, entry.FitsLine) :
    parse manifest.text = .ok manifest := by
  have lines_text : lines manifest.text = manifest.entries.map Entry.line ++ [""] := by
    rw [text, ← lines_join, List.map_map]
    · rfl
    · rw [List.forall_mem_map]
      exact fun entry member => (fit entry member).lineFeed_notMem_line
  rw [parse, lines_text, parseLines_line fit]
  rfl

theorem fitsLine_of_parseLines {number : Nat} {lines : List String} {entries : List Entry}
    (unbroken : ∀ line ∈ lines, '\n' ∉ line.toList)
    (parsed : parseLines number lines = .ok entries) : ∀ entry ∈ entries, entry.FitsLine := by
  induction lines generalizing number entries with
  | nil =>
      cases parsed
      exact List.forall_mem_nil _
  | cons line rest induction =>
      rw [List.forall_mem_cons] at unbroken
      simp only [parseLines] at parsed
      split at parsed
      · exact induction unbroken.2 parsed
      · split at parsed
        · cases parsed
        · rename_i entry read
          obtain ⟨others, parsedOthers, rfl⟩ := map_eq_ok.mp parsed
          rw [List.forall_mem_cons]
          exact ⟨Entry.fitsLine_of_ofLine? unbroken.1 read, induction unbroken.2 parsedOthers⟩

theorem fitsLine_of_parse {text : String} {manifest : Manifest}
    (parsed : parse text = .ok manifest) : ∀ entry ∈ manifest.entries, entry.FitsLine := by
  obtain ⟨entries, read, rfl⟩ := map_eq_ok.mp parsed
  exact fitsLine_of_parseLines (fun _ => lineFeed_notMem_of_mem_lines) read

/-- Just the manifests whose file names have no line feed, do not end in a blank and are not empty
come back from their texts, and these are all that any text can give. -/
theorem text_comesBack :
    (∀ manifest : Manifest, (∀ entry ∈ manifest.entries, entry.split < UInt64.size) →
      (parse manifest.text = .ok manifest ↔ ∀ entry ∈ manifest.entries,
        entry.filename ≠ "" ∧ '\n' ∉ entry.filename.toList ∧
          ∀ c ∈ entry.filename.toList.getLast?, isBlank c = false)) ∧
      ∀ (text : String) (manifest : Manifest), parse text = .ok manifest →
        parse manifest.text = .ok manifest := by
  refine ⟨?_, fun text manifest parsed => parse_text (fitsLine_of_parse parsed)⟩
  intro manifest small
  constructor
  · intro parsed entry member
    have fits := fitsLine_of_parse parsed entry member
    exact ⟨fits.nonempty, fits.unbroken, fits.unblank⟩
  · intro named
    apply parse_text
    intro entry member
    obtain ⟨nonempty, unbroken, unblank⟩ := named entry member
    exact ⟨small entry member, nonempty, unbroken, unblank⟩

/-- A name with a blank before it, colons and a carriage return, one with a blank after it, and a
line that is not spelled as it would be written. -/
theorem text_comesBack_oddNames :
    let manifest : Manifest := ⟨[⟨UInt64.size - 1, .test, " a:b\r:c"⟩, ⟨0, .train, ":"⟩]⟩
    let blank : Manifest := ⟨[⟨0, .train, "a "⟩]⟩
    let spelled : Manifest := ⟨[⟨7, .validation, " x:y"⟩]⟩
    ((∀ entry ∈ manifest.entries, entry.split < UInt64.size) ∧
        parse manifest.text = .ok manifest) ∧
      ((∀ entry ∈ blank.entries, entry.split < UInt64.size) ∧ parse blank.text ≠ .ok blank) ∧
      parse "\n +7 : Valid : x:y \r\n" = .ok spelled ∧ parse spelled.text = .ok spelled := by
  intro manifest blank spelled
  have small : ∀ entry ∈ manifest.entries, entry.split < UInt64.size := by decide
  have smallBlank : ∀ entry ∈ blank.entries, entry.split < UInt64.size := by decide
  have read : parse "\n +7 : Valid : x:y \r\n" = .ok spelled := by decide +kernel
  refine ⟨⟨small, ?_⟩, ⟨smallBlank, ?_⟩, read, text_comesBack.2 _ spelled read⟩
  · have named : ∀ entry ∈ manifest.entries, entry.filename ≠ "" ∧
        '\n' ∉ entry.filename.toList ∧ entry.filename.toList.getLast?.any isBlank = false := by
      decide +kernel
    apply (text_comesBack.1 manifest small).mpr
    intro entry member
    obtain ⟨nonempty, unbroken, unblank⟩ := named entry member
    refine ⟨nonempty, unbroken, ?_⟩
    intro c last
    rwa [last, Option.any_some] at unblank
  · intro parsed
    obtain ⟨-, -, unblank⟩ := (text_comesBack.1 blank smallBlank).mp parsed _ List.mem_cons_self
    have last : isBlank ' ' = false := unblank ' ' (by decide +kernel)
    exact absurd last (by decide)

end Manifest

end DefectGraphs.Split
