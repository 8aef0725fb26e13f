import DefectGraphs.Text.Blank
import DefectGraphs.Text.Numeral
import Mathlib.Data.List.Basic
import Mathlib.Data.List.TakeWhile

/-!
Texts that come back as they were: those without blank ends when they are trimmed, lines when they
are joined by line feeds, and numbers when they are written in decimal. Trimming leaves no blank
ends and takes nothing but blanks; there is one line more than there are line feeds, and none has
one.
-/

namespace DefectGraphs.Text

section Blank

theorem dropWhile_isBlank_eq_self {chars : List Char}
    (kept : ∀ c ∈ chars.head?, isBlank c = false) : chars.dropWhile isBlank = chars := by
  cases chars with
  | nil => rfl
  | cons c rest => rw [List.dropWhile_cons_of_neg (by simp [kept c rfl])]

theorem trimChars_eq_self {chars : List Char} (first : ∀ c ∈ chars.head?, isBlank c = false)
    (last : ∀ c ∈ chars.getLast?, isBlank c = false) : trimChars chars = chars := by
  rw [trimChars, trimEndChars, dropWhile_isBlank_eq_self first,
    dropWhile_isBlank_eq_self (by simpa using last), List.reverse_reverse]

theorem trim_eq_self {text : String} (first : ∀ c ∈ text.toList.head?, isBlank c = false)
    (last : ∀ c ∈ text.toList.getLast?, isBlank c = false) : trim text = text := by
  rw [trim, trimChars_eq_self first last, String.ofList_toList]

theorem mem_of_mem_trim {text : String} {c : Char} (member : c ∈ (trim text).toList) :
    c ∈ text.toList := by
  rw [trim, String.toList_ofList, trimChars, trimEndChars, List.mem_reverse] at member
  have kept := (List.dropWhile_sublist isBlank).mem member
  rw [List.mem_reverse] at kept
  exact (List.dropWhile_sublist isBlank).mem kept

theorem isBlank_or_mem_trim {text : String} {c : Char} (member : c ∈ text.toList) :
    isBlank c = true ∨ c ∈ (trim text).toList := by
  have kept {chars : List Char} (member : c ∈ chars) :
      isBlank c = true ∨ c ∈ chars.dropWhile isBlank := by
    rw [← List.takeWhile_append_dropWhile (p := isBlank) (l := chars), List.mem_append] at member
    exact member.imp_left List.mem_takeWhile_imp
  rw [trim, String.toList_ofList, trimChars, trimEndChars, List.mem_reverse]
  rcases kept member with blank | inside
  · exact .inl blank
  · exact kept (List.mem_reverse.mpr inside)

theorem isBlank_of_mem_getLast?_trim {text : String} {c : Char}
    (last : c ∈ (trim text).toList.getLast?) : isBlank c = false := by
  rw [trim, String.toList_ofList, trimChars, trimEndChars, List.getLast?_reverse,
    Option.mem_def] at last
  have ends := List.head?_dropWhile_not isBlank (text.toList.dropWhile isBlank).reverse
  rwa [last] at ends

end Blank

section Lines

theorem eq_false_of_mem_splitOnP {p : α → Bool} {elements part : List α}
    (member : part ∈ elements.splitOnP p) : ∀ element ∈ part, p element = false := by
  induction elements generalizing part with
  | nil =>
      have empty : part = [] := by simpa using member
      simp [empty]
  | cons element rest induction =>
      obtain ⟨head, tail, parts⟩ := List.exists_cons_of_ne_nil (List.splitOnP_ne_nil p rest)
      rw [List.splitOnP_cons_eq_if_modifyHead, parts] at member
      simp only [parts, List.mem_cons] at induction
      by_cases separates : p element = true
      · rw [if_pos separates, List.mem_cons, List.mem_cons] at member
        rcases member with empty | other
        · simp [empty]
        · exact induction other
      · rw [if_neg separates, List.modifyHead_cons, List.mem_cons] at member
        rcases member with first | other
        · rw [first, List.forall_mem_cons]
          exact ⟨by simpa using separates, induction (.inl rfl)⟩
        · exact induction (.inr other)

theorem notMem_of_mem_splitOn [BEq α] [LawfulBEq α] {separator : α} {elements part : List α}
    (member : part ∈ elements.splitOn separator) : separator ∉ part := by
  intro inside
  have apart := eq_false_of_mem_splitOnP member separator inside
  rw [beq_self_eq_true] at apart
  cases apart

theorem lineFeed_notMem_of_mem_lines {text line : String} (member : line ∈ lines text) :
    '\n' ∉ line.toList := by
  obtain ⟨chars, part, rfl⟩ := List.mem_map.mp member
  rw [String.toList_ofList]
  exact notMem_of_mem_splitOn part

theorem lines_append (first second : String) :
    lines (first ++ "\n" ++ second) = lines first ++ lines second := by
  rw [lines, lines, lines, ← List.map_append, ← List.splitOn_append_cons_self]
  simp

theorem length_splitOn [BEq α] [LawfulBEq α] (separator : α) (elements : List α) :
    (elements.splitOn separator).length = elements.count separator + 1 := by
  induction elements with
  | nil => simp
  | cons element rest induction =>
      rw [List.splitOn_cons_eq_if_modifyHead, List.count_cons]
      split <;> simp [induction]

theorem length_lines (text : String) : (lines text).length = text.toList.count '\n' + 1 := by
  rw [lines, List.length_map, length_splitOn]

theorem toList_join_lines (texts : List String) :
    (String.join (texts.map (· ++ "\n"))).toList =
      ['\n'].intercalate ((texts ++ [""]).map String.toList) := by
  induction texts with
  | nil => rfl
  | cons text rest induction =>
      have more : (rest ++ [""]).map String.toList ≠ [] := by simp
      rw [List.map_cons, String.join_cons, String.toList_append, induction, List.cons_append,
        List.map_cons, List.intercalate_cons_of_ne_nil more, String.toList_append]
      rfl

theorem lines_join {texts : List String} (unbroken : ∀ text ∈ texts, '\n' ∉ text.toList) :
    lines (String.join (texts.map (· ++ "\n"))) = texts ++ [""] := by
  have broken : ∀ chars ∈ (texts ++ [""]).map String.toList, '\n' ∉ chars := by
    rw [List.forall_mem_map, List.forall_mem_append]
    exact ⟨unbroken, by simp⟩
  rw [lines, toList_join_lines, List.splitOn_intercalate _ broken (by simp), List.map_map]
  simp [Function.comp_def]

end Lines

section Numeral

theorem isBlank_of_isDigit {c : Char} (digit : c.isDigit = true) : isBlank c = false := by
  obtain ⟨least, most⟩ := Char.isDigit_iff_toNat.mp digit
  simp only [Char.reduceToNat] at least most
  simp only [isBlank, Bool.or_eq_false_iff, Bool.and_eq_false_iff, decide_eq_false_iff_not,
    beq_eq_false_iff_ne]
  omega

theorem readDigits_eq {chars : List Char} (digits : ∀ c ∈ chars, c.isDigit = true) (value : Nat) :
    readDigits value chars = some (Nat.ofDigitChars 10 chars value) := by
  induction chars generalizing value with
  | nil => rfl
  | cons c rest induction =>
      have isDigit := digits c List.mem_cons_self
      rw [readDigits, digitValue, if_pos isDigit, Option.bind_some, Nat.ofDigitChars_cons]
      exact induction (fun other member => digits other (List.mem_cons_of_mem c member)) _

theorem isDigit_of_mem_toString {number : Nat} {c : Char} (member : c ∈ (toString number).toList) :
    c.isDigit = true := by
  rw [Nat.toString_eq_repr, Nat.toList_repr] at member
  exact Nat.isDigit_of_mem_toDigits (by decide) (by decide) member

theorem notMem_toString {c : Char} (digit : c.isDigit = false) (number : Nat) :
    c ∉ (toString number).toList := by
  intro member
  rw [isDigit_of_mem_toString member] at digit
  cases digit

theorem numeralValue_eq {chars : List Char} (digits : ∀ c ∈ chars, c.isDigit = true)
    (nonempty : chars ≠ []) : numeralValue chars = some (Nat.ofDigitChars 10 chars 0) := by
  unfold numeralValue
  split
  · exact absurd rfl nonempty
  · exact absurd (digits '+' List.mem_cons_self) (by decide)
  · exact absurd (digits '+' List.mem_cons_self) (by decide)
  · exact readDigits_eq digits 0

theorem ofDigitChars_toString (number : Nat) :
    Nat.ofDigitChars 10 (toString number).toList 0 = number := by
  rw [Nat.toString_eq_repr, Nat.toList_repr, Nat.ofDigitChars_ten_toDigits]

theorem toList_toString_inj {number other : Nat}
    (same : (toString number).toList = (toString other).toList) : number = other := by
  rw [← ofDigitChars_toString number, same, ofDigitChars_toString]

theorem word64?_toString {number : Nat} (few : number < UInt64.size) :
    word64? (toString number) = some number := by
  have digits : ∀ c ∈ (toString number).toList, c.isDigit = true := fun _ =>
    isDigit_of_mem_toString
  rw [word64?, numeralValue_eq digits (by simp), ofDigitChars_toString,
    Option.filter_some_pos (by simpa using few)]

end Numeral

end DefectGraphs.Text
