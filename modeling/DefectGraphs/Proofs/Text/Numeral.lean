import DefectGraphs.Proofs.Text.Reading

/-!
The texts that are read as numbers: decimal digits, at least one, with or without a plus sign.
-/

namespace DefectGraphs.Text

def IsNumeral (text : String) (value : Nat) : Prop :=
  ∃ digits : List Char, digits ≠ [] ∧ (∀ c ∈ digits, c.isDigit = true) ∧
    (text.toList = digits ∨ text.toList = '+' :: digits) ∧
    Nat.ofDigitChars 10 digits 0 = value

theorem isDigit_of_readDigits {chars : List Char} {value result : Nat}
    (read : readDigits value chars = some result) : ∀ c ∈ chars, c.isDigit = true := by
  induction chars generalizing value with
  | nil => exact List.forall_mem_nil _
  | cons c rest induction =>
      obtain ⟨digit, first, others⟩ := Option.bind_eq_some_iff.mp read
      rw [digitValue, Option.ite_none_right_eq_some] at first
      rw [List.forall_mem_cons]
      exact ⟨first.1, induction others⟩

theorem readDigits_eq_some_iff {chars : List Char} {value result : Nat} :
    readDigits value chars = some result ↔
      (∀ c ∈ chars, c.isDigit = true) ∧ Nat.ofDigitChars 10 chars value = result := by
  constructor
  · intro read
    have digits := isDigit_of_readDigits read
    rw [readDigits_eq digits] at read
    exact ⟨digits, Option.some.inj read⟩
  · rintro ⟨digits, rfl⟩
    exact readDigits_eq digits value

theorem numeralValue_eq_some_iff {text : String} {value : Nat} :
    numeralValue text.toList = some value ↔ IsNumeral text value := by
  constructor
  · intro read
    unfold numeralValue at read
    split at read
    · cases read
    · cases read
    · obtain ⟨digits, same⟩ := readDigits_eq_some_iff.mp read
      exact ⟨_, List.cons_ne_nil _ _, digits, .inr ‹_›, same⟩
    · obtain ⟨digits, same⟩ := readDigits_eq_some_iff.mp read
      exact ⟨_, List.cons_ne_nil _ _, digits, .inl ‹_›, same⟩
  · rintro ⟨digits, nonempty, decimal, plain | signed, rfl⟩
    · rw [plain, numeralValue_eq decimal nonempty]
    · obtain ⟨c, rest, rfl⟩ := List.exists_cons_of_ne_nil nonempty
      rw [signed, numeralValue, readDigits_eq decimal]

theorem word64?_eq_some_iff {text : String} {value : Nat} :
    word64? text = some value ↔ IsNumeral text value ∧ value < UInt64.size := by
  rw [word64?, Option.filter_eq_some_iff, numeralValue_eq_some_iff, decide_eq_true_iff]

end DefectGraphs.Text
