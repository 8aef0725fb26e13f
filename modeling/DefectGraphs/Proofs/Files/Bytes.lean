import DefectGraphs.Files.Bytes
import Mathlib.Data.Nat.Bitwise

/-!
Numbers, words and counted elements are read as they were written, whatever bytes come before them
and after them.
-/

namespace DefectGraphs.Files

/-- The whole begins with the bytes before. -/
def Continues (before whole : ByteArray) : Prop :=
  ∀ (position : Nat) byte, before.data[position]? = some byte → whole.data[position]? = some byte

namespace Continues

variable {before middle whole : ByteArray}

theorem refl (bytes : ByteArray) : Continues bytes bytes :=
  fun _ _ => id

theorem trans (first : Continues before middle) (second : Continues middle whole) :
    Continues before whole :=
  fun position byte found => second position byte (first position byte found)

theorem push (bytes : ByteArray) (byte : UInt8) : Continues bytes (bytes.push byte) := by
  intro position found present
  have within : position < bytes.data.size := (Array.getElem?_eq_some_iff.mp present).1
  rw [ByteArray.data_push, Array.getElem?_push_lt within, ← present,
    Array.getElem?_eq_getElem within]

theorem getElem_size {byte : UInt8} (continues : Continues (before.push byte) whole) :
    ∃ within : before.size < whole.size, whole[before.size] = byte := by
  have last : (before.push byte).data[before.size]? = some byte := by
    rw [ByteArray.data_push]
    exact Array.getElem?_push_size
  exact Array.getElem?_eq_some_iff.mp (continues _ _ last)

end Continues

/-- What is pushed for an element is read, and nothing after it. -/
structure ReadsBack (push : ByteArray → α → ByteArray) (read : Reader β) (back : α → β) : Prop where
  continues : ∀ bytes element, Continues bytes (push bytes element)
  reads : ∀ {bytes element whole}, Continues (push bytes element) whole →
    read whole bytes.size = some (back element, (push bytes element).size)

section Number

theorem continues_pushNumber (bytes : ByteArray) (number : Nat) :
    Continues bytes (pushNumber bytes number) := by
  fun_induction pushNumber bytes number with
  | case1 bytes number small => exact .push bytes _
  | case2 bytes number large induction => exact (Continues.push bytes _).trans induction

theorem readDigits_pushNumber {bytes whole : ByteArray} {number : Nat}
    (continues : Continues (pushNumber bytes number) whole) (value scale : Nat) :
    readDigits value scale whole bytes.size =
      some (value + number * scale, (pushNumber bytes number).size) := by
  -- Digits are added up while they are read, the lowest first, so the value so far and the scale
  -- change from digit to digit.
  fun_induction pushNumber bytes number generalizing value scale with
  | case1 bytes number small =>
      obtain ⟨within, digit⟩ := continues.getElem_size
      have same : number.toUInt8.toNat = number :=
        UInt8.toNat_ofNat_of_lt' (Nat.lt_trans small (by decide))
      rw [readDigits, dif_pos within, digit, same, if_pos small, ByteArray.size_push]
  | case2 bytes number large induction =>
      obtain ⟨within, digit⟩ := ((continues_pushNumber _ _).trans continues).getElem_size
      have marked : number % 128 + 128 < 256 := by omega
      have same : (number % 128 + 128).toUInt8.toNat = number % 128 + 128 :=
        UInt8.toNat_ofNat_of_lt' marked
      have rest := induction continues (value + number % 128 * scale) (128 * scale)
      rw [ByteArray.size_push] at rest
      rw [readDigits, dif_pos within, digit, same, if_neg (by omega), Nat.add_sub_cancel, rest]
      have whole : number % 128 * scale + number / 128 * (128 * scale) = number * scale := by
        rw [← Nat.mul_assoc, ← Nat.add_mul, Nat.mul_comm (number / 128), Nat.mod_add_div]
      rw [Nat.add_assoc, whole]

theorem readsBack_number : ReadsBack pushNumber readNumber id where
  continues := continues_pushNumber
  reads := by
    intro bytes number whole continues
    rw [readNumber, readDigits_pushNumber continues, Nat.zero_add, Nat.mul_one, id]

end Number

section Word

/-- The bytes of a word, each at its place, are the word. -/
theorem word_of_bytes (word : UInt32) :
    word.toUInt8.toUInt32 ||| ((word >>> 8).toUInt8.toUInt32 <<< 8) |||
      ((word >>> 16).toUInt8.toUInt32 <<< 16) ||| ((word >>> 24).toUInt8.toUInt32 <<< 24) =
        word := by
  apply UInt32.toNat_inj.mp
  apply Nat.eq_of_testBit_eq
  intro place
  have beyond : 32 ≤ place → word.toNat.testBit place = false := by
    intro far
    apply Nat.testBit_lt_two_pow
    exact Nat.lt_of_lt_of_le word.toNat_lt (Nat.pow_le_pow_right (by decide) far)
  simp only [UInt32.toNat_or, UInt32.toNat_shiftLeft, UInt8.toNat_toUInt32, UInt32.toNat_toUInt8,
    UInt32.toNat_shiftRight, UInt32.reduceToNat, Nat.reduceMod, Nat.testBit_lor,
    Nat.testBit_mod_two_pow, Nat.testBit_shiftLeft, Nat.testBit_shiftRight]
  grind

theorem size_pushWord (bytes : ByteArray) (word : UInt32) :
    (pushWord bytes word).size = bytes.size + 4 := by
  simp only [pushWord, ByteArray.size_push]

theorem readsBack_word : ReadsBack pushWord readWord id where
  continues := by
    intro bytes word
    exact (((Continues.push bytes _).trans (.push _ _)).trans (.push _ _)).trans (.push _ _)
  reads := by
    intro bytes word whole fourth
    have third := (Continues.push _ _).trans fourth
    have second := (Continues.push _ _).trans third
    have first := (Continues.push _ _).trans second
    obtain ⟨_, byte⟩ := first.getElem_size
    obtain ⟨_, byte8⟩ := second.getElem_size
    obtain ⟨_, byte16⟩ := third.getElem_size
    obtain ⟨within, byte24⟩ := fourth.getElem_size
    simp only [ByteArray.size_push] at byte8 byte16 byte24 within
    rw [readWord, dif_pos within, byte, byte8, byte16, byte24, word_of_bytes, size_pushWord, id]

end Word

section Counted

variable {push : ByteArray → α → ByteArray} {read : Reader β} {back : α → β}

theorem ReadsBack.continues_foldl (element : ReadsBack push read back) (bytes : ByteArray)
    (elements : List α) : Continues bytes (elements.foldl push bytes) := by
  induction elements generalizing bytes with
  | nil => exact .refl bytes
  | cons first rest induction => exact (element.continues bytes first).trans (induction _)

theorem ReadsBack.readTimes (element : ReadsBack push read back) (elements : List α)
    {bytes whole : ByteArray} (continues : Continues (elements.foldl push bytes) whole)
    (before : Array β) :
    readTimes read before elements.length whole bytes.size =
      some (before ++ (elements.map back).toArray, (elements.foldl push bytes).size) := by
  induction elements generalizing bytes before with
  | nil => simp [Files.readTimes]
  | cons first rest induction =>
      have next := (element.continues_foldl _ rest).trans continues
      rw [List.length_cons, Files.readTimes, element.reads next]
      dsimp only
      rw [induction continues]
      simp

theorem ReadsBack.counted (element : ReadsBack push read back) :
    ReadsBack (pushCounted push) (readCounted read) (Array.map back) where
  continues := by
    intro bytes elements
    rw [pushCounted, ← Array.foldl_toList]
    exact (continues_pushNumber bytes _).trans (element.continues_foldl _ _)
  reads := by
    intro bytes elements whole continues
    rw [pushCounted, ← Array.foldl_toList] at continues ⊢
    have counted := readsBack_number.reads ((element.continues_foldl _ _).trans continues)
    rw [readCounted, counted]
    have times := element.readTimes elements.toList continues #[]
    rw [Array.length_toList] at times
    dsimp only [id]
    rw [times, ← Array.toList_map, Array.toArray_toList, Array.empty_append]

end Counted

end DefectGraphs.Files
