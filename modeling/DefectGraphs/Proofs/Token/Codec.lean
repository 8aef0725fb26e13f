import DefectGraphs.Proofs.Files.Bytes
import DefectGraphs.Token.Codec

/-!
Models are read back from their bytes. Nothing is known of a component but its bits, so the matrix
is that of the numbers with the same bits.
-/

namespace DefectGraphs.Token

open Files

theorem readsBack_char : ReadsBack pushChar readChar id where
  continues := fun bytes c => continues_pushNumber bytes c.toNat
  reads := by
    intro bytes c whole continues
    have number := readsBack_number.reads continues
    have valid : c.toNat.isValidChar := c.valid
    simp only [readChar, number, Option.bind_eq_bind, Option.bind_some, id]
    rw [if_pos valid, Char.ofNat_toNat]
    rfl

theorem readsBack_entry : ReadsBack pushEntry readEntry id where
  continues := by
    intro bytes entry
    exact (readsBack_char.counted.continues bytes _).trans (continues_pushNumber _ _)
  reads := by
    intro bytes entry whole continues
    have chars := readsBack_char.counted.reads ((continues_pushNumber _ _).trans continues)
    have count := readsBack_number.reads continues
    simp only [readEntry, chars, Option.bind_eq_bind, Option.bind_some, count]
    simp [pushEntry]

theorem readsBack_component :
    ReadsBack pushComponent readComponent fun component => .ofBits component.toBits where
  continues := fun bytes component => readsBack_word.continues bytes component.toBits
  reads := by
    intro bytes component whole continues
    rw [readComponent, readsBack_word.reads continues]
    rfl

theorem readsBack_grams : ReadsBack pushGrams readGrams id where
  continues := by
    intro bytes table
    exact ((continues_pushNumber bytes _).trans (continues_pushNumber _ _)).trans
      (continues_pushNumber _ _)
  reads := by
    intro bytes table whole third
    have second := (continues_pushNumber _ _).trans third
    have first := (continues_pushNumber _ _).trans second
    simp only [readGrams, readsBack_number.reads first, readsBack_number.reads second,
      readsBack_number.reads third, Option.bind_eq_bind, Option.bind_some]
    rfl

theorem Vocabulary.ofEntries_entries (vocabulary : Vocabulary) :
    ofEntries vocabulary.entries = vocabulary := by
  obtain ⟨entries, index, rfl⟩ := vocabulary
  rfl

namespace Model

/-- A model with the components that the bits of its own ones tell. -/
def ofBits (model : Model) : Model :=
  { model with
    matrix := model.matrix.map (Array.map fun component => Float32.ofBits component.toBits) }

theorem ofBytes?_toBytes (model : Model) : ofBytes? model.toBytes = some model.ofBits := by
  have matrix : Continues model.toBytes model.toBytes := .refl _
  have entries := (readsBack_component.counted.counted.continues _ _).trans matrix
  have grams := (readsBack_entry.counted.continues _ _).trans entries
  have size := (readsBack_grams.counted.continues _ _).trans grams
  have mark := (continues_pushNumber _ _).trans size
  have start : readNumber model.toBytes 0 = some (Model.mark, (pushNumber .empty Model.mark).size) :=
    readsBack_number.reads mark
  simp only [ofBytes?, start, Option.bind_eq_bind, Option.bind_some, readsBack_number.reads size,
    readsBack_grams.counted.reads grams, readsBack_entry.counted.reads entries,
    readsBack_component.counted.counted.reads matrix]
  have table : model.grams.toArray[0]? = model.grams := by
    cases model.grams <;> rfl
  rw [if_neg (fun differ => differ rfl), Array.map_id, Array.map_id, table, List.toList_toArray,
    Vocabulary.ofEntries_entries]
  exact if_pos rfl

end Model

end DefectGraphs.Token
