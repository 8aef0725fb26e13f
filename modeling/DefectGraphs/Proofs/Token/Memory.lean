import DefectGraphs.Proofs.Outcome
import DefectGraphs.Proofs.Token.Shape

/-!
Matrices that lie in one array, row after row. An access is checked: a row that is not there, and a
place whose number needs more than 64 bits, give nothing.
-/

namespace DefectGraphs.Token

/-- A number, if 64 bits hold it. -/
def number64? (number : Nat) : Option Nat :=
  if number < UInt64.size then some number else none

/-- A number, if 32 bits hold it. -/
def number32? (number : Nat) : Option Nat :=
  if number < UInt32.size then some number else none

theorem number64?_of_lt {number : Nat} (small : number < UInt64.size) :
    number64? number = some number :=
  if_pos small

theorem number32?_of_lt {number : Nat} (small : number < UInt32.size) :
    number32? number = some number :=
  if_pos small

structure Memory where
  rows : Nat
  size : Nat
  components : Row

namespace Memory

/-- The place where a row starts, if all of the row is there. -/
def start? (memory : Memory) (row : Nat) : Option Nat := do
  let start ← number64? (row * memory.size)
  let stop ← number64? ((row + 1) * memory.size)
  if row < memory.rows ∧ stop ≤ memory.components.size then some start else none

def row? (memory : Memory) (row : Nat) : Option Row := do
  let start ← memory.start? row
  some (memory.components.extract start (start + memory.size))

def modify? (memory : Memory) (row : Nat) (change : Row → Row) : Option Memory := do
  let start ← memory.start? row
  let stop := start + memory.size
  some { memory with
    components := memory.components.extract 0 start ++
      change (memory.components.extract start stop) ++
      memory.components.extract stop memory.components.size }

def mean? (memory : Memory) (rows : List Nat) : Option Row :=
  let scale := 1 / rows.length.toUInt64.toFloat32
  rows.foldlM (fun sum index => (memory.row? index).map (Row.addScaled sum · scale))
    (Row.zeros memory.size)

def addToEach? (memory : Memory) (rows : List Nat) (added : Row) : Option Memory :=
  let scale := 1 / rows.length.toUInt64.toFloat32
  rows.foldlM (fun memory index => memory.modify? index (Row.addScaled · added scale)) memory

def ofMatrix (size : Nat) (matrix : Matrix) : Memory :=
  ⟨matrix.size, size, matrix.flatten⟩

end Memory

section Parts

variable (before held after : Array α)

theorem extract_held :
    (before ++ held ++ after).extract before.size (before.size + held.size) = held := by
  simp [Array.extract_append]

theorem extract_before : (before ++ held ++ after).extract 0 before.size = before := by
  simp [Array.extract_append]

theorem extract_after : (before ++ held ++ after).extract (before.size + held.size)
    (before.size + held.size + after.size) = after := by
  rw [← Array.size_append, Array.extract_append_right, Array.extract_size]

end Parts

namespace Matrix

theorem exists_eq_append {matrix : Matrix} {row : Nat} (within : row < matrix.size) :
    ∃ before after : Matrix, matrix = before ++ #[matrix.row row] ++ after ∧ before.size = row := by
  refine ⟨matrix.extract 0 row, matrix.extract (row + 1) matrix.size, ?_, ?_⟩
  · rw [row_eq (Array.getElem?_eq_getElem within)]
    apply Array.ext
    · grind
    · intro index _ _
      grind
  · rw [Array.size_extract]
    omega

theorem flatten_append (before after : Matrix) (held : Row) :
    (before ++ #[held] ++ after).flatten = before.flatten ++ held ++ after.flatten := by
  rw [Array.flatten_append, Array.flatten_append, Array.flatten_singleton]

theorem modify_append (before after : Matrix) (held : Row) (change : Row → Row) :
    (before ++ #[held] ++ after).modify before.size change =
      before ++ #[change held] ++ after := by
  apply Array.ext
  · grind
  · intro index _ _
    rw [Array.getElem_modify]
    grind

namespace HasShape

variable {matrix : Matrix} {rows size : Nat}

theorem size_of_mem (shape : matrix.HasShape rows size) {held : Row} (member : held ∈ matrix) :
    held.size = size := by
  obtain ⟨index, within, rfl⟩ := Array.mem_iff_getElem.mp member
  rw [← row_eq (Array.getElem?_eq_getElem within)]
  exact shape.size_row index (shape.size_eq ▸ within)

theorem size_flatten_of_forall {part : Matrix} (sized : ∀ held ∈ part, held.size = size) :
    part.flatten.size = part.size * size := by
  rw [Array.size_flatten, Array.map_eq_replicate_iff.mpr sized, Array.sum_replicate_nat]

theorem size_flatten (shape : matrix.HasShape rows size) : matrix.flatten.size = rows * size := by
  rw [size_flatten_of_forall fun held => shape.size_of_mem, shape.size_eq]

/-- A matrix cut at one of its rows, with the place where the row starts. -/
theorem exists_cut (shape : matrix.HasShape rows size) {row : Nat} (within : row < rows) :
    ∃ before held after, matrix = before ++ #[held] ++ after ∧ before.size = row ∧
      held = matrix.row row ∧ before.flatten.size = row * size ∧ held.size = size := by
  obtain ⟨before, after, cut, place⟩ := exists_eq_append (shape.size_eq ▸ within)
  refine ⟨before, _, after, cut, place, rfl, ?_, shape.size_row row within⟩
  rw [← place]
  apply size_flatten_of_forall
  intro held member
  apply shape.size_of_mem
  rw [cut]
  simp [member]

end HasShape

end Matrix

namespace Memory

section Access

variable {matrix : Matrix} {rows size : Nat} (shape : matrix.HasShape rows size)
  (fits : rows * size < UInt64.size)

include shape fits

theorem start?_ofMatrix {row : Nat} (within : row < rows) :
    (ofMatrix size matrix).start? row = some (row * size) := by
  have stop : (row + 1) * size ≤ rows * size := Nat.mul_le_mul_right size within
  have start : row * size ≤ (row + 1) * size := Nat.mul_le_mul_right size (Nat.le_succ row)
  simp only [start?, ofMatrix, number64?_of_lt (Nat.lt_of_le_of_lt stop fits),
    number64?_of_lt (Nat.lt_of_le_of_lt (Nat.le_trans start stop) fits), Option.bind_eq_bind,
    Option.bind_some, shape.size_flatten, shape.size_eq]
  exact if_pos ⟨within, stop⟩

theorem row?_ofMatrix {row : Nat} (within : row < rows) :
    (ofMatrix size matrix).row? row = some (matrix.row row) := by
  have start := start?_ofMatrix shape fits within
  obtain ⟨before, held, after, rfl, rfl, same, left, sized⟩ := shape.exists_cut within
  rw [row?, start, ← same, ← left, ← sized]
  simp only [ofMatrix, Matrix.flatten_append, Option.bind_eq_bind, Option.bind_some, extract_held]

theorem modify?_ofMatrix {row : Nat} (within : row < rows) (change : Row → Row) :
    (ofMatrix size matrix).modify? row change =
      some (ofMatrix size (matrix.modify row change)) := by
  have start := start?_ofMatrix shape fits within
  obtain ⟨before, held, after, rfl, rfl, -, left, sized⟩ := shape.exists_cut within
  rw [modify?, start, Matrix.modify_append, ← left, ← sized]
  simp only [ofMatrix, Matrix.flatten_append, Option.bind_eq_bind, Option.bind_some, extract_held,
    extract_before, extract_after, Array.size_append, Array.size_singleton]

theorem mean?_ofMatrix {indices : List Nat} (listed : ∀ index ∈ indices, index < rows) :
    (ofMatrix size matrix).mean? indices = some (matrix.mean size indices) := by
  apply foldlM_eq_some id (fun _ => True) trivial
  intro sum _ index member
  rw [row?_ofMatrix shape fits (listed index member)]
  exact ⟨rfl, trivial⟩

theorem addToEach?_ofMatrix {indices : List Nat} (listed : ∀ index ∈ indices, index < rows)
    {added : Row} (same : added.size = size) :
    (ofMatrix size matrix).addToEach? indices added =
      some (ofMatrix size (matrix.addToEach indices added)) := by
  apply foldlM_eq_some (ofMatrix size) (fun matrix : Matrix => matrix.HasShape rows size) shape
  intro reached kept index member
  refine ⟨modify?_ofMatrix kept fits (listed index member) _, kept.modify index ?_⟩
  intro held sized
  rw [Row.size_addScaled, sized, same, Nat.min_self]

end Access

end Memory

end DefectGraphs.Token
