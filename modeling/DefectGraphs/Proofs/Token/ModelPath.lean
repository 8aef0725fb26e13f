import DefectGraphs.Proofs.Files.Join
import DefectGraphs.Proofs.Text.Reading
import DefectGraphs.Token.Store

/-!
The names of model files. They tell a backend, a vector size and a window, and differ from each
other and from the names that models have while they are written.
-/

namespace DefectGraphs.Token

open Files

/-- What tells the models of a cache from each other. -/
structure ModelKey where
  backend : Backend
  vectorSize : Nat
  window : Nat
  deriving DecidableEq

def Training.key (training : Training) (backend : Backend) : ModelKey :=
  ⟨backend, training.vectorSize, training.window⟩

namespace ModelKey

variable {key other : ModelKey}

def fileName (key : ModelKey) : String :=
  s!"{key.backend.name}_vs{key.vectorSize}_w{key.window}.model"

def path (key : ModelKey) (cache : Path) : Path :=
  modelPath cache key.backend key.vectorSize key.window

theorem toList_fileName (key : ModelKey) : key.fileName.toList =
    key.backend.name.toList ++ "_vs".toList ++ ((toString key.vectorSize).toList ++
      '_' :: 'w' :: ((toString key.window).toList ++ ".model".toList)) := by
  simp [fileName, toString]

theorem fileName_inj (same : key.fileName = other.fileName) : key = other := by
  obtain ⟨backend, size, window⟩ := key
  obtain ⟨backend', size', window'⟩ := other
  have texts := congrArg String.toList same
  simp only [toList_fileName] at texts
  obtain rfl : backend = backend' := by
    cases backend <;> cases backend' <;> simp [Backend.name] at texts ⊢
  -- Digits end at the first character that is none.
  have sizeDigits : '_' ∉ (toString size).toList := Text.notMem_toString rfl size
  have windowDigits : '_' ∉ 'w' :: ((toString window).toList ++ ".model".toList) := by
    simpa only [List.mem_cons, List.mem_append, not_or] using
      ⟨by decide, Text.notMem_toString rfl window, by decide⟩
  obtain ⟨sizes, -, ends⟩ := (List.append_cons_inj_of_notMem sizeDigits windowDigits).mp
    (List.append_cancel_left texts)
  have windows := List.append_cancel_right (List.cons.inj ends).2
  rw [Text.toList_toString_inj sizes, Text.toList_toString_inj windows]

theorem exists_fileName_eq (key : ModelKey) : ∃ start, key.fileName = start ++ ".model" :=
  ⟨_, rfl⟩

theorem fileName_ne_temporary (key other : ModelKey) : key.fileName ≠ other.fileName ++ ".tmp" := by
  intro same
  obtain ⟨start, named⟩ := key.exists_fileName_eq
  have ends := congrArg (fun name => name.toList.getLast?) (named.symm.trans same)
  simp at ends

theorem notMem_fileName (key : ModelKey) : '/' ∉ key.fileName.toList := by
  have sizes : '/' ∉ (toString key.vectorSize).toList := Text.notMem_toString rfl _
  have windows : '/' ∉ (toString key.window).toList := Text.notMem_toString rfl _
  rw [toList_fileName]
  simp only [List.mem_append, List.mem_cons, sizes, windows]
  cases key.backend <;> decide

theorem isPlain_fileName (key : ModelKey) : Path.IsPlain key.fileName := by
  obtain ⟨start, named⟩ := key.exists_fileName_eq
  apply Path.IsPlain.of_length key.notMem_fileName
  rw [named]
  simp

theorem isPlain_temporary (key : ModelKey) : Path.IsPlain (key.fileName ++ ".tmp") := by
  apply Path.IsPlain.of_length
  · simp [key.notMem_fileName]
  · simp

theorem temporary_eq (key : ModelKey) (cache : Path) :
    key.path cache ++ ".tmp" = cache.join (key.fileName ++ ".tmp") :=
  key.isPlain_fileName.join_append key.isPlain_temporary cache

end ModelKey

end DefectGraphs.Token
