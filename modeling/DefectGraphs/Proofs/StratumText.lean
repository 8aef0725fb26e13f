import DefectGraphs.Balance.Oversample
import DefectGraphs.Proofs.Graph.Readers
import DefectGraphs.Proofs.Grouping
import DefectGraphs.Proofs.Split.Made
import DefectGraphs.Proofs.Text.Words
import DefectGraphs.Split.Store
import Mathlib.Data.List.Nodup

/-!
Strata are told apart by their texts, both those that a corpus is divided by and those that records
are balanced in. A label may hold anything: the fields after it are read from the end.
-/

namespace DefectGraphs

open Label Text

section Field

variable {render : α → String} {field other : Option α}

/-- A field that is missing is written as a dash. -/
def fieldText (render : α → String) (field : Option α) : String :=
  (field.map render).getD "-"

theorem fieldText_inj (inj : ∀ value value', render value = render value' → value = value')
    (dash : ∀ value, render value ≠ "-") :
    fieldText render field = fieldText render other ↔ field = other := by
  constructor
  · intro same
    cases field with
    | none =>
        cases other with
        | none => rfl
        | some value => exact absurd same.symm (dash value)
    | some value =>
        cases other with
        | none => exact absurd same (dash value)
        | some value' => rw [inj value value' same]
  · intro same
    rw [same]

theorem notMem_fieldText {c : Char} (absent : ∀ value, c ∉ (render value).toList) (dash : c ≠ '-') :
    c ∉ (fieldText render field).toList := by
  cases field with
  | none => simpa [fieldText] using dash
  | some value => exact absent value

theorem toString_ne_dash (number : Nat) : toString number ≠ "-" := by
  intro same
  exact notMem_toString (c := '-') rfl number (by simp [same])

theorem cweText_inj {cwe other : Option Nat} :
    fieldText toString cwe = fieldText toString other ↔ cwe = other := by
  apply fieldText_inj
  · intro number number' same
    exact toList_toString_inj (congrArg String.toList same)
  · exact toString_ne_dash

theorem languageText_inj {language other : Option Language} :
    fieldText Language.name language = fieldText Language.name other ↔ language = other := by
  apply fieldText_inj
  · intro known known'
    cases known <;> cases known' <;> decide
  · intro known
    cases known <;> decide

end Field

namespace Split

section Text

variable {label label' : String} {cwe cwe' : Option Nat} {language language' : Option Language}

theorem toList_stratumText : (stratumText label cwe language).toList =
    (label.toList ++ ':' :: (fieldText toString cwe).toList) ++
      ':' :: (fieldText Language.name language).toList := by
  simp [stratumText, fieldText]

/-- The last two colons of a stratum's text stand before its fields. -/
theorem stratumText_inj : stratumText label cwe language = stratumText label' cwe' language' ↔
    label = label' ∧ cwe = cwe' ∧ language = language' := by
  have noColon : ∀ known : Language, ':' ∉ known.name.toList := by
    intro known
    cases known <;> decide
  rw [← String.toList_inj, toList_stratumText, toList_stratumText,
    append_cons_inj_right (notMem_fieldText noColon (by decide))
      (notMem_fieldText noColon (by decide)),
    append_cons_inj_right (notMem_fieldText (notMem_toString rfl) (by decide))
      (notMem_fieldText (notMem_toString rfl) (by decide)),
    String.toList_inj, String.toList_inj, String.toList_inj, cweText_inj, languageText_inj,
    and_assoc]

end Text

/-- The fields of a graph file that decide its stratum. -/
def HasFields (tree : Files.Tree) (path : Files.Path) (label : String) (cwe : Option Nat)
    (language : Option Language) : Prop :=
  ∃ heading, Graph.readGraph Graph.Heading.parse? tree path = .ok heading ∧
    heading.label = label ∧ heading.cwe = cwe ∧
    heading.filePath.mapM Language.ofPath = .ok language

theorem readStratum_eq_ok {tree : Files.Tree} {path : Files.Path} {text : String} :
    readStratum tree path = .ok text ↔ ∃ label cwe language,
      HasFields tree path label cwe language ∧ stratumText label cwe language = text := by
  constructor
  · intro made
    rw [readStratum, bind_eq_ok] at made
    obtain ⟨heading, read, given⟩ := made
    cases source : heading.filePath with
    | none =>
        rw [source] at given
        exact ⟨_, _, none, ⟨heading, read, rfl, rfl, by rw [source]; rfl⟩, Except.ok.inj given⟩
    | some file =>
        rw [source] at given
        obtain ⟨language, known, same⟩ := map_eq_ok.mp given
        exact ⟨_, _, some language,
          ⟨heading, read, rfl, rfl, by rw [source, Option.mapM_some, known]; rfl⟩, same⟩
  · intro fields
    obtain ⟨label, cwe, language, ⟨heading, read, sameLabel, sameCwe, known⟩, same⟩ := fields
    subst sameLabel sameCwe same
    obtain ⟨content, held, parsed⟩ := readGraph_eq_ok.mp read
    exact Graph.readStratum_eq held parsed known

end Split

namespace Balance

theorem Stratum.toList_name (stratum : Stratum) : stratum.name.toList =
    ("cwe=".toList ++ (fieldText toString stratum.cwe).toList) ++
      ' ' :: ("language=".toList ++ (fieldText Language.name stratum.language).toList) := by
  simp [name, fieldText]

/-- The first space of a stratum's name stands between its fields. -/
theorem Stratum.name_inj {stratum other : Stratum} : stratum.name = other.name ↔ stratum = other := by
  have noSpace (cwe : Option Nat) : ' ' ∉ "cwe=".toList ++ (fieldText toString cwe).toList := by
    rw [List.mem_append, not_or]
    exact ⟨by decide, notMem_fieldText (notMem_toString rfl) (by decide)⟩
  rw [← String.toList_inj, toList_name, toList_name, append_cons_inj_left (noSpace _) (noSpace _),
    List.append_cancel_left_eq, List.append_cancel_left_eq, String.toList_inj, String.toList_inj,
    cweText_inj, languageText_inj]
  cases stratum
  cases other
  rw [mk.injEq]

theorem nodup_name_tallies (fields : List StratumField) (records : List (Graph.Record α)) :
    ((tallies fields records).map (·.stratum.name)).Nodup := by
  have keys : (tallies fields records).map (·.stratum.name) =
      ((strata fields records).map Prod.fst).map Stratum.name := by
    rw [tallies, List.map_map, List.map_map]
    rfl
  rw [keys]
  apply List.Nodup.map
  · intro stratum other
    exact Stratum.name_inj.mp
  · exact (isGrouped_groupBy (stratumOf fields) records).distinct

end Balance

/-- Two graph files are in one stratum of a split just when their labels, their weaknesses and their
languages are the same, and no two strata of a balancing have one name. -/
theorem stratumText_tellsApart :
    (∀ (label label' : String) (cwe cwe' : Option Nat) (language language' : Option Language),
      Split.stratumText label cwe language = Split.stratumText label' cwe' language' ↔
        label = label' ∧ cwe = cwe' ∧ language = language') ∧
    (∀ (tree : Files.Tree) (path : Files.Path) (text : String),
      Split.readStratum tree path = .ok text ↔ ∃ label cwe language,
        Split.HasFields tree path label cwe language ∧
          Split.stratumText label cwe language = text) ∧
    (∀ (tree tree' : Files.Tree) (path path' : Files.Path) (label label' : String)
        (cwe cwe' : Option Nat) (language language' : Option Language),
      Split.HasFields tree path label cwe language →
        Split.HasFields tree' path' label' cwe' language' →
          (Split.readStratum tree path = Split.readStratum tree' path' ↔
            label = label' ∧ cwe = cwe' ∧ language = language')) ∧
    (∀ stratum other : Balance.Stratum, stratum.name = other.name ↔ stratum = other) ∧
    ∀ (α : Type) (fields : List Balance.StratumField) (records : List (Graph.Record α)),
      ((Balance.tallies fields records).map (·.stratum.name)).Nodup := by
  refine ⟨?_, ?_, ?_, ?_, ?_⟩
  · intro label label' cwe cwe' language language'
    exact Split.stratumText_inj
  · intro tree path text
    exact Split.readStratum_eq_ok
  · intro tree tree' path path' label label' cwe cwe' language language' fields fields'
    have read := Split.readStratum_eq_ok.mpr ⟨_, _, _, fields, rfl⟩
    have read' := Split.readStratum_eq_ok.mpr ⟨_, _, _, fields', rfl⟩
    rw [read, read', Except.ok.injEq, Split.stratumText_inj]
  · intro stratum other
    exact Balance.Stratum.name_inj
  · intro α fields records
    exact Balance.nodup_name_tallies fields records

/-- Two graph files, of which one has a label that looks like the text of the other. -/
def lookalikes : Files.Tree :=
  let plain := "\x7b\"label\": \"bad\", \"cwe\": 121, \"filePath\": \"t/a.c\"\x7d"
  let odd := "\x7b\"label\": \"bad:121:C\"\x7d"
  ⟨.directory [("a.json", .file plain.toUTF8), ("b.json", .file odd.toUTF8)], []⟩

theorem stratumText_tellsApart_lookalikes :
    Split.HasFields lookalikes "a.json" "bad" (some 121) (some .c) ∧
      Split.HasFields lookalikes "b.json" "bad:121:C" none none ∧
      Split.readStratum lookalikes "a.json" ≠ Split.readStratum lookalikes "b.json" := by
  have plain : Split.HasFields lookalikes "a.json" "bad" (some 121) (some .c) :=
    ⟨⟨"bad", some 121, some "t/a.c"⟩, by decide +kernel, rfl, rfl, by decide +kernel⟩
  have odd : Split.HasFields lookalikes "b.json" "bad:121:C" none none :=
    ⟨⟨"bad:121:C", none, none⟩, by decide +kernel, rfl, rfl, rfl⟩
  refine ⟨plain, odd, ?_⟩
  intro same
  obtain ⟨-, -, files, -⟩ := stratumText_tellsApart
  have labels := ((files _ _ _ _ _ _ _ _ _ _ plain odd).mp same).1
  exact absurd labels (by decide)

end DefectGraphs
