import DefectGraphs.Files.Tree
import Mathlib.Data.List.Basic

/-!
What is at a place after a node is set or removed at another: what was there before, unless one of
the two places lies in the other.
-/

namespace DefectGraphs.Files.Node

theorem lookup_cons (entry : String × Node) (rest : List (String × Node)) (name : String) :
    (entry :: rest).lookup name = if name = entry.1 then some entry.2 else rest.lookup name := by
  by_cases same : name = entry.1
  · subst same
    rw [List.lookup_cons_self, if_pos rfl]
  · rw [List.lookup_cons, beq_false_of_ne same, if_neg same]

theorem lookup_setEntry (name : String) (node : Node) (entries : List (String × Node))
    (other : String) :
    (setEntry name node entries).lookup other =
      if other = name then some node else entries.lookup other := by
  induction entries with
  | nil => rw [setEntry, lookup_cons]
  | cons entry rest induction =>
      rw [setEntry]
      by_cases here : entry.1 = name
      · rw [if_pos here, lookup_cons, lookup_cons, here]
        by_cases same : other = name <;> simp [same]
      · rw [if_neg here, lookup_cons, lookup_cons, induction]
        by_cases same : other = entry.1
        · simp [same, here]
        · simp [same]

theorem lookup_filter_ne (name : String) (entries : List (String × Node)) (other : String) :
    (entries.filter (·.1 != name)).lookup other =
      if other = name then none else entries.lookup other := by
  induction entries with
  | nil => simp
  | cons entry rest induction =>
      rw [lookup_cons]
      by_cases here : entry.1 = name
      · rw [List.filter_cons_of_neg (by simpa using here), induction, here]
        by_cases same : other = name <;> simp [same]
      · rw [List.filter_cons_of_pos (by simpa using here), lookup_cons, induction]
        by_cases same : other = entry.1
        · simp [same, here]
        · simp [same]

@[simp] theorem at?_nil (node : Node) : node.at? [] = some node := by
  rw [at?]

theorem at?_cons (node : Node) (name : String) (rest : List String) :
    node.at? (name :: rest) = (node.entries.lookup name).bind (·.at? rest) := by
  rw [at?]

theorem at?_append (node : Node) (location rest : List String) :
    node.at? (location ++ rest) = (node.at? location).bind (·.at? rest) := by
  induction location generalizing node with
  | nil => simp
  | cons name location induction =>
      rw [List.cons_append, at?_cons, at?_cons, Option.bind_assoc]
      simp only [induction]

def HasDirectory (node : Node) (location : List String) : Prop :=
  (node.at? location).any (!·.isFile) = true

theorem hasDirectory_iff {node : Node} {location : List String} :
    node.HasDirectory location ↔ ∃ entries, node.at? location = some (.directory entries) := by
  rw [HasDirectory]
  rcases node.at? location with _ | (content | entries) <;> simp [isFile]

theorem hasDirectory_nil (node : Node) : node.HasDirectory [] ↔ node.isFile = false := by
  simp [HasDirectory]

theorem hasDirectory_cons (node : Node) (name : String) (rest : List String) :
    node.HasDirectory (name :: rest) ↔
      ∃ child, node.entries.lookup name = some child ∧ child.HasDirectory rest := by
  rw [HasDirectory, at?_cons]
  cases node.entries.lookup name with
  | none => simp
  | some child => simp [HasDirectory]

/-- Only directories have anything in them. -/
theorem HasDirectory.of_append {node : Node} {location rest : List String}
    (directory : node.HasDirectory (location ++ rest)) : node.HasDirectory location := by
  unfold HasDirectory at directory ⊢
  rw [at?_append] at directory
  cases present : node.at? location with
  | none => simp [present] at directory
  | some found =>
      cases found with
      | directory => rfl
      | file content => cases rest <;> simp [present, at?_cons, entries, isFile] at directory

@[simp] theorem set_nil (node new : Node) : node.set new [] = new := by
  rw [set]

theorem set_cons (node new : Node) (name : String) (rest : List String) :
    node.set new (name :: rest) = .directory (setEntry name
      (((node.entries.lookup name).getD (.directory [])).set new rest) node.entries) := by
  rw [set]

theorem at?_set_append (node new : Node) (location rest : List String) :
    (node.set new location).at? (location ++ rest) = new.at? rest := by
  induction location generalizing node with
  | nil => simp
  | cons name location induction =>
      rw [set_cons, List.cons_append, at?_cons, entries, lookup_setEntry, if_pos rfl,
        Option.bind_some, induction]

theorem at?_set_of_apart (new : Node) {location other : List String} (node : Node)
    (above : ¬location <+: other) (below : ¬other <+: location) :
    (node.set new location).at? other = node.at? other := by
  induction location generalizing node other with
  | nil => exact absurd other.nil_prefix above
  | cons name location induction =>
      cases other with
      | nil => exact absurd (List.nil_prefix) below
      | cons first more =>
          rw [set_cons, at?_cons, at?_cons, entries, lookup_setEntry]
          by_cases same : first = name
          · subst same
            rw [if_pos rfl, Option.bind_some, induction]
            · cases node.entries.lookup first with
              | some child => rfl
              | none =>
                  cases more with
                  | nil => exact absurd (by simp) below
                  | cons => simp [at?_cons, entries]
            · simpa using above
            · simpa using below
          · rw [if_neg same]

theorem hasDirectory_set_of_above (new : Node) {location other : List String} (node : Node)
    (below : other <+: location) (proper : other ≠ location) :
    (node.set new location).HasDirectory other := by
  induction other generalizing node location with
  | nil =>
      cases location with
      | nil => exact absurd rfl proper
      | cons name rest => rw [set_cons, hasDirectory_nil, isFile]
  | cons first more induction =>
      cases location with
      | nil => simp at below
      | cons name rest =>
          obtain ⟨rfl, deeper⟩ := List.cons_prefix_cons.mp below
          have set := induction ((node.entries.lookup first).getD (.directory [])) deeper
            (by simpa using proper)
          rw [set_cons, hasDirectory_cons]
          exact ⟨_, by rw [entries, lookup_setEntry, if_pos rfl], set⟩

theorem erase_cons_cons (node : Node) (name second : String) (rest : List String) :
    node.erase (name :: second :: rest) =
      match node.entries.lookup name with
      | none => node
      | some child => .directory (setEntry name (child.erase (second :: rest)) node.entries) := by
  cases held : node.entries.lookup name <;> simp only [erase, held]

/-- What is seen at a place: a file with its content, or a directory. -/
inductive Item where
  | file (content : ByteArray)
  | directory

def item : Node → Item
  | .file content => .file content
  | .directory _ => .directory

def item? (node : Node) (location : List String) : Option Item :=
  (node.at? location).map item

@[simp] theorem item?_nil (node : Node) : node.item? [] = some node.item := by
  rw [item?, at?_nil, Option.map_some]

theorem item?_cons (node : Node) (name : String) (rest : List String) :
    node.item? (name :: rest) = (node.entries.lookup name).bind (·.item? rest) := by
  rw [item?, at?_cons, Option.map_bind]
  rfl

theorem item?_cons_of_entries {node : Node} (leaf : node.entries = []) (name : String)
    (rest : List String) : node.item? (name :: rest) = none := by
  rw [item?_cons, leaf]
  rfl

theorem item?_eq_file {node : Node} {location : List String} {content : ByteArray} :
    node.item? location = some (.file content) ↔ node.at? location = some (.file content) := by
  rw [item?]
  rcases node.at? location with _ | (found | entries) <;> simp [item]

theorem item?_eq_directory {node : Node} {location : List String} :
    node.item? location = some .directory ↔ node.HasDirectory location := by
  rw [item?, HasDirectory]
  rcases node.at? location with _ | (found | entries) <;> simp [item, isFile]

theorem item?_eq_none {node : Node} {location : List String} :
    node.item? location = none ↔ node.at? location = none :=
  Option.map_eq_none_iff

/-- Whatever has something in it is a directory. -/
theorem item?_nil_of_lookup {node child : Node} {name : String}
    (present : node.entries.lookup name = some child) : node.item? [] = some .directory := by
  cases node with
  | file content => cases present
  | directory entries => rw [item?_nil, item]

theorem item?_setEntry (node child : Node) (name first : String) (more : List String) :
    (directory (setEntry name child node.entries)).item? (first :: more) =
      if first = name then child.item? more else node.item? (first :: more) := by
  rw [item?_cons, entries, lookup_setEntry, item?_cons]
  split <;> rfl

theorem item?_filter_ne (node : Node) (name first : String) (more : List String) :
    (directory (node.entries.filter (·.1 != name))).item? (first :: more) =
      if first = name then none else node.item? (first :: more) := by
  rw [item?_cons, entries, lookup_filter_ne, item?_cons]
  split <;> rfl

theorem item?_cons_of_not_hasDirectory {node : Node} {name : String}
    (free : ¬node.HasDirectory [name]) (second : String) (more : List String) :
    node.item? (name :: second :: more) = none := by
  rw [item?_cons]
  cases present : node.entries.lookup name with
  | none => rfl
  | some child =>
      cases child with
      | file content => exact item?_cons_of_entries rfl second more
      | directory entries =>
          apply absurd _ free
          rw [hasDirectory_cons]
          exact ⟨_, present, (hasDirectory_nil _).mpr rfl⟩

/-- A leaf that is set in a directory, where no directory is, shows at its own place only. -/
theorem item?_set {new : Node} (leaf : new.entries = []) {directory : List String} {name : String}
    {node : Node} (above : node.HasDirectory directory)
    (free : ¬node.HasDirectory (directory ++ [name])) (other : List String) :
    (node.set new (directory ++ [name])).item? other =
      if other = directory ++ [name] then some new.item else node.item? other := by
  induction directory generalizing node other with
  | nil =>
      rw [List.nil_append, set_cons, set_nil]
      cases other with
      | nil =>
          rw [item?_eq_directory.mpr above, if_neg (by simp), item?_nil, item]
      | cons first more =>
          rw [item?_setEntry]
          by_cases same : first = name
          · subst same
            rw [if_pos rfl]
            cases more with
            | nil => simp
            | cons second more =>
                rw [item?_cons_of_entries leaf, if_neg (by simp),
                  item?_cons_of_not_hasDirectory free]
          · rw [if_neg same, if_neg (by simp [same])]
  | cons first directory induction =>
      obtain ⟨child, present, inside⟩ := (hasDirectory_cons node first directory).mp above
      rw [List.cons_append, set_cons, present, Option.getD_some]
      rw [List.cons_append, hasDirectory_cons] at free
      cases other with
      | nil =>
          rw [item?_nil_of_lookup present, if_neg (by simp), item?_nil, item]
      | cons second more =>
          rw [item?_setEntry]
          by_cases same : second = first
          · subst same
            rw [if_pos rfl, induction inside fun deeper => free ⟨child, present, deeper⟩,
              item?_cons, present, Option.bind_some]
            simp
          · rw [if_neg same, if_neg (by simp [same])]

/-- A file that is removed leaves everything else as it is. -/
theorem item?_erase {location : List String} {node : Node} {content : ByteArray}
    (file : node.item? location = some (.file content)) (inner : location ≠ [])
    (other : List String) :
    (node.erase location).item? other = if other = location then none else node.item? other := by
  induction location generalizing node other with
  | nil => exact absurd rfl inner
  | cons name rest induction =>
      rw [item?_cons] at file
      obtain ⟨child, present, below⟩ := Option.bind_eq_some_iff.mp file
      cases rest with
      | nil =>
          obtain rfl : child = .file content := by
            simpa using item?_eq_file.mp below
          rw [erase]
          cases other with
          | nil =>
              rw [item?_nil_of_lookup present, if_neg (by simp), item?_nil, item]
          | cons first more =>
              rw [item?_filter_ne]
              by_cases same : first = name
              · subst same
                rw [if_pos rfl]
                cases more with
                | nil => simp
                | cons second more =>
                    rw [if_neg (by simp), item?_cons, present, Option.bind_some,
                      item?_cons_of_entries rfl]
              · rw [if_neg same, if_neg (by simp [same])]
      | cons second rest =>
          rw [erase_cons_cons, present]
          cases other with
          | nil =>
              rw [item?_nil_of_lookup present, if_neg (by simp), item?_nil, item]
          | cons first more =>
              rw [item?_setEntry]
              by_cases same : first = name
              · subst same
                rw [if_pos rfl, induction below (List.cons_ne_nil _ _), item?_cons, present,
                  Option.bind_some]
                simp
              · rw [if_neg same, if_neg (by simp [same])]

/-- No directory is lost, and every file is as it was, or its content is one of the new ones. -/
structure Keeps (isNew : ByteArray → Prop) (before after : Node) : Prop where
  directory : ∀ location, before.HasDirectory location → after.HasDirectory location
  file : ∀ location content, after.at? location = some (.file content) →
    isNew content ∨ before.at? location = some (.file content)

namespace Keeps

variable {isNew : ByteArray → Prop} {first second third node : Node} {location : List String}

theorem refl (isNew : ByteArray → Prop) (node : Node) : Keeps isNew node node :=
  ⟨fun _ directory => directory, fun _ _ found => .inr found⟩

theorem trans (earlier : Keeps isNew first second) (later : Keeps isNew second third) :
    Keeps isNew first third where
  directory := fun location has => later.directory location (earlier.directory location has)
  file := by
    intro location content present
    rcases later.file location content present with new | old
    · exact .inl new
    · exact earlier.file location content old

/-- Something new where no directory is: all files in it have new contents. -/
theorem set {new : Node} (free : ¬node.HasDirectory location)
    (plain : ∀ rest content, new.at? rest = some (.file content) → isNew content) :
    Keeps isNew node (node.set new location) where
  directory := by
    intro other has
    by_cases above : location <+: other
    · obtain ⟨rest, rfl⟩ := above
      exact absurd has.of_append free
    · by_cases below : other <+: location
      · apply hasDirectory_set_of_above new node below
        rintro rfl
        exact above (List.prefix_refl _)
      · rw [HasDirectory, at?_set_of_apart new node above below]
        exact has
  file := by
    intro other content present
    by_cases above : location <+: other
    · obtain ⟨rest, rfl⟩ := above
      rw [at?_set_append] at present
      exact .inl (plain rest content present)
    · by_cases below : other <+: location
      · have directory := hasDirectory_set_of_above new node below (by
          rintro rfl
          exact above (List.prefix_refl _))
        simp [HasDirectory, present, isFile] at directory
      · rw [at?_set_of_apart new node above below] at present
        exact .inr present

theorem setFile {content : ByteArray} (free : ¬node.HasDirectory location) (new : isNew content) :
    Keeps isNew node (node.set (.file content) location) := by
  apply set free
  intro rest found present
  cases rest with
  | nil =>
      obtain rfl : content = found := by simpa using present
      exact new
  | cons => simp [at?_cons, entries] at present

theorem setDirectory (free : ¬node.HasDirectory location) :
    Keeps isNew node (node.set (.directory []) location) := by
  apply set free
  intro rest found present
  cases rest with
  | nil => simp at present
  | cons => simp [at?_cons, entries] at present

theorem erase {removed : ByteArray} (file : node.at? location = some (.file removed)) :
    Keeps isNew node (node.erase location) := by
  rcases eq_or_ne location [] with rfl | inner
  · rw [Node.erase]
    exact .refl isNew node
  · have erased := item?_erase (item?_eq_file.mpr file) inner
    constructor
    · intro other has
      rw [← item?_eq_directory, erased, if_neg, item?_eq_directory]
      · exact has
      · rintro rfl
        simp [HasDirectory, file, isFile] at has
    · intro other content present
      rw [← item?_eq_file, erased] at present
      split at present
      · cases present
      · exact .inr (item?_eq_file.mp present)

end Keeps

end DefectGraphs.Files.Node
