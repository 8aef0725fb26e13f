import DefectGraphs.Proofs.Files.Items
import DefectGraphs.Workspace

/-!
What work does to a workspace: the value that it gives and the workspace that it leaves when it
succeeds, and the files that it keeps whether it succeeds or not.
-/

namespace DefectGraphs

/-- Steps on a workspace succeed when the first does and the others do from where it leads. -/
theorem Workspace.bind_eq_ok {ε α β : Type} {work : ExceptT ε (StateM Workspace) α}
    {next : α → ExceptT ε (StateM Workspace) β} {before after : Workspace} {result : β} :
    (work >>= next).run.run before = (.ok result, after) ↔
      ∃ value middle, work.run.run before = (.ok value, middle) ∧
        (next value).run.run middle = (.ok result, after) := by
  rw [ExceptT.run_bind, StateT.run_bind]
  rcases work.run.run before with ⟨failure | value, middle⟩
  · constructor
    · intro same
      cases same
    · rintro ⟨_, _, same, -⟩
      cases same
  · constructor
    · intro same
      exact ⟨value, middle, rfl, same⟩
    · rintro ⟨_, _, same, rest⟩
      cases same
      exact rest

theorem Workspace.pure_eq_ok {ε α : Type} {before after : Workspace} {value result : α} :
    (pure value : ExceptT ε (StateM Workspace) α).run.run before = (.ok result, after) ↔
      value = result ∧ before = after := by
  constructor
  · intro gives
    cases gives
    exact ⟨rfl, rfl⟩
  · rintro ⟨rfl, rfl⟩
    rfl

namespace Work

/-- The work succeeds with a value and leaves a workspace. -/
def Gives (work : Work α) (before : Workspace) (value : α) (after : Workspace) : Prop :=
  work.run.run before = (.ok value, after)

theorem gives_of_fst_eq {work : Work α} {before : Workspace} {value : α}
    (given : (work.run.run before).1 = .ok value) :
    work.Gives before value (work.run.run before).2 :=
  Prod.ext given rfl

theorem run_bind (work : Work α) (next : α → Work β) (before : Workspace) :
    (work >>= next).run.run before =
      match work.run.run before with
      | (.error failure, after) => (.error failure, after)
      | (.ok value, after) => (next value).run.run after := by
  rw [ExceptT.run_bind, StateT.run_bind]
  rcases work.run.run before with ⟨_ | _, _⟩ <;> rfl

theorem run_tree (before : Workspace) : tree.run.run before = (.ok before.tree, before) := rfl

theorem run_note (notice : Notice) (before : Workspace) : (note notice).run.run before =
    (.ok (), { before with notices := before.notices ++ [notice] }) := rfl

theorem run_ofExcept (outcome : Except Failure α) (before : Workspace) :
    (ofExcept outcome).run.run before = (outcome, before) := by
  cases outcome <;> rfl

theorem run_change (path : Files.Path) (update : Files.Tree → Except Files.Fault Files.Tree)
    (before : Workspace) :
    (change path update).run.run before =
      match update before.tree with
      | .ok changed => (.ok (), { before with tree := changed })
      | .error fault => (.error (.io path fault), before) := by
  simp only [change, run_bind, run_tree]
  cases update before.tree <;> rfl

theorem run_makeDirectories (path : Files.Path) (before : Workspace) :
    (makeDirectories path).run.run before =
      ((before.tree.makeDirectories path).1.mapError (.io path),
        { before with tree := (before.tree.makeDirectories path).2 }) := by
  simp only [makeDirectories, run_bind, run_tree]
  exact run_ofExcept _ _

theorem gives_bind {work : Work α} {next : α → Work β} {before after : Workspace} {result : β} :
    (work >>= next).Gives before result after ↔
      ∃ value middle, work.Gives before value middle ∧ (next value).Gives middle result after :=
  Workspace.bind_eq_ok

theorem gives_pure {value result : α} {before after : Workspace} :
    (pure value : Work α).Gives before result after ↔ value = result ∧ before = after :=
  Workspace.pure_eq_ok

theorem gives_throw {failure : Failure} {before after : Workspace} {result : α} :
    ¬(throw failure : Work α).Gives before result after := by
  intro gives
  cases gives

theorem gives_guard {condition : Prop} [Decidable condition] {failure : Failure}
    {next : β → Work α} {rest : Work α} {before after : Workspace} {result : α} :
    (if condition then throw failure >>= next else rest).Gives before result after ↔
      ¬condition ∧ rest.Gives before result after := by
  by_cases holds : condition
  · rw [if_pos holds, gives_bind]
    simp [holds, gives_throw]
  · simp [holds]

theorem gives_tree {before after : Workspace} {result : Files.Tree} :
    tree.Gives before result after ↔ before.tree = result ∧ before = after := by
  constructor
  · intro gives
    cases gives
    exact ⟨rfl, rfl⟩
  · rintro ⟨rfl, rfl⟩
    rfl

theorem gives_modify {update : Workspace → Workspace} {before after : Workspace} {result : Unit} :
    (modify update : Work Unit).Gives before result after ↔ after = update before := by
  constructor
  · intro gives
    cases gives
    rfl
  · rintro rfl
    rfl

theorem gives_note {notice : Notice} {before after : Workspace} {result : Unit} :
    (note notice).Gives before result after ↔
      after = { before with notices := before.notices ++ [notice] } :=
  gives_modify

theorem gives_ofExcept {outcome : Except Failure α} {before after : Workspace} {result : α} :
    (ofExcept outcome).Gives before result after ↔ outcome = .ok result ∧ before = after := by
  cases outcome with
  | error failure => simp [ofExcept, gives_throw]
  | ok value => simp [ofExcept, gives_pure]

theorem gives_change {path : Files.Path} {update : Files.Tree → Except Files.Fault Files.Tree}
    {before after : Workspace} {result : Unit} :
    (change path update).Gives before result after ↔
      ∃ changed, update before.tree = .ok changed ∧ after = { before with tree := changed } := by
  rw [Gives, run_change]
  cases update before.tree with
  | error fault =>
      constructor
      · intro same
        cases same
      · rintro ⟨_, same, -⟩
        cases same
  | ok changed =>
      constructor
      · intro same
        cases same
        exact ⟨changed, rfl, rfl⟩
      · rintro ⟨_, same, rfl⟩
        cases same
        rfl

/-- Whether or not the work succeeds, the only new files have contents of one kind. -/
def Keeps (isNew : ByteArray → Prop) (work : Work α) (before : Workspace) : Prop :=
  Files.Tree.Keeps isNew before.tree (work.run.run before).2.tree

section Keeps

variable {isNew : ByteArray → Prop} {before : Workspace}

theorem keeps_bind {work : Work α} {next : α → Work β} (first : Keeps isNew work before)
    (rest : ∀ value middle, work.Gives before value middle → Keeps isNew (next value) middle) :
    Keeps isNew (work >>= next) before := by
  unfold Keeps at first rest ⊢
  rw [run_bind]
  rcases ran : work.run.run before with ⟨failure | value, middle⟩
  · rwa [ran] at first
  · rw [ran] at first
    exact first.trans (rest value middle ran)

theorem keeps_pure (value : α) : Keeps isNew (pure value) before :=
  .refl isNew before.tree

theorem keeps_throw (failure : Failure) : Keeps isNew (throw failure : Work α) before :=
  .refl isNew before.tree

theorem keeps_tree : Keeps isNew tree before :=
  .refl isNew before.tree

theorem keeps_ofExcept (outcome : Except Failure α) : Keeps isNew (ofExcept outcome) before := by
  cases outcome with
  | error failure => exact keeps_throw failure
  | ok value => exact keeps_pure value

end Keeps

end Work

end DefectGraphs
