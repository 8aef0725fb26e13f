import DefectGraphs.Command.Report
import DefectGraphs.Proofs.Workspace

/-!
What a command's job gives when it succeeds, and the workspace that it leaves.
-/

namespace DefectGraphs.Command.Job

/-- The job succeeds with a value and leaves a workspace. -/
def Gives (job : Job α) (before : Workspace) (value : α) (after : Workspace) : Prop :=
  job.run.run before = (.ok value, after)

variable {before after : Workspace}

theorem exists_gives_of_isOk {job : Job α} (succeeds : (job.run.run before).1.isOk = true) :
    ∃ value after, job.Gives before value after := by
  obtain ⟨value, given⟩ := exists_of_isOk succeeds
  exact ⟨value, (job.run.run before).2, Prod.ext given rfl⟩

theorem exists_gives_of_toOption {job : Job α} {value : α}
    (given : (job.run.run before).1.toOption = some value) :
    ∃ after, job.Gives before value after :=
  ⟨(job.run.run before).2, Prod.ext (toOption_eq_some.mp given) rfl⟩

theorem gives_bind {job : Job α} {next : α → Job β} {result : β} :
    (job >>= next).Gives before result after ↔
      ∃ value middle, job.Gives before value middle ∧ (next value).Gives middle result after :=
  Workspace.bind_eq_ok

theorem gives_pure {value result : α} :
    (pure value : Job α).Gives before result after ↔ value = result ∧ before = after :=
  Workspace.pure_eq_ok

/-- Work on the files cannot fail where it is not said to. -/
theorem gives_liftM {work : StateM Workspace α} {result : α} :
    (liftM work : Job α).Gives before result after ↔ work.run before = (result, after) := by
  constructor
  · intro gives
    cases gives
    rfl
  · intro gives
    exact congrArg (fun done : α × Workspace => ((.ok done.1 : Except Complaint α), done.2)) gives

theorem gives_tree {result : Files.Tree} :
    tree.Gives before result after ↔ before.tree = result ∧ before = after := by
  constructor
  · intro gives
    cases gives
    exact ⟨rfl, rfl⟩
  · intro same
    obtain ⟨rfl, rfl⟩ := same
    rfl

/-- How a failure is told does not matter where there is none. -/
theorem gives_adapt {tell : Failure → Complaint} {work : Work α} {result : α} :
    Job.Gives (ExceptT.adapt tell work) before result after ↔ work.Gives before result after := by
  have ran : (ExceptT.adapt tell work).run.run before =
      ((work.run.run before).1.mapError tell, (work.run.run before).2) := rfl
  unfold Gives Work.Gives
  rw [ran]
  rcases work.run.run before with ⟨failure | value, middle⟩
  · constructor <;> intro same <;> cases same
  · constructor <;> intro same <;> cases same <;> rfl

end DefectGraphs.Command.Job
