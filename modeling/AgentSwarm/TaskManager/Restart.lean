import AgentSwarm.TaskManager.Manager
import AgentSwarm.Lib.Run

/-!
# What a restart of the task manager loses

The store is a write-through copy of the tasks in memory, so a fresh manager
over it should stand in for the old one.  It does not: `update_status` and
`complete_task` save a whole row without the user message and with a new time
of creation, and `get_artifacts_dir` and `create_artifact_zip` look in memory
only.

* `Op`, `apply`, `run` — the calls, and a sequence of them.
* `RestartTransparent` — a fresh manager gives the same reports, the same order
  and the same look-ups.
* `restartTransparent_iff` — it does so exactly for the sequences that create
  no task: every task that was created loses its artifacts directory.
* `Kept`, `kept_run` — what does survive, in every sequence of calls: tenant,
  status, result and artifacts, and the user message unless it is lost.
* `restart_loses_message` — the message after a single status change.
-/

namespace AgentSwarm
namespace Tasks

variable {join : Path → String → Path} {base : Path} {store : TaskTable}

/-- A call on the manager, or a reassignment on the task object. -/
inductive Op where
  | createTask (taskId userMessage tenantId : String) (now saved : ℕ)
  | assign (taskId sessionId : String) (workDir : Path)
  | updateStatus (taskId : String) (status : TaskStatus) (now saved : ℕ)
  | completeTask (taskId result : String) (files : List String) (now saved now' saved' : ℕ)
  | failTask (taskId error : String) (now saved : ℕ)

/-- The operation creates a task. -/
def Op.Creates : Op → Prop
  | .createTask .. => True
  | _ => False

/-- One call. -/
def apply (join : Path → String → Path) (m : TaskManager) : Op → TaskManager
  | .createTask id msg tenant now saved => m.createTask join id msg tenant now saved
  | .assign id sess dir => m.assign id sess dir
  | .updateStatus id status now saved => m.updateStatus id status now saved
  | .completeTask id result files now saved now' saved' =>
      m.completeTask id result files now saved now' saved'
  | .failTask id error now saved => m.failTask id error now saved

/-- A sequence of calls on a manager that has just been built. -/
def run (join : Path → String → Path) (base : Path) (store : TaskTable) (ops : List Op) :
    TaskManager :=
  ops.foldl (apply join) (start base store)

/-- What the manager reports of a task. -/
structure Report where
  tenantId : String
  userMessage : String
  sessionId : Option String
  status : TaskStatus
  result : Option String
  artifacts : List String
  workDir : Option Path
  deriving DecidableEq

/-- The reported fields of a task. -/
def Task.report (task : Task) : Report where
  tenantId := task.tenantId
  userMessage := task.userMessage
  sessionId := task.sessionId
  status := task.status
  result := task.result
  artifacts := task.artifacts
  workDir := task.workDir

/-- A fresh manager over the same store cannot be told from the old one. -/
structure RestartTransparent (join : Path → String → Path) (m : TaskManager) : Prop where
  reports : ∀ id, (m.restart.getTask id).1.map Task.report = (m.getTask id).1.map Task.report
  order : ∀ tenantId,
    (m.restart.listTasks tenantId).map Task.taskId = (m.listTasks tenantId).map Task.taskId
  artifactsDir : ∀ id, (m.getArtifactsDir id).isSome → (m.restart.getArtifactsDir id).isSome
  artifactZip : ∀ id,
    (m.createArtifactZip join id).isSome → (m.restart.createArtifactZip join id).isSome

/-! ## What one call keeps -/

/-- The row holds the task, up to its session, its work directory, its times
and the loss of the user message. -/
structure KeptIn (task : Task) (row : TaskRow) : Prop where
  tenantId : row.tenantId = task.tenantId
  status : row.status = task.status
  result : row.result = task.result
  artifacts : row.artifacts = task.artifacts
  userMessage : row.userMessage = task.userMessage ∨ row.userMessage = ""

/-- Every task in memory has a work directory and a row that keeps it. -/
def Kept (m : TaskManager) : Prop :=
  ∀ id task, m.tasks.get id = some task →
    task.workDir.isSome ∧ ∃ row, m.store.get id = some row ∧ KeptIn task row

theorem keptIn_row (task : Task) (saved : ℕ) : KeptIn task (task.row saved) :=
  ⟨rfl, rfl, rfl, rfl, .inr rfl⟩

variable (join) in
/-- **What one call does.**  It changes nothing, or it leaves one task in memory
with a row that keeps it; the task was there before or is created by the call. -/
theorem apply_cases {m : TaskManager} (h : Kept m) (op : Op) :
    (apply join m op = m ∧ ¬ op.Creates) ∨
      ∃ id task row, Wrote m id task (some row) (apply join m op) ∧ task.workDir.isSome ∧
        KeptIn task row ∧ ((m.tasks.get id).isSome ∨ op.Creates) := by
  cases op with
  | createTask id msg tenant now saved =>
      obtain ⟨workDir, hw⟩ := createTask_wrote join m id msg tenant now saved
      exact .inr ⟨id, _, _, hw, rfl, ⟨rfl, rfl, rfl, rfl, .inl rfl⟩, .inr trivial⟩
  | assign id sess dir =>
      cases htask : m.tasks.get id with
      | none => exact .inl ⟨assign_of_not_mem htask sess dir, fun h => h⟩
      | some task =>
          obtain ⟨-, row, hrow, hkept⟩ := h id task htask
          have hmem : (m.tasks.get id).isSome := by rw [htask]; rfl
          have hw := assign_wrote htask sess dir
          rw [hrow] at hw
          exact .inr ⟨id, _, row, hw, rfl, ⟨hkept.1, hkept.2, hkept.3, hkept.4, hkept.5⟩, .inl hmem⟩
  | updateStatus id status now saved =>
      cases htask : m.tasks.get id with
      | none => exact .inl ⟨updateStatus_of_not_mem htask status now saved, fun h => h⟩
      | some task =>
          have hmem : (m.tasks.get id).isSome := by rw [htask]; rfl
          have hw := updateStatus_wrote htask status now saved
          exact .inr ⟨id, _, _, hw, (h id task htask).1, keptIn_row _ saved, .inl hmem⟩
  | completeTask id result files now saved now' saved' =>
      cases htask : m.tasks.get id with
      | none => exact .inl ⟨completeTask_of_not_mem htask result files now saved now' saved', fun h => h⟩
      | some task =>
          have hmem : (m.tasks.get id).isSome := by rw [htask]; rfl
          have hw := completeTask_wrote htask result files now saved now' saved'
          exact .inr ⟨id, _, _, hw, (h id task htask).1, ⟨rfl, rfl, rfl, rfl, .inr rfl⟩, .inl hmem⟩
  | failTask id error now saved =>
      cases htask : m.tasks.get id with
      | none => exact .inl ⟨failTask_of_not_mem htask error now saved, fun h => h⟩
      | some task =>
          have hmem : (m.tasks.get id).isSome := by rw [htask]; rfl
          have hw := failTask_wrote htask error now saved
          exact .inr ⟨id, _, _, hw, (h id task htask).1, keptIn_row _ saved, .inl hmem⟩

/-- **One step.**  Every call keeps the row of every task a copy of the task. -/
theorem kept_apply {m : TaskManager} (h : Kept m) (op : Op) : Kept (apply join m op) := by
  rcases apply_cases join h op with ⟨hsame, -⟩ | ⟨id, task, row, hw, hdir, hrow, -⟩
  · exact hsame.symm ▸ h
  · intro j task' hj
    rw [hw.tasks] at hj
    rw [hw.store]
    split at hj
    · rename_i hid
      cases hj
      exact ⟨hdir, row, by simp [hid], hrow⟩
    · rename_i hid
      simpa [hid] using h j task' hj

/-- A task never leaves the memory. -/
theorem isSome_apply {m : TaskManager} (h : Kept m) (op : Op) {j : String}
    (hj : (m.tasks.get j).isSome) : ((apply join m op).tasks.get j).isSome := by
  rcases apply_cases join h op with ⟨hsame, -⟩ | ⟨id, task, row, hw, -⟩
  · exact hsame.symm ▸ hj
  · rw [hw.tasks]
    split
    · rfl
    · exact hj

/-! ## Whole sequences of calls -/

theorem kept_start : Kept (start base store) := by
  intro id task h
  simp [start] at h

/-- **What survives a restart**, in every sequence of calls: a task in memory
has a row with its tenant, status, result and artifacts; the user message is
the task's or is lost. -/
theorem kept_run (ops : List Op) : Kept (run join base store ops) := by
  refine List.foldlRecOn ops (apply join) kept_start ?_
  intro m h op _
  exact kept_apply h op

theorem run_append (as bs : List Op) :
    run join base store (as ++ bs) = bs.foldl (apply join) (run join base store as) :=
  List.foldl_append

/-- A task that was created stays in memory. -/
theorem isSome_run_of_creates {ops : List Op} {op : Op} (hop : op ∈ ops) (h : op.Creates) :
    ∃ id, ((run join base store ops).tasks.get id).isSome := by
  obtain ⟨as, bs, rfl⟩ := List.append_of_mem hop
  cases op with
  | createTask id msg tenant now saved =>
      obtain ⟨workDir, hw⟩ :=
        createTask_wrote join (run join base store as) id msg tenant now saved
      have hkept : Kept (apply join (run join base store as)
          (.createTask id msg tenant now saved)) := kept_apply (kept_run as) _
      refine ⟨id, ?_⟩
      rw [run_append, List.foldl_cons]
      have hrest := List.foldlRecOn bs (apply join)
        (motive := fun m => Kept m ∧ (m.tasks.get id).isSome)
        ⟨hkept, by simp [apply, hw.tasks]⟩
        fun m h op _ => ⟨kept_apply h.1 op, isSome_apply h.1 op h.2⟩
      exact hrest.2
  | _ => exact absurd h id

/-- Without a creation the memory stays empty and the store as it was. -/
theorem run_of_not_creates {ops : List Op} (h : ∀ op ∈ ops, ¬ op.Creates) :
    run join base store ops = start base store := by
  refine List.foldlRecOn ops (apply join) (motive := fun m => m = start base store) rfl ?_
  rintro m rfl op hop
  have hstart : Kept (start base store) := kept_start
  rcases apply_cases join hstart op with ⟨hsame, -⟩ | ⟨id, task, row, -, -, -, hmem | hcreates⟩
  · exact hsame
  · simp [start] at hmem
  · exact absurd hcreates (h op hop)

/-- **A restart is transparent exactly when no task was ever created.**  Once
one was, the old manager finds its artifacts directory and a fresh one does
not. -/
theorem restartTransparent_iff (join : Path → String → Path) (base : Path) (store : TaskTable)
    (ops : List Op) :
    RestartTransparent join (run join base store ops) ↔ ∀ op ∈ ops, ¬ op.Creates := by
  constructor
  · intro htrans op hop hcreates
    obtain ⟨id, hid⟩ : ∃ id, ((run join base store ops).tasks.get id).isSome :=
      isSome_run_of_creates hop hcreates
    obtain ⟨task, htask⟩ := Option.isSome_iff_exists.1 hid
    have hdir := (kept_run ops id task htask).1
    have hfound : ((run join base store ops).getArtifactsDir id).isSome := by
      simpa [TaskManager.getArtifactsDir, htask] using hdir
    simpa using htrans.artifactsDir id hfound
  · intro h
    rw [run_of_not_creates h]
    exact ⟨fun _ => rfl, fun _ => rfl, fun _ => id, fun _ => id⟩

/-! ## The user message -/

/-- **The message does not survive a status change.**  After `update_status` on
a task in memory a fresh manager finds the task with the empty message. -/
theorem restart_loses_message {m : TaskManager} {id : String} {task : Task}
    (h : m.tasks.get id = some task) (status : TaskStatus) (now saved : ℕ) :
    (((m.updateStatus id status now saved).restart.getTask id).1.map Task.report) =
      some { (task.setStatus status now).report with userMessage := "" } := by
  rw [restart_getTask, (updateStatus_wrote h status now saved).store, if_pos rfl]
  simp [taskFromDict, Task.row, Task.report]

/-- `/` on POSIX paths, for a name that is not absolute. -/
def slash (p : Path) (name : String) : Path where
  str := p.str ++ "/" ++ name
  nonempty := by simp

/-- **A task that ran has lost its message.**  One task is created and set
running; after the restart its message is empty. -/
theorem restart_not_transparent :
    ¬ RestartTransparent slash (run slash ⟨"/data", by decide⟩ []
      [.createTask "3f2a91bc" "build a shop" "acme" 10 11,
       .updateStatus "3f2a91bc" .running 12 13]) := by
  intro h
  exact absurd (h.reports "3f2a91bc") (by decide)

end Tasks
end AgentSwarm
