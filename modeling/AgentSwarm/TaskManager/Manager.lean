import Mathlib.Data.List.Sort
import AgentSwarm.Lib.Dict

/-!
# The task manager over its SQLite store

`TaskManager` keeps the tasks of this process in a dictionary and writes every
change through to the table `tasks`.  After a restart the dictionary is empty
and the table is all there is.

* `TaskStatus`, `Task`, `TaskRow` — the status enumeration, a task in memory,
  and a row of the table.
* `TaskManager` — the dictionary and the table.
* `createTask`, `updateStatus`, `completeTask`, `failTask` — the writers, and
  `assign`, the reassignment the chat route makes on the task object.
* `getTask`, `listTasks`, `getArtifactsDir`, `createArtifactZip` — the readers.
* `restart` — a fresh manager over the same store.

A clock reading a call makes is an argument of its model; so are the task id
that `uuid4` gives and the files found under a work directory.  The subscribers
of a task are left out: no field of a task depends on them.
-/

namespace AgentSwarm

/-- `TaskStatus` of the API models. -/
inductive TaskStatus where
  | created
  | running
  | completed
  | failed
  | cancelled
  deriving DecidableEq, Repr

/-- The statuses at which `update_status` sets `completed_at`. -/
def TaskStatus.Terminal (status : TaskStatus) : Prop :=
  status = .completed ∨ status = .failed ∨ status = .cancelled

instance (status : TaskStatus) : Decidable status.Terminal :=
  inferInstanceAs (Decidable (_ ∨ _ ∨ _))

namespace Tasks

/-- A `pathlib.Path`, by its text.  The text of a path is never empty: that of
`Path("")` is `"."`. -/
structure Path where
  str : String
  nonempty : str ≠ ""
  deriving DecidableEq

/-- `Path(text) if text else None`, for the text of a path. -/
def Path.ofText (text : Option String) : Option Path :=
  text.bind fun str => if h : str ≠ "" then some ⟨str, h⟩ else none

@[simp] theorem Path.ofText_str (p : Option Path) : Path.ofText (p.map Path.str) = p := by
  cases p with
  | none => rfl
  | some p => simp [ofText, p.nonempty]

/-- A task in memory. -/
structure Task where
  taskId : String
  tenantId : String
  userMessage : String
  status : TaskStatus := .created
  result : Option String := none
  artifacts : List String := []
  createdAt : ℕ
  completedAt : Option ℕ := none
  workDir : Option Path := none
  sessionId : Option String := none
  deriving DecidableEq

/-- A row of `tasks`, less its primary key.  The defaults are those of the
keyword arguments of `save_task`; no caller passes a `created_at`, so that
column always gets the clock reading made inside `save_task`. -/
structure TaskRow where
  tenantId : String := "default"
  sessionId : Option String := none
  userMessage : String := ""
  status : TaskStatus := .created
  result : Option String := none
  artifacts : List String := []
  workDir : Option String := none
  createdAt : ℕ
  completedAt : Option ℕ := none
  deriving DecidableEq

/-- The table `tasks`. -/
abbrev TaskTable := Dict String TaskRow

/-- A manager with its store. -/
structure TaskManager where
  sharedOutputBase : Path
  tasks : Dict String Task
  store : TaskTable

/-- A manager that has just been built over a store. -/
def start (sharedOutputBase : Path) (store : TaskTable) : TaskManager :=
  ⟨sharedOutputBase, [], store⟩

/-- The process ends and a fresh manager is built over the same store. -/
def TaskManager.restart (m : TaskManager) : TaskManager := start m.sharedOutputBase m.store

/-! ## The writers -/

/-- `create_task`.  `join` is the operator `/` of `pathlib`; `now` is read when
the task is built, `saved` when its row is. -/
def TaskManager.createTask (join : Path → String → Path) (m : TaskManager)
    (taskId userMessage tenantId : String) (now saved : ℕ) : TaskManager :=
  let workDir := join (join (join (join m.sharedOutputBase "tenants") tenantId) "tasks") taskId
  let task : Task := {
    taskId := taskId, tenantId := tenantId, userMessage := userMessage
    createdAt := now, workDir := some workDir }
  { m with
    tasks := m.tasks.set taskId task
    store := m.store.replace taskId {
      tenantId := tenantId, userMessage := userMessage, status := .created
      workDir := some workDir.str, createdAt := saved } }

/-- The arguments with which `update_status` and `complete_task` call
`save_task`: all but the user message and the time of creation. -/
def Task.row (task : Task) (saved : ℕ) : TaskRow where
  tenantId := task.tenantId
  sessionId := task.sessionId
  status := task.status
  result := task.result
  artifacts := task.artifacts
  workDir := task.workDir.map Path.str
  createdAt := saved
  completedAt := task.completedAt

/-- What `update_status` does to the task object. -/
def Task.setStatus (task : Task) (status : TaskStatus) (now : ℕ) : Task :=
  { task with
    status := status
    completedAt := if status.Terminal then some now else task.completedAt }

/-- `update_status`; a task that is not in memory is left alone. -/
def TaskManager.updateStatus (m : TaskManager) (taskId : String) (status : TaskStatus)
    (now saved : ℕ) : TaskManager :=
  match m.tasks.get taskId with
  | none => m
  | some task =>
      let task := task.setStatus status now
      { m with
        tasks := m.tasks.set taskId task
        store := m.store.replace taskId (task.row saved) }

/-- `complete_task`.  `files` are the paths the walk over the work directory
appends to the artifacts.  The row is saved twice, the second time with a
`completed_at` of its own. -/
def TaskManager.completeTask (m : TaskManager) (taskId result : String) (files : List String)
    (now saved now' saved' : ℕ) : TaskManager :=
  match m.tasks.get taskId with
  | none => m
  | some task =>
      let task := { task with result := some result, artifacts := task.artifacts ++ files }
      let m := { m with tasks := m.tasks.set taskId task }.updateStatus taskId .completed now saved
      { m with
        store := m.store.replace taskId
          { task.row saved' with status := .completed, completedAt := some now' } }

/-- `fail_task`. -/
def TaskManager.failTask (m : TaskManager) (taskId error : String) (now saved : ℕ) : TaskManager :=
  match m.tasks.get taskId with
  | none => m
  | some task =>
      { m with tasks := m.tasks.set taskId { task with result := some error } }.updateStatus
        taskId .failed now saved

/-- `task.session_id = …; task.work_dir = …`, as the chat route does between
`create_task` and the next `update_status`. -/
def TaskManager.assign (m : TaskManager) (taskId sessionId : String) (workDir : Path) :
    TaskManager :=
  match m.tasks.get taskId with
  | none => m
  | some task =>
      { m with
        tasks := m.tasks.set taskId
          { task with sessionId := some sessionId, workDir := some workDir } }

/-! ## The readers -/

/-- `_task_from_dict`. -/
def taskFromDict (taskId : String) (row : TaskRow) : Task where
  taskId := taskId
  tenantId := row.tenantId
  userMessage := row.userMessage
  status := row.status
  result := row.result
  artifacts := row.artifacts
  createdAt := row.createdAt
  completedAt := row.completedAt
  workDir := Path.ofText row.workDir
  sessionId := row.sessionId

/-- `get_task`: the task, and the manager that now has it in memory. -/
def TaskManager.getTask (m : TaskManager) (taskId : String) : Option Task × TaskManager :=
  match m.tasks.get taskId with
  | some task => (some task, m)
  | none =>
      match m.store.get taskId with
      | none => (none, m)
      | some row =>
          let task := taskFromDict taskId row
          (some task, { m with tasks := m.tasks.set taskId task })

/-- The test `if tenant_id:` of the two `list_tasks`; an empty id is no filter. -/
def tenantFilter (tenantId : Option String) : Option String := tenantId.filter (· ≠ "")

/-- `SQLiteStore.list_tasks`: the rows of the tenant, the latest first. -/
def listRows (store : TaskTable) (tenantId : Option String) : List (String × TaskRow) :=
  let rows := match tenantFilter tenantId with
    | none => store
    | some tenant => store.filter fun p => p.2.tenantId = tenant
  rows.mergeSort fun p q => q.2.createdAt ≤ p.2.createdAt

/-- The rows of the store whose task is not in memory join the tasks that are. -/
def mergeRows (tasks : Dict String Task) : List (String × TaskRow) → Dict String Task
  | [] => tasks
  | (taskId, row) :: rows => mergeRows (tasks.setDefault taskId (taskFromDict taskId row)) rows

/-- `list_tasks`. -/
def TaskManager.listTasks (m : TaskManager) (tenantId : Option String) : List Task :=
  let tasks := (mergeRows m.tasks (listRows m.store tenantId)).map Prod.snd
  let tasks := match tenantFilter tenantId with
    | none => tasks
    | some tenant => tasks.filter fun task => task.tenantId = tenant
  tasks.mergeSort fun s t => t.createdAt ≤ s.createdAt

/-- `get_artifacts_dir`. -/
def TaskManager.getArtifactsDir (m : TaskManager) (taskId : String) : Option Path :=
  (m.tasks.get taskId).bind Task.workDir

/-- `create_artifact_zip`, by the path it returns. -/
def TaskManager.createArtifactZip (join : Path → String → Path) (m : TaskManager)
    (taskId : String) : Option String :=
  (m.getArtifactsDir taskId).map fun workDir => (join workDir (taskId ++ "_artifacts.zip")).str

/-! ## What the writers leave -/

variable {m : TaskManager} {id : String}

/-- What a fresh manager finds under an id. -/
theorem restart_getTask (m : TaskManager) (id : String) :
    (m.restart.getTask id).1 = (m.store.get id).map (taskFromDict id) := by
  cases h : m.store.get id <;> simp [TaskManager.restart, start, TaskManager.getTask, h]

@[simp] theorem restart_getArtifactsDir (m : TaskManager) (id : String) :
    m.restart.getArtifactsDir id = none := rfl

/-! ### Calls on an id that is not in memory -/

theorem updateStatus_of_not_mem (h : m.tasks.get id = none) (status : TaskStatus)
    (now saved : ℕ) : m.updateStatus id status now saved = m := by
  simp [TaskManager.updateStatus, h]

theorem completeTask_of_not_mem (h : m.tasks.get id = none) (result : String)
    (files : List String) (now saved now' saved' : ℕ) :
    m.completeTask id result files now saved now' saved' = m := by
  simp [TaskManager.completeTask, h]

theorem failTask_of_not_mem (h : m.tasks.get id = none) (error : String)
    (now saved : ℕ) : m.failTask id error now saved = m := by
  simp [TaskManager.failTask, h]

theorem assign_of_not_mem (h : m.tasks.get id = none) (sessionId : String)
    (workDir : Path) : m.assign id sessionId workDir = m := by
  simp [TaskManager.assign, h]

/-! ### Calls on a task in memory -/

/-- `m'` is `m` after a call that leaves `task` in memory and `row` in the table
under `id`, and every other id as it was. -/
structure Wrote (m : TaskManager) (id : String) (task : Task) (row : Option TaskRow)
    (m' : TaskManager) : Prop where
  tasks : ∀ j, m'.tasks.get j = if j = id then some task else m.tasks.get j
  store : ∀ j, m'.store.get j = if j = id then row else m.store.get j

variable {task : Task}

theorem createTask_wrote (join : Path → String → Path) (m : TaskManager)
    (id userMessage tenantId : String) (now saved : ℕ) :
    ∃ workDir, Wrote m id
      { taskId := id, tenantId := tenantId, userMessage := userMessage, createdAt := now
        workDir := some workDir }
      (some { tenantId := tenantId, userMessage := userMessage, workDir := some workDir.str
              createdAt := saved })
      (m.createTask join id userMessage tenantId now saved) :=
  ⟨_, fun j => Dict.get_set _ _ _ j, fun j => Dict.get_replace _ _ _ j⟩

theorem updateStatus_wrote (h : m.tasks.get id = some task) (status : TaskStatus)
    (now saved : ℕ) :
    Wrote m id (task.setStatus status now) (some ((task.setStatus status now).row saved))
      (m.updateStatus id status now saved) := by
  rw [TaskManager.updateStatus, h]
  exact ⟨fun j => Dict.get_set _ _ _ j, fun j => Dict.get_replace _ _ _ j⟩

/-- A call that changes the task object and then its status. -/
theorem set_updateStatus_wrote (m : TaskManager) (id : String) (task : Task) (status : TaskStatus)
    (now saved : ℕ) :
    Wrote m id (task.setStatus status now) (some ((task.setStatus status now).row saved))
      ({ m with tasks := m.tasks.set id task }.updateStatus id status now saved) := by
  obtain ⟨htasks, hstore⟩ := updateStatus_wrote (m := { m with tasks := m.tasks.set id task })
    (Dict.get_set_self _ _ _) status now saved
  refine ⟨?_, hstore⟩
  intro j
  rw [htasks j]
  by_cases hj : j = id <;> simp [hj, Dict.get_set]

theorem failTask_wrote (h : m.tasks.get id = some task) (error : String) (now saved : ℕ) :
    Wrote m id ({ task with result := some error }.setStatus .failed now)
      (some (({ task with result := some error }.setStatus .failed now).row saved))
      (m.failTask id error now saved) := by
  rw [TaskManager.failTask, h]
  exact set_updateStatus_wrote m id _ .failed now saved

theorem completeTask_wrote (h : m.tasks.get id = some task) (result : String)
    (files : List String) (now saved now' saved' : ℕ) :
    Wrote m id
      ({ task with result := some result, artifacts := task.artifacts ++ files }.setStatus
        .completed now)
      (some { { task with result := some result, artifacts := task.artifacts ++ files }.row saved'
        with status := .completed, completedAt := some now' })
      (m.completeTask id result files now saved now' saved') := by
  rw [TaskManager.completeTask, h]
  obtain ⟨htasks, hstore⟩ := set_updateStatus_wrote m id
    { task with result := some result, artifacts := task.artifacts ++ files } .completed now saved
  refine ⟨htasks, ?_⟩
  intro j
  rw [Dict.get_replace, hstore j]
  by_cases hj : j = id <;> simp [hj]

theorem assign_wrote (h : m.tasks.get id = some task) (sessionId : String) (workDir : Path) :
    Wrote m id { task with sessionId := some sessionId, workDir := some workDir }
      (m.store.get id) (m.assign id sessionId workDir) := by
  rw [TaskManager.assign, h]
  refine ⟨fun j => Dict.get_set _ _ _ j, ?_⟩
  intro j
  by_cases hj : j = id <;> simp [hj]

end Tasks
end AgentSwarm
