import AgentSwarm.TaskManager.Restart

/-!
# What the task manager lists

`list_tasks` merges the tasks in memory with the rows of the store that are not, and sorts them
by their time of creation.  A look-up goes to the memory first as well, and then to the store,
and puts what it finds there into the memory.

* `Event`, `step` — the calls of a process, and the start of the next one over the same store.
* `Lists` — what is listed is what is looked up: every task of the tenant once, the newest first.
* `Keyed` — the invariant: each task is in memory under its own id, and no id is there twice.
* `lists_throughout` — in every state of every run.
* `created_stays_listed` — **a task stays listed for its tenant, and for no other**, over restarts.
-/

namespace AgentSwarm
namespace Tasks

/-- A call, or a restart. -/
inductive Event where
  | op (op : Op)
  | getTask (taskId : String)
  | restart

/-- The event creates a task under the id. -/
def Event.CreatesAs (taskId : String) : Event → Prop
  | .op (.createTask id ..) => id = taskId
  | _ => False

/-- One event; each is possible at any time. -/
def step (join : Path → String → Path) (m : TaskManager) : Event → Option TaskManager
  | .op op => some (apply join m op)
  | .getTask taskId => some (m.getTask taskId).2
  | .restart => some m.restart

/-- The tasks that a tenant's listing shows; an empty id stands for all tenants. -/
def OfTenant (tenantId : Option String) (owner : String) : Prop :=
  ∀ tenant ∈ tenantFilter tenantId, owner = tenant

/-- The listings agree with the look-ups. -/
structure Lists (m : TaskManager) : Prop where
  mem : ∀ tenantId task, task ∈ m.listTasks tenantId ↔
    (m.getTask task.taskId).1 = some task ∧ OfTenant tenantId task.tenantId
  nodup : ∀ tenantId, ((m.listTasks tenantId).map Task.taskId).Nodup
  newest : ∀ tenantId, (m.listTasks tenantId).Pairwise fun s t => t.createdAt ≤ s.createdAt

/-! ## The invariant -/

/-- Each task is in memory under its own id, and no id is in the memory or the store twice. -/
structure Keyed (m : TaskManager) : Prop where
  tasks : m.tasks.NodupKeys
  store : m.store.NodupKeys
  keyed : ∀ id task, m.tasks.get id = some task → task.taskId = id

variable {join : Path → String → Path} {base : Path} {store : TaskTable} {m m' : TaskManager}
variable {id : String}

/-- A task is put into memory under its id, and a row may be written. -/
theorem Keyed.set (h : Keyed m) (task : Task) (htask : task.taskId = id) :
    Keyed { m with tasks := m.tasks.set id task } where
  tasks := h.tasks.set id task
  store := h.store
  keyed j t hj := by
    rw [Dict.get_set] at hj
    split at hj
    · rename_i hid
      cases hj
      exact htask.trans hid.symm
    · exact h.keyed j t hj

theorem Keyed.replace (h : Keyed m) (id : String) (row : TaskRow) :
    Keyed { m with store := m.store.replace id row } :=
  ⟨h.tasks, h.store.replace id row, h.keyed⟩

theorem Keyed.updateStatus (h : Keyed m) (id : String) (status : TaskStatus) (now saved : ℕ) :
    Keyed (m.updateStatus id status now saved) := by
  rw [TaskManager.updateStatus]
  split
  · exact h
  · rename_i task htask
    exact (h.set (task.setStatus status now) (h.keyed id task htask)).replace id _

theorem keyed_apply (h : Keyed m) (op : Op) : Keyed (apply join m op) := by
  cases op with
  | createTask id msg tenant now saved => 
      refine ⟨h.tasks.set id _, h.store.replace id _, fun j t hj => ?_⟩
      rw [apply, TaskManager.createTask, Dict.get_set] at hj
      split at hj
      · rename_i hid
        cases hj
        exact hid.symm
      · exact h.keyed j t hj
  | assign id sess dir =>
      rw [apply, TaskManager.assign]
      split
      · exact h
      · rename_i task htask
        exact h.set _ (h.keyed id task htask)
  | updateStatus id status now saved => exact h.updateStatus id status now saved
  | completeTask id result files now saved now' saved' =>
      rw [apply, TaskManager.completeTask]
      split
      · exact h
      · rename_i task htask
        let task' := { task with result := some result, artifacts := task.artifacts ++ files }
        have hset := (h.set task' (h.keyed id task htask)).updateStatus id .completed now saved
        exact hset.replace id _
  | failTask id error now saved =>
      rw [apply, TaskManager.failTask]
      split
      · exact h
      · rename_i task htask
        exact (h.set { task with result := some error } (h.keyed id task htask)).updateStatus id
          .failed now saved

theorem keyed_getTask (h : Keyed m) (id : String) : Keyed (m.getTask id).2 := by
  rw [TaskManager.getTask]
  split
  · exact h
  · split
    · exact h
    · exact h.set _ rfl

theorem keyed_start (hstore : store.NodupKeys) : Keyed (start base store) :=
  ⟨List.nodup_nil, hstore, fun _ _ h => by cases h⟩

theorem keyed_step {e : Event} (h : Keyed m) (hstep : step join m e = some m') : Keyed m' := by
  cases e with
  | op op =>
      cases hstep
      exact keyed_apply h op
  | getTask id =>
      cases hstep
      exact keyed_getTask h id
  | restart =>
      cases hstep
      exact keyed_start h.store

/-! ## The listing -/

theorem get_mergeRows (tasks : Dict String Task) (rows : List (String × TaskRow)) (id : String) :
    (mergeRows tasks rows).get id =
      (tasks.get id).or ((Dict.get rows id).map (taskFromDict id)) := by
  induction rows generalizing tasks with
  | nil => simp [mergeRows]
  | cons row rows ih =>
      obtain ⟨j, row⟩ := row
      rw [mergeRows, ih, Dict.get_setDefault, Option.or_assoc, Dict.get_cons]
      by_cases hj : id = j
      · subst hj
        simp
      · simp [hj]

theorem nodupKeys_mergeRows {tasks : Dict String Task} (h : tasks.NodupKeys)
    (rows : List (String × TaskRow)) : (mergeRows tasks rows).NodupKeys := by
  induction rows generalizing tasks with
  | nil => exact h
  | cons row rows ih => exact ih (h.setDefault _ _)

/-- The rows that are listed for a tenant. -/
theorem get_listRows (hstore : store.NodupKeys) (tenantId : Option String) (id : String) :
    Dict.get (listRows store tenantId) id =
      (store.get id).filter fun row => (tenantFilter tenantId).all (row.tenantId = ·) := by
  rw [listRows]
  cases tenantFilter tenantId with
  | none =>
      rw [hstore.get_perm (List.mergeSort_perm _ _).symm]
      cases store.get id <;> rfl
  | some tenant =>
      have hfiltered := hstore.filter fun p => p.2.tenantId = tenant
      rw [hfiltered.get_perm (List.mergeSort_perm _ _).symm, Dict.get_filter hstore]
      rfl

/-- What the tasks of a listing are taken from. -/
def merged (m : TaskManager) (tenantId : Option String) : Dict String Task :=
  mergeRows m.tasks (listRows m.store tenantId)

theorem all_iff_ofTenant (tenantId : Option String) (owner : String) :
    (tenantFilter tenantId).all (owner = ·) = true ↔ OfTenant tenantId owner := by
  rw [OfTenant]
  cases tenantFilter tenantId <;> simp

theorem Keyed.get_merged (h : Keyed m) (tenantId : Option String) {task : Task}
    (howner : OfTenant tenantId task.tenantId) :
    (merged m tenantId).get id = some task ↔ (m.getTask id).1 = some task := by
  rw [merged, get_mergeRows, get_listRows h.store, TaskManager.getTask]
  cases m.tasks.get id with
  | some t => rfl
  | none =>
      cases m.store.get id with
      | none => rfl
      | some row =>
          rw [Option.none_or]
          constructor
          · intro hlisted
            obtain ⟨row', hrow', htask⟩ := Option.map_eq_some_iff.1 hlisted
            obtain ⟨hrow, -⟩ := Option.filter_eq_some_iff.1 hrow'
            cases hrow
            exact congrArg some htask
          · intro hfound
            obtain rfl := Option.some.inj hfound
            have hall : (tenantFilter tenantId).all (row.tenantId = ·) = true :=
              (all_iff_ofTenant tenantId row.tenantId).2 howner
            simp only [Option.filter, hall, if_true, Option.map_some]

theorem Keyed.nodupKeys_merged (h : Keyed m) (tenantId : Option String) :
    (merged m tenantId).NodupKeys := nodupKeys_mergeRows h.tasks _

theorem Keyed.merged_keyed (h : Keyed m) (tenantId : Option String) {task : Task}
    (hmem : (id, task) ∈ merged m tenantId) : task.taskId = id := by
  have hget := (h.nodupKeys_merged tenantId).get_eq_some_iff.2 hmem
  rw [merged, get_mergeRows] at hget
  cases htasks : m.tasks.get id with
  | some t =>
      rw [htasks] at hget
      cases hget
      exact h.keyed id task htasks
  | none =>
      rw [htasks, Option.none_or] at hget
      obtain ⟨row, -, rfl⟩ := Option.map_eq_some_iff.1 hget
      rfl

/-- The merged tasks of a tenant, in any order. -/
theorem listTasks_perm (m : TaskManager) (tenantId : Option String) :
    (m.listTasks tenantId).Perm (((merged m tenantId).map Prod.snd).filter fun task =>
      (tenantFilter tenantId).all (task.tenantId = ·)) := by
  rw [TaskManager.listTasks]
  refine (List.mergeSort_perm _ _).trans ?_
  cases tenantFilter tenantId with
  | none => exact List.Perm.of_eq (List.filter_eq_self.2 fun _ _ => rfl).symm
  | some tenant => exact List.Perm.refl _

/-- **The listings**, by the invariant. -/
theorem Keyed.lists (h : Keyed m) : Lists m where
  mem tenantId task := by
    rw [(listTasks_perm m tenantId).mem_iff, List.mem_filter, all_iff_ofTenant]
    refine and_congr_left fun howner => ?_
    rw [← h.get_merged tenantId howner, (h.nodupKeys_merged tenantId).get_eq_some_iff]
    constructor
    · intro hmem
      obtain ⟨⟨id, t⟩, hpair, rfl⟩ := List.mem_map.1 hmem
      exact (h.merged_keyed tenantId hpair) ▸ hpair
    · exact fun hpair => List.mem_map.2 ⟨_, hpair, rfl⟩
  nodup tenantId := by
    refine ((listTasks_perm m tenantId).map Task.taskId).nodup_iff.2 ?_
    refine List.Nodup.sublist (List.filter_sublist.map Task.taskId) ?_
    have hkeys : ((merged m tenantId).map Prod.snd).map Task.taskId = (merged m tenantId).keys := by
      rw [List.map_map]
      exact List.map_congr_left fun p hp => h.merged_keyed tenantId hp
    rw [hkeys]
    exact h.nodupKeys_merged tenantId
  newest tenantId := by
    have hsorted : ∀ tasks : List Task, (tasks.mergeSort fun s t : Task =>
        decide (t.createdAt ≤ s.createdAt)).Pairwise fun s t : Task =>
          decide (t.createdAt ≤ s.createdAt) = true := by
      refine List.pairwise_mergeSort (fun a b c hab hbc => ?_) fun a b => ?_
      · simp only [decide_eq_true_eq] at hab hbc ⊢
        omega
      · simp only [Bool.or_eq_true, decide_eq_true_eq]
        omega
    exact (hsorted _).imp fun hle => of_decide_eq_true hle

/-- **The listings and the look-ups agree**, in every state of every run. -/
theorem lists_throughout (hstore : store.NodupKeys) (events : List Event) :
    Run.Throughout (step join) Lists (start base store) events := by
  have hkeyed : Run.Throughout (step join) Keyed (start base store) events :=
    Run.throughout_of_preserved (fun _ _ _ => keyed_step) (keyed_start hstore) events
  exact hkeyed.mono fun m h => h.lists

/-! ## A task that was created -/

/-- The id is a tenant's, in the store and in the memory. -/
structure Owned (id tenant : String) (m : TaskManager) : Prop where
  keyed : Keyed m
  row : ∃ row, m.store.get id = some row ∧ row.tenantId = tenant
  task : ∀ task, m.tasks.get id = some task → task.tenantId = tenant

variable {tenant : String} {j : String}

/-- A call that writes the task of another id, or leaves the tenant of the task as it is. -/
theorem Owned.wrote (h : Owned id tenant m) {task : Task} {row : Option TaskRow}
    (hw : Wrote m j task row m') (hkeyed : Keyed m')
    (hsame : j = id → task.tenantId = tenant ∧ ∃ r, row = some r ∧ r.tenantId = tenant) :
    Owned id tenant m' := by
  refine ⟨hkeyed, ?_, fun t ht => ?_⟩
  · rw [hw.store]
    split
    · rename_i hid
      exact (hsame hid.symm).2
    · exact h.row
  · rw [hw.tasks] at ht
    split at ht
    · rename_i hid
      cases ht
      exact (hsame hid.symm).1
    · exact h.task t ht

theorem owned_apply (h : Owned id tenant m) {op : Op} (hop : ¬ (Event.op op).CreatesAs id) :
    Owned id tenant (apply join m op) := by
  have hkeyed : Keyed (apply join m op) := keyed_apply h.keyed op
  cases op with
  | createTask j msg owner now saved =>
      obtain ⟨workDir, hw⟩ := createTask_wrote join m j msg owner now saved
      exact h.wrote hw hkeyed fun hid => absurd hid hop
  | assign j sess dir =>
      cases htask : m.tasks.get j with
      | none => rwa [apply, assign_of_not_mem htask]
      | some task =>
          refine h.wrote (assign_wrote htask sess dir) hkeyed fun hid => ?_
          subst hid
          exact ⟨h.task task htask, h.row⟩
  | updateStatus j status now saved =>
      cases htask : m.tasks.get j with
      | none => rwa [apply, updateStatus_of_not_mem htask]
      | some task =>
          refine h.wrote (updateStatus_wrote htask status now saved) hkeyed fun hid => ?_
          subst hid
          exact ⟨h.task task htask, _, rfl, h.task task htask⟩
  | completeTask j result files now saved now' saved' =>
      cases htask : m.tasks.get j with
      | none => rwa [apply, completeTask_of_not_mem htask]
      | some task =>
          refine h.wrote (completeTask_wrote htask result files now saved now' saved') hkeyed
            fun hid => ?_
          subst hid
          exact ⟨h.task task htask, _, rfl, h.task task htask⟩
  | failTask j error now saved =>
      cases htask : m.tasks.get j with
      | none => rwa [apply, failTask_of_not_mem htask]
      | some task =>
          refine h.wrote (failTask_wrote htask error now saved) hkeyed fun hid => ?_
          subst hid
          exact ⟨h.task task htask, _, rfl, h.task task htask⟩

theorem owned_getTask (h : Owned id tenant m) (j : String) : Owned id tenant (m.getTask j).2 := by
  refine ⟨keyed_getTask h.keyed j, ?_, fun task htask => ?_⟩
  · have hstore : (m.getTask j).2.store = m.store := by
      rw [TaskManager.getTask]
      split
      · rfl
      · split <;> rfl
    rw [hstore]
    exact h.row
  · rw [TaskManager.getTask] at htask
    split at htask
    · exact h.task task htask
    · split at htask
      · exact h.task task htask
      · rename_i row hrow
        rw [Dict.get_set] at htask
        split at htask
        · rename_i hid
          subst hid
          cases htask
          obtain ⟨row', hrow', howner⟩ := h.row
          obtain rfl := Option.some.inj (hrow.symm.trans hrow')
          exact howner
        · exact h.task task htask

theorem owned_step {e : Event} (h : Owned id tenant m) (he : ¬ e.CreatesAs id)
    (hstep : step join m e = some m') : Owned id tenant m' := by
  cases e with
  | op op =>
      cases hstep
      exact owned_apply h he
  | getTask j =>
      cases hstep
      exact owned_getTask h j
  | restart =>
      cases hstep
      exact ⟨keyed_start h.keyed.store, h.row, fun _ htask => by cases htask⟩

/-- A task is found for its tenant. -/
theorem Owned.found (h : Owned id tenant m) :
    ∃ task, (m.getTask id).1 = some task ∧ task.taskId = id ∧ task.tenantId = tenant := by
  obtain ⟨row, hrow, howner⟩ := h.row
  rw [TaskManager.getTask]
  cases htask : m.tasks.get id with
  | some task => exact ⟨task, rfl, h.keyed.keyed id task htask, h.task task htask⟩
  | none =>
      rw [hrow]
      exact ⟨_, rfl, rfl, howner⟩

/-- The id is listed for the tenant and for no other. -/
theorem Owned.listed (h : Owned id tenant m) (tenantId : Option String) :
    id ∈ (m.listTasks tenantId).map Task.taskId ↔ OfTenant tenantId tenant := by
  have hlists := h.keyed.lists
  obtain ⟨task, hfound, hid, howner⟩ := h.found
  rw [List.mem_map]
  constructor
  · rintro ⟨t, ht, rfl⟩
    obtain ⟨hsame, hof⟩ := (hlists.mem tenantId t).1 ht
    obtain rfl := Option.some.inj (hfound.symm.trans hsame)
    exact howner ▸ hof
  · intro hof
    exact ⟨task, (hlists.mem tenantId task).2 ⟨by rw [hid]; exact hfound, howner.symm ▸ hof⟩, hid⟩

/-- **A task stays listed for its tenant, and for no other.**  Once it has been created, every
listing of every later state shows it exactly when it is to show the tasks of its tenant, whatever
becomes of the task, and over restarts; and it agrees with the look-ups throughout. -/
theorem created_stays_listed (join : Path → String → Path) (base : Path) {store : TaskTable}
    (hstore : store.NodupKeys) {as bs : List Event} {s t : TaskManager}
    (hs : Run.exec (step join) (start base store) as = some s) {msg : String} {now saved : ℕ}
    (hcreate : step join s (.op (.createTask id msg tenant now saved)) = some t)
    (honce : ∀ e ∈ bs, ¬ e.CreatesAs id) :
    Run.Throughout (step join) (fun m => Lists m ∧ ∀ tenantId,
      (id ∈ (m.listTasks tenantId).map Task.taskId ↔ OfTenant tenantId tenant)) t bs := by
  have hkeyed : Keyed s :=
    (Run.throughout_of_preserved (fun _ _ _ => keyed_step) (keyed_start hstore) as).last hs
  have howned : Owned id tenant t := by
    have hkeyed' := keyed_step hkeyed hcreate
    cases hcreate
    obtain ⟨workDir, hw⟩ := createTask_wrote join s id msg tenant now saved
    refine ⟨hkeyed', ⟨_, (hw.store id).trans (if_pos rfl), rfl⟩, fun task htask => ?_⟩
    obtain rfl := Option.some.inj (htask.symm.trans ((hw.tasks id).trans (if_pos rfl)))
    rfl
  have hok : Run.Along (step join) (fun _ e => ¬ e.CreatesAs id) t bs :=
    Run.along_of_mem t honce
  have hrun := Run.throughout_of_invariant (fun _ _ _ h he hstep => owned_step h he hstep) howned hok
  exact hrun.mono fun m h => ⟨h.keyed.lists, h.listed⟩

/-- A task of `acme` that has run, over a restart. -/
theorem shop_stays_listed :
    ∃ t, Run.exec (step slash) (start ⟨"/data", by decide⟩ [])
        [.op (.createTask "3f2a91bc" "build a shop" "acme" 10 11)] = some t ∧
      Run.Throughout (step slash) (fun m => Lists m ∧ ∀ tenantId,
        ("3f2a91bc" ∈ (m.listTasks tenantId).map Task.taskId ↔ OfTenant tenantId "acme")) t
        [.op (.updateStatus "3f2a91bc" .running 12 13), .restart, .getTask "3f2a91bc"] := by
  have hstore : Dict.NodupKeys ([] : TaskTable) := List.nodup_nil
  have hs : Run.exec (step slash) (start ⟨"/data", by decide⟩ []) [] = some _ := rfl
  refine ⟨_, rfl, created_stays_listed slash ⟨"/data", by decide⟩ hstore hs rfl ?_⟩
  intro e he
  simp only [List.mem_cons, List.not_mem_nil, or_false] at he
  rcases he with rfl | rfl | rfl <;> exact id

end Tasks
end AgentSwarm
