import AgentSwarm.Lib.Run
import AgentSwarm.TaskManager.Manager

/-!
# Writing a task through to its row, under overlapping calls

`update_status`, `complete_task` and `fail_task` change the task in memory at once.
Its row is written later, by a thread, from arguments that were put together when the
subscribers had been told; and other calls may come in between.

* `Call`, `Pc`, `Sys` — the calls on one task, where each is suspended, the task and
  its row.
* `step` — one call goes on to its next `await`, or its thread commits.
* `alone_wrote` — a call that nothing comes between does what the manager's model says.
* `Coherent` — when all calls have returned, the row agrees with the task.
* `Current` — a commit that no write comes after is still current.
* `InOrder` — the condition, on the **order of assignments and commits**: what is committed
  last is not older than an assignment of something else.
* `Assigned` — the invariant: what a call has assigned, as long as it is only repeated.
* `coherent_of_inOrder` — the condition is enough, for every run.
* `complete_over_cancel` — a completion written after a cancellation that came later.
-/

namespace AgentSwarm
namespace Tasks
namespace WriteThrough

/-- A call on the task.  `files` are what the walk over the work directory finds. -/
inductive Call where
  | updateStatus (status : TaskStatus)
  | completeTask (result : String) (files : List String)
  | failTask (error : String)

/-- The status that a call assigns and saves. -/
def Call.status : Call → TaskStatus
  | .updateStatus status => status
  | .completeTask _ _ => .completed
  | .failTask _ => .failed

/-- `complete_task` saves the row once more. -/
def Call.savesAgain : Call → Bool
  | .completeTask _ _ => true
  | _ => false

/-- What a call assigns before its first `await`. -/
def Call.assign (call : Call) (task : Task) (now : ℕ) : Task :=
  match call with
  | .updateStatus status => task.setStatus status now
  | .completeTask result files =>
      { task with result := some result, artifacts := task.artifacts ++ files }.setStatus .completed now
  | .failTask error => { task with result := some error }.setStatus .failed now

/-- The arguments of `save_task` in `update_status`, put together from the task as it is
then; only the status is the call's own.  The time of creation is read by the thread. -/
def Call.saved (call : Call) (task : Task) : TaskRow := { task.row 0 with status := call.status }

/-- The arguments of the second `save_task` of `complete_task`. -/
def Call.savedAgain (call : Call) (task : Task) (now : ℕ) : TaskRow :=
  match call with
  | .completeTask result _ =>
      { task.row 0 with status := .completed, result := some result, completedAt := some now }
  | _ => call.saved task

/-- Where a call is. -/
inductive Pc where
  /-- Not yet called. -/
  | start
  /-- In `emit_event`, for the change of status. -/
  | emitting
  /-- The thread that saves the row is at work. -/
  | saving (row : TaskRow)
  /-- The row is committed, and the call has not gone on yet. -/
  | committed
  | savingAgain (row : TaskRow)
  | committedAgain
  /-- In the last `emit_event`. -/
  | closing
  | returned
  deriving DecidableEq

/-- A task in memory, its row, and the calls on it.  `assigned` are the calls that have
assigned, the last one first; no call looks at it. -/
structure Sys where
  task : Task
  row : TaskRow
  pc : ℕ → Pc
  assigned : List ℕ

/-- Call `i` moves to the place `p`. -/
def Sys.goto (s : Sys) (i : ℕ) (p : Pc) : Sys := { s with pc := Function.update s.pc i p }

/-- `INSERT OR REPLACE`, with the list of artifacts as it is now. -/
def Sys.commit (s : Sys) (row : TaskRow) (now : ℕ) : Sys :=
  { s with row := { row with artifacts := s.task.artifacts, createdAt := now } }

/-- Before any call. -/
def begin (task : Task) (row : TaskRow) : Sys where
  task := task
  row := row
  pc := fun _ => .start
  assigned := []

/-- Call `call` goes on, or its thread commits; a clock reading gives `now`. -/
structure Action where
  call : ℕ
  now : ℕ

/-- One step of one call.  `prog` tells which call each coroutine makes. -/
def step (prog : ℕ → Call) (s : Sys) (a : Action) : Option Sys :=
  let i := a.call
  match s.pc i with
  | .start => some ({ s with
      task := (prog i).assign s.task a.now
      assigned := i :: s.assigned }.goto i .emitting)
  | .emitting => some (s.goto i (.saving ((prog i).saved s.task)))
  | .saving row => some ((s.commit row a.now).goto i .committed)
  | .committed =>
      match prog i with
      | .updateStatus _ => some (s.goto i .returned)
      | .completeTask _ _ => some (s.goto i (.savingAgain ((prog i).savedAgain s.task a.now)))
      | .failTask _ => some (s.goto i .closing)
  | .savingAgain row => some ((s.commit row a.now).goto i .committedAgain)
  | .committedAgain => some (s.goto i .closing)
  | .closing => some (s.goto i .returned)
  | .returned => none

/-! ## The calls that do not act -/

theorem step_pc_of_ne {prog : ℕ → Call} {s t : Sys} {a : Action} {i : ℕ} (hi : a.call ≠ i)
    (h : step prog s a = some t) : t.pc i = s.pc i := by
  rw [step] at h
  split at h
  case h_4 => cases hcall : prog a.call <;> simp [hcall] at h <;> subst h <;> simp [Sys.goto, Ne.symm hi]
  case h_8 => cases h
  all_goals
    rw [Option.some.injEq] at h
    subst h
    simp [Sys.goto, Sys.commit, Ne.symm hi]

theorem pc_of_not_called {prog : ℕ → Call} {s t : Sys} {actions : List Action} {i : ℕ}
    (hi : ∀ a ∈ actions, a.call ≠ i) (h : Run.exec (step prog) s actions = some t) :
    t.pc i = s.pc i := by
  have hok : Run.Along (step prog) (fun _ a => a.call ≠ i) s actions := Run.along_of_mem _ hi
  refine Run.exec_invariant (I := fun u => u.pc i = s.pc i) ?_ rfl hok h
  exact fun _ _ _ hu hi h => (step_pc_of_ne hi h).trans hu

/-! ## A call alone -/

/-- The model of a call on the manager, with its clock readings. -/
def Call.run (call : Call) (m : TaskManager) (id : String) (now saved now' saved' : ℕ) : TaskManager :=
  match call with
  | .updateStatus status => m.updateStatus id status now saved
  | .completeTask result files => m.completeTask id result files now saved now' saved'
  | .failTask error => m.failTask id error now saved

/-- The steps of a call that nothing comes between. -/
def Call.steps (call : Call) (i now saved now' saved' : ℕ) : List Action :=
  match call with
  | .updateStatus _ => [⟨i, now⟩, ⟨i, now⟩, ⟨i, saved⟩, ⟨i, saved⟩]
  | .completeTask _ _ =>
      [⟨i, now⟩, ⟨i, now⟩, ⟨i, saved⟩, ⟨i, now'⟩, ⟨i, saved'⟩, ⟨i, saved'⟩, ⟨i, saved'⟩]
  | .failTask _ => [⟨i, now⟩, ⟨i, now⟩, ⟨i, saved⟩, ⟨i, saved⟩, ⟨i, saved⟩]

variable {prog : ℕ → Call} {s t : Sys} {a : Action}

/-- A call that nothing comes between leaves the task and the row that the manager's
model leaves. -/
theorem alone_wrote {i : ℕ} (hstart : s.pc i = .start) {m : TaskManager} {id : String}
    (htask : m.tasks.get id = some s.task) (now saved now' saved' : ℕ) :
    ∃ t, Run.exec (step prog) s ((prog i).steps i now saved now' saved') = some t ∧
      t.pc i = .returned ∧
      Wrote m id t.task (some t.row) ((prog i).run m id now saved now' saved') := by
  cases hcall : prog i with
  | updateStatus status =>
      refine ⟨_, by simp only [Call.steps, Run.exec, step, hstart, hcall, Sys.goto, Sys.commit,
        Function.update_self]; rfl, by simp, ?_⟩
      exact updateStatus_wrote htask status now saved
  | completeTask result files =>
      refine ⟨_, by simp only [Call.steps, Run.exec, step, hstart, hcall, Sys.goto, Sys.commit,
        Function.update_self]; rfl, by simp, ?_⟩
      exact completeTask_wrote htask result files now saved now' saved'
  | failTask error =>
      refine ⟨_, by simp only [Call.steps, Run.exec, step, hstart, hcall, Sys.goto, Sys.commit,
        Function.update_self]; rfl, by simp, ?_⟩
      exact failTask_wrote htask error now saved

/-! ## Agreement -/

/-- The row agrees with the task. -/
structure Agrees (row : TaskRow) (task : Task) : Prop where
  status : row.status = task.status
  result : row.result = task.result
  completed : row.completedAt.isSome = task.completedAt.isSome

/-- No call is under way. -/
def Quiet (s : Sys) : Prop := ∀ i, s.pc i = .start ∨ s.pc i = .returned

/-- Once all calls have returned, the row agrees with the task. -/
def Coherent (s : Sys) : Prop := Quiet s → Agrees s.row s.task

/-- At this place the call has a write to come. -/
def Pc.toWrite (call : Call) : Pc → Bool
  | .emitting => true
  | .saving _ => true
  | .committed => call.savesAgain
  | .savingAgain _ => true
  | _ => false

/-- No call other than `i` has a write to come. -/
def OthersDone (prog : ℕ → Call) (s : Sys) (i : ℕ) : Prop :=
  ∀ j, j ≠ i → (s.pc j).toWrite (prog j) = false

/-- When a row is committed and no write is to come after it, it agrees with the task as it is
then. -/
def Current (prog : ℕ → Call) (s : Sys) (a : Action) : Prop :=
  match s.pc a.call with
  | .saving row =>
      (prog a.call).savesAgain = false → OthersDone prog s a.call → Agrees row s.task
  | .savingAgain row => OthersDone prog s a.call → Agrees row s.task
  | _ => True

/-- The result that a call assigns, if it assigns one. -/
def Call.result : Call → Option String
  | .updateStatus _ => none
  | .completeTask result _ => some result
  | .failTask error => some error

/-- The call assigns the same as `call`, or a part of it. -/
def Call.Repeats (later call : Call) : Prop :=
  later.status = call.status ∧ (later.result = none ∨ later.result = call.result)

instance (later call : Call) : Decidable (later.Repeats call) :=
  inferInstanceAs (Decidable (_ ∧ _))

/-- What call `i` has assigned is all that has been assigned since. -/
def RepeatedSince (prog : ℕ → Call) (s : Sys) (i : ℕ) : Prop :=
  ∀ j ∈ s.assigned.takeWhile (· ≠ i), (prog j).Repeats (prog i)

/-- The condition on a step.  When a call commits a row and no write is to come after it, no
call has assigned anything else since this one has. -/
def InOrder (prog : ℕ → Call) (s : Sys) (a : Action) : Prop :=
  match s.pc a.call with
  | .saving _ =>
      (prog a.call).savesAgain = false → OthersDone prog s a.call → RepeatedSince prog s a.call
  | .savingAgain _ => OthersDone prog s a.call → RepeatedSince prog s a.call
  | _ => True

/-- When no write is to come, the row agrees with the task. -/
def Settled (prog : ℕ → Call) (s : Sys) : Prop :=
  (∀ i, (s.pc i).toWrite (prog i) = false) → Agrees s.row s.task

theorem toWrite_goto {i : ℕ} {p : Pc} :
    (∀ j, ((s.goto i p).pc j).toWrite (prog j) = false) ↔
      p.toWrite (prog i) = false ∧ OthersDone prog s i := by
  constructor
  · intro h
    refine ⟨by simpa [Sys.goto] using h i, fun j hj => ?_⟩
    simpa [Sys.goto, hj] using h j
  · rintro ⟨hi, hothers⟩ j
    by_cases hj : j = i
    · subst hj
      simpa [Sys.goto] using hi
    · simpa [Sys.goto, hj] using hothers j hj

/-- A call that goes on without a write to come, as before. -/
theorem settled_goto {i : ℕ} {p : Pc} (hs : Settled prog s)
    (hbefore : (s.pc i).toWrite (prog i) = false) : Settled prog (s.goto i p) := by
  intro hdone
  refine hs fun j => ?_
  by_cases hj : j = i
  · rw [hj, hbefore]
  · exact (toWrite_goto.1 hdone).2 j hj

/-- A call that has a write to come. -/
theorem settled_of_toWrite {i : ℕ} {p : Pc} (h : p.toWrite (prog i) = true) :
    Settled prog (s.goto i p) := by
  intro hdone
  rw [(toWrite_goto.1 hdone).1] at h
  cases h

/-- The commit of a row, after which the call has no write to come. -/
theorem settled_commit {i : ℕ} {p : Pc} (row : TaskRow) (now : ℕ)
    (hp : p.toWrite (prog i) = false) :
    Settled prog ((s.commit row now).goto i p) ↔ (OthersDone prog s i → Agrees row s.task) := by
  rw [Settled, toWrite_goto]
  constructor
  · intro h hothers
    obtain ⟨hstatus, hresult, hcompleted⟩ := h ⟨hp, hothers⟩
    exact ⟨hstatus, hresult, hcompleted⟩
  · rintro h ⟨-, hothers⟩
    obtain ⟨hstatus, hresult, hcompleted⟩ := h hothers
    exact ⟨hstatus, hresult, hcompleted⟩

/-- **One step.**  The row stays settled exactly when what is committed last is current. -/
theorem settled_step (hs : Settled prog s) (h : step prog s a = some t) :
    Settled prog t ↔ Current prog s a := by
  rw [Current]
  rw [step] at h
  cases hpc : s.pc a.call with
  | start =>
      simp only [hpc, Option.some.injEq] at h
      subst h
      exact iff_of_true (settled_of_toWrite rfl) trivial
  | emitting =>
      simp only [hpc, Option.some.injEq] at h
      subst h
      exact iff_of_true (settled_of_toWrite rfl) trivial
  | saving row =>
      simp only [hpc, Option.some.injEq] at h
      subst h
      cases hagain : (prog a.call).savesAgain with
      | true => exact iff_of_true (settled_of_toWrite hagain) (by simp)
      | false => exact (settled_commit (p := .committed) row a.now hagain).trans (by simp)
  | committed =>
      simp only [hpc] at h
      cases hcall : prog a.call with
      | completeTask result files =>
          simp only [hcall, Option.some.injEq] at h
          subst h
          exact iff_of_true (settled_of_toWrite rfl) trivial
      | updateStatus status =>
          simp only [hcall, Option.some.injEq] at h
          subst h
          exact iff_of_true (settled_goto hs (by simp [hpc, hcall, Pc.toWrite, Call.savesAgain])) trivial
      | failTask error =>
          simp only [hcall, Option.some.injEq] at h
          subst h
          exact iff_of_true (settled_goto hs (by simp [hpc, hcall, Pc.toWrite, Call.savesAgain])) trivial
  | savingAgain row =>
      simp only [hpc, Option.some.injEq] at h
      subst h
      exact settled_commit row a.now rfl
  | committedAgain =>
      simp only [hpc, Option.some.injEq] at h
      subst h
      exact iff_of_true (settled_goto hs (by rw [hpc]; rfl)) trivial
  | closing =>
      simp only [hpc, Option.some.injEq] at h
      subst h
      exact iff_of_true (settled_goto hs (by rw [hpc]; rfl)) trivial
  | returned => simp [hpc] at h

/-! ## The order of assignments -/

/-- The task is as the call has assigned it. -/
structure Holds (call : Call) (task : Task) : Prop where
  status : task.status = call.status
  result : call.result = none ∨ task.result = call.result
  completed : call.status.Terminal → task.completedAt.isSome

theorem holds_assign (call : Call) (task : Task) (now : ℕ) : Holds call (call.assign task now) := by
  cases call with
  | updateStatus status =>
      refine ⟨rfl, .inl rfl, fun hterminal => ?_⟩
      have hterminal' : status.Terminal := hterminal
      simp [Call.assign, Task.setStatus, hterminal']
  | completeTask result files => exact ⟨rfl, .inr rfl, fun _ => rfl⟩
  | failTask error => exact ⟨rfl, .inr rfl, fun _ => rfl⟩

/-- What a call assigns, field by field. -/
theorem assign_fields (call : Call) (task : Task) (now : ℕ) :
    (call.assign task now).status = call.status ∧
      (call.assign task now).result = call.result.or task.result ∧
      (call.assign task now).completedAt =
        if call.status.Terminal then some now else task.completedAt := by
  cases call <;> exact ⟨rfl, rfl, rfl⟩

/-- A call that repeats another leaves the task as that has assigned it. -/
theorem Holds.assign {call later : Call} {task : Task} (h : Holds call task)
    (hrepeats : later.Repeats call) (now : ℕ) : Holds call (later.assign task now) := by
  obtain ⟨hstatus, hresult, hcompleted⟩ := assign_fields later task now
  refine ⟨hstatus.trans hrepeats.1, ?_, fun hterminal => ?_⟩
  · rw [hresult]
    rcases hrepeats.2 with hnone | hsame
    · rw [hnone, Option.none_or]
      exact h.result
    · cases hcall : call.result with
      | none => exact .inl rfl
      | some result => exact .inr (by rw [hsame, hcall, Option.some_or])
  · rw [hcompleted, if_pos (hrepeats.1 ▸ hterminal)]
    rfl

/-- What was written from the task then agrees with it still. -/
theorem Agrees.assign {row : TaskRow} {call later : Call} {task : Task} (h : Agrees row task)
    (hholds : Holds call task) (hrepeats : later.Repeats call) (now : ℕ) :
    Agrees row (later.assign task now) := by
  obtain ⟨hstatus, hresult, hcompleted⟩ := assign_fields later task now
  refine ⟨?_, ?_, ?_⟩
  · rw [hstatus, hrepeats.1, ← hholds.status]
    exact h.status
  · rw [hresult, h.result]
    rcases hrepeats.2 with hnone | hsame
    · rw [hnone, Option.none_or]
    · rcases hholds.result with hnone | heq
      · rw [hsame, hnone, Option.none_or]
      · rw [hsame, heq, Option.or_self]
  · rw [hcompleted, h.completed]
    split
    · rename_i hterminal
      rw [hholds.completed (hrepeats.1 ▸ hterminal)]
      rfl
    · rfl

/-- The arguments of the second `save_task` are what the call has assigned. -/
def OwnRow (call : Call) (row : TaskRow) : Prop :=
  row.status = call.status ∧ row.result = call.result ∧ call.result ≠ none ∧
    call.status.Terminal ∧ row.completedAt.isSome

/-- Whatever a call has assigned is there, and in the row that it is about to write, as long as
it is only repeated. -/
structure Assigned (prog : ℕ → Call) (s : Sys) : Prop where
  listed : ∀ i, i ∈ s.assigned ↔ s.pc i ≠ .start
  holds : ∀ i ∈ s.assigned, RepeatedSince prog s i → Holds (prog i) s.task
  saving : ∀ i row, s.pc i = .saving row → RepeatedSince prog s i → Agrees row s.task
  savingAgain : ∀ i row, s.pc i = .savingAgain row → OwnRow (prog i) row

theorem assigned_begin (prog : ℕ → Call) (task : Task) (row : TaskRow) :
    Assigned prog (begin task row) where
  listed i := by simp [begin]
  holds i hi := by cases hi
  saving i row h := by cases h
  savingAgain i row h := by cases h

theorem OwnRow.agrees {call : Call} {row : TaskRow} {task : Task} (h : OwnRow call row)
    (hholds : Holds call task) : Agrees row task := by
  obtain ⟨hstatus, hresult, hsome, hterminal, hcompleted⟩ := h
  refine ⟨hstatus.trans hholds.status.symm, ?_, ?_⟩
  · rw [hresult]
    exact (hholds.result.resolve_left hsome).symm
  · rw [hcompleted, hholds.completed hterminal]

/-- A call that goes on without an assignment. -/
theorem Assigned.goto (h : Assigned prog s) {i : ℕ} {p : Pc} (hstarted : s.pc i ≠ .start)
    (hp : p ≠ .start)
    (hsaving : ∀ row, p = .saving row → RepeatedSince prog s i → Agrees row s.task)
    (hagain : ∀ row, p = .savingAgain row → OwnRow (prog i) row) (row : TaskRow) :
    Assigned prog ({ s with row := row }.goto i p) := by
  refine ⟨fun j => ?_, fun j hj hsince => h.holds j hj hsince, fun j row hj hsince => ?_,
    fun j row hj => ?_⟩
  · by_cases hji : j = i
    · subst hji
      simpa [Sys.goto, hp, hstarted] using h.listed j
    · simpa [Sys.goto, hji] using h.listed j
  · by_cases hji : j = i
    · subst hji
      exact hsaving row (by simpa [Sys.goto] using hj) hsince
    · exact h.saving j row (by simpa [Sys.goto, hji] using hj) hsince
  · by_cases hji : j = i
    · subst hji
      exact hagain row (by simpa [Sys.goto] using hj)
    · exact h.savingAgain j row (by simpa [Sys.goto, hji] using hj)

/-- A call that goes to a place where it is not about to write. -/
theorem Assigned.move (h : Assigned prog s) {i : ℕ} {p : Pc} (hstarted : s.pc i ≠ .start)
    (hp : p ≠ .start) (hquiet : ∀ row, p ≠ .saving row ∧ p ≠ .savingAgain row) (row : TaskRow) :
    Assigned prog ({ s with row := row }.goto i p) :=
  h.goto hstarted hp (fun row hsaving _ => absurd hsaving (hquiet row).1)
    (fun row hagain => absurd hagain (hquiet row).2) row

/-- **An assignment.** -/
theorem Assigned.assign (h : Assigned prog s) {i : ℕ} (hpc : s.pc i = .start) (now : ℕ) :
    Assigned prog ({ s with
      task := (prog i).assign s.task now
      assigned := i :: s.assigned }.goto i .emitting) := by
  -- whoever has assigned before is repeated by this call
  have hbefore : ∀ j, j ≠ i → RepeatedSince prog ({ s with
      task := (prog i).assign s.task now
      assigned := i :: s.assigned }.goto i .emitting) j →
        (prog i).Repeats (prog j) ∧ RepeatedSince prog s j := by
    intro j hj hsince
    have hall : ∀ k ∈ i :: s.assigned.takeWhile (· ≠ j), (prog k).Repeats (prog j) := by
      have hwhile : (i :: s.assigned).takeWhile (· ≠ j) = i :: s.assigned.takeWhile (· ≠ j) :=
        List.takeWhile_cons_of_pos (by simpa using Ne.symm hj)
      rw [← hwhile]
      exact hsince
    exact ⟨hall i List.mem_cons_self, fun k hk => hall k (List.mem_cons_of_mem i hk)⟩
  have hcalled : ∀ j, s.pc j ≠ .start → j ≠ i := by
    rintro j hj rfl
    exact hj hpc
  refine ⟨fun j => ?_, fun j hj hsince => ?_, fun j row hj hsince => ?_, fun j row hj => ?_⟩
  · by_cases hji : j = i
    · subst hji
      simp [Sys.goto]
    · simpa [Sys.goto, hji] using h.listed j
  · by_cases hji : j = i
    · subst hji
      exact holds_assign (prog j) s.task now
    · obtain ⟨hrepeats, hold⟩ := hbefore j hji hsince
      exact (h.holds j ((List.mem_cons.1 hj).resolve_left hji) hold).assign hrepeats now
  · have hji : j ≠ i := by
      rintro rfl
      simp [Sys.goto] at hj
    have hpcj : s.pc j = .saving row := by simpa [Sys.goto, hji] using hj
    obtain ⟨hrepeats, hold⟩ := hbefore j hji hsince
    have hmem : j ∈ s.assigned := (h.listed j).2 (by rw [hpcj]; simp)
    exact (h.saving j row hpcj hold).assign (h.holds j hmem hold) hrepeats now
  · have hji : j ≠ i := by
      rintro rfl
      simp [Sys.goto] at hj
    exact h.savingAgain j row (by simpa [Sys.goto, hji] using hj)

/-- The first row of a call, put together from the task. -/
theorem agrees_saved {call : Call} {task : Task} (h : Holds call task) :
    Agrees (call.saved task) task :=
  ⟨h.status.symm, rfl, rfl⟩

theorem assigned_step (h : Assigned prog s) (hstep : step prog s a = some t) :
    Assigned prog t := by
  have hne : ∀ p, s.pc a.call = p → p ≠ .start → s.pc a.call ≠ .start :=
    fun p hp hstart => hp ▸ hstart
  rw [step] at hstep
  cases hpc : s.pc a.call with
  | start =>
      simp only [hpc, Option.some.injEq] at hstep
      subst hstep
      exact h.assign hpc a.now
  | emitting =>
      simp only [hpc, Option.some.injEq] at hstep
      subst hstep
      have hstarted := hne _ hpc (by simp)
      refine h.goto hstarted (by simp) (fun row hrow hsince => ?_)
        (fun row hrow => by cases hrow) s.row
      cases hrow
      exact agrees_saved (h.holds a.call ((h.listed a.call).2 hstarted) hsince)
  | saving row =>
      simp only [hpc, Option.some.injEq] at hstep
      subst hstep
      exact h.move (hne _ hpc (by simp)) (by simp) (by simp) _
  | committed =>
      have hstarted := hne _ hpc (by simp)
      simp only [hpc] at hstep
      cases hcall : prog a.call with
      | completeTask result files =>
          simp only [hcall, Option.some.injEq] at hstep
          subst hstep
          refine h.goto hstarted (by simp) (fun row hrow => by cases hrow)
            (fun row hrow => ?_) s.row
          cases hrow
          rw [hcall]
          exact ⟨rfl, rfl, by simp [Call.result], .inl rfl, rfl⟩
      | updateStatus status =>
          simp only [hcall, Option.some.injEq] at hstep
          subst hstep
          exact h.move hstarted (by simp) (by simp) s.row
      | failTask error =>
          simp only [hcall, Option.some.injEq] at hstep
          subst hstep
          exact h.move hstarted (by simp) (by simp) s.row
  | savingAgain row =>
      simp only [hpc, Option.some.injEq] at hstep
      subst hstep
      exact h.move (hne _ hpc (by simp)) (by simp) (by simp) _
  | committedAgain =>
      simp only [hpc, Option.some.injEq] at hstep
      subst hstep
      exact h.move (hne _ hpc (by simp)) (by simp) (by simp) s.row
  | closing =>
      simp only [hpc, Option.some.injEq] at hstep
      subst hstep
      exact h.move (hne _ hpc (by simp)) (by simp) (by simp) s.row
  | returned => simp [hpc] at hstep

/-- **In order, what is committed last is current.** -/
theorem Assigned.current (h : Assigned prog s) (hok : InOrder prog s a) : Current prog s a := by
  rw [InOrder] at hok
  rw [Current]
  cases hpc : s.pc a.call with
  | saving row =>
      rw [hpc] at hok
      exact fun hlast hothers => h.saving a.call row hpc (hok hlast hothers)
  | savingAgain row =>
      rw [hpc] at hok
      intro hothers
      have hmem : a.call ∈ s.assigned := (h.listed a.call).2 (by rw [hpc]; simp)
      exact (h.savingAgain a.call row hpc).agrees (h.holds a.call hmem (hok hothers))
  | _ => trivial

/-- **Write-through coherence.**  In every run of overlapping calls in which no call commits
last after another has assigned something else, the row agrees with the task whenever all calls
have returned. -/
theorem coherent_of_inOrder {task : Task} {row : TaskRow} (hagree : Agrees row task)
    (prog : ℕ → Call) (actions : List Action)
    (hok : Run.Along (step prog) (InOrder prog) (begin task row) actions) :
    Run.Throughout (step prog) Coherent (begin task row) actions := by
  have hboth : Run.Throughout (step prog) (fun s => Assigned prog s ∧ Settled prog s)
      (begin task row) actions := by
    refine Run.throughout_of_invariant (fun s a t hs hok h => ?_)
      ⟨assigned_begin prog task row, fun _ => hagree⟩ hok
    exact ⟨assigned_step hs.1 h, (settled_step hs.2 h).2 (hs.1.current hok)⟩
  refine hboth.mono fun s hs hquiet => hs.2 fun i => ?_
  rcases hquiet i with hi | hi <;> rw [hi] <;> rfl

/-- A running task, and its row. -/
def shopTask : Task where
  taskId := "t1"
  tenantId := "default"
  userMessage := "build a shop"
  status := .running
  createdAt := 0

/-- A task that is completed by call 0 while call 1 cancels it. -/
def completeAndCancel (i : ℕ) : Call :=
  if i = 0 then .completeTask "done" [] else .updateStatus .cancelled

/-- A cancellation overlaps a completion: it is assigned and committed after it. -/
theorem coherent_cancelled_later :
    Run.Throughout (step completeAndCancel) Coherent (begin shopTask (shopTask.row 1))
      [⟨0, 2⟩, ⟨0, 3⟩, ⟨1, 4⟩, ⟨0, 5⟩, ⟨1, 6⟩, ⟨0, 7⟩, ⟨0, 8⟩, ⟨1, 9⟩, ⟨0, 10⟩, ⟨1, 11⟩, ⟨0, 12⟩] := by
  refine coherent_of_inOrder ⟨rfl, rfl, rfl⟩ _ _ ?_
  have hagain : (completeAndCancel 0).savesAgain = true := rfl
  refine ⟨trivial, trivial, trivial, ?_, trivial, trivial, ?_, ?_, trivial, trivial, trivial, trivial⟩
  · exact fun hnot => absurd (hagain.symm.trans hnot) (by decide)
  · -- the cancellation has its row still to write
    exact fun hothers => absurd (hothers 1 (by decide)) (by decide)
  · exact fun _ _ j hj => absurd hj (List.not_mem_nil (a := j))

/-- The cancellation is assigned last, and the completion is committed last. -/
theorem complete_over_cancel :
    ¬ Run.Throughout (step completeAndCancel) Coherent (begin shopTask (shopTask.row 1))
      [⟨0, 2⟩, ⟨0, 3⟩, ⟨1, 4⟩, ⟨1, 5⟩, ⟨1, 6⟩, ⟨1, 7⟩, ⟨0, 8⟩, ⟨0, 9⟩, ⟨0, 10⟩, ⟨0, 11⟩, ⟨0, 12⟩] := by
  intro h
  have hmap : ((Run.exec (step completeAndCancel) (begin shopTask (shopTask.row 1))
      [⟨0, 2⟩, ⟨0, 3⟩, ⟨1, 4⟩, ⟨1, 5⟩, ⟨1, 6⟩, ⟨1, 7⟩, ⟨0, 8⟩, ⟨0, 9⟩, ⟨0, 10⟩, ⟨0, 11⟩,
        ⟨0, 12⟩]).map fun s => (s.pc 0, s.pc 1, s.row.status, s.task.status)) =
      some (.returned, .returned, .completed, .cancelled) := by
    decide
  obtain ⟨s, hs, hend⟩ := Option.map_eq_some_iff.1 hmap
  simp only [Prod.mk.injEq] at hend
  obtain ⟨hzero, hone, hrow, htask⟩ := hend
  have hquiet : Quiet s := by
    intro i
    by_cases hi : i = 0 ∨ i = 1
    · rcases hi with rfl | rfl
      · exact .inr hzero
      · exact .inr hone
    · rw [not_or] at hi
      refine .inl (pc_of_not_called (i := i) (s := begin shopTask (shopTask.row 1)) ?_ hs)
      simp [Ne.symm hi.1, Ne.symm hi.2]
  have hstatus := (h.last hs hquiet).status
  rw [hrow, htask] at hstatus
  cases hstatus

end WriteThrough
end Tasks
end AgentSwarm
