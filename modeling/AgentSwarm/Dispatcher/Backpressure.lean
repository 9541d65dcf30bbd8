import AgentSwarm.Lib.Permits
import AgentSwarm.Lib.Run

/-!
# Backpressure

All dispatches share one semaphore.  `_try_one` runs a backend's `invoke` as a
task of its own inside `async with self._semaphore`, waits for it with a timeout,
and may leave the block in several ways: with the attempt, from a handler, or by
a `CancelledError` from outside.

* `InvokeTask` — an invoke, running or ended.
* `Wait` — a dispatch in `wait_for`: the invoke it awaits, and what has been thrown
  at it.
* `Pc`, `State`, `step` — the dispatches, their invokes and the semaphore.
* `Moved`, `step_cases` — everything a step can do, by what it does to the permits.
* `Inv` — the invariant.
* `HeldExactly` — a permit is held for an invoke exactly while it has not ended;
  `not_heldExactly` — it is held somewhat longer.
* `Backpressured` — what holds in every state; `KeepsPermit` — what every step
  respects; `backpressured_throughout` — **both hold in every run.**

`wait_for` awaits the task itself, also when the time is up or when the dispatch
is cancelled: both cancel the task, and the dispatch is resumed when the task has
ended.  A cancellation that comes after that is thrown at the dispatch instead of
the outcome.
-/

namespace AgentSwarm
namespace Backpressure

open Permits

/-- How a task ends. -/
inductive Outcome where
  | returned
  /-- An exception other than `CancelledError`. -/
  | raised
  | cancelled
  deriving DecidableEq

/-- `invoke_task`.  A task that was asked to stop runs until it has ended. -/
inductive InvokeTask where
  | running (cancelRequested : Bool)
  | ended (outcome : Outcome)
  deriving DecidableEq

/-- `await asyncio.wait_for(invoke_task, timeout)`. -/
structure Wait where
  task : ℕ
  /-- The time was up. -/
  expired : Bool
  /-- The dispatch was cancelled from outside. -/
  cancelled : Bool
  /-- One of the two came after the invoke had ended. -/
  thrown : Bool
  deriving DecidableEq

/-- Where a dispatch is suspended. -/
inductive Pc where
  | idle
  /-- Anywhere in `dispatch` outside the block of the semaphore. -/
  | busy
  /-- At `async with self._semaphore`. -/
  | waiting
  /-- Given a permit and not resumed yet. -/
  | granted
  | awaiting (wait : Wait)
  /-- In the handler of `TimeoutError`, in `record_failure`. -/
  | recording (task : ℕ)
  | over
  deriving DecidableEq

/-- The dispatch is in the block of the semaphore, or about to enter it. -/
def Pc.holds : Pc → Bool
  | .granted => true
  | .awaiting _ => true
  | .recording _ => true
  | _ => false

/-- The dispatch has been called and has not ended. -/
def Pc.inProgress : Pc → Bool
  | .idle => false
  | .over => false
  | _ => true

/-- The invoke the dispatch holds its permit for. -/
def Pc.task : Pc → Option ℕ
  | .awaiting wait => some wait.task
  | .recording task => some task
  | _ => none

/-- The value of the semaphore, the invokes created, and the dispatches. -/
structure State where
  permits : ℕ
  tasks : ℕ → Option InvokeTask
  created : ℕ
  pc : ℕ → Pc

/-- A dispatcher with `asyncio.Semaphore(max_concurrent)`. -/
def init (maxConcurrent : ℕ) : State := ⟨maxConcurrent, fun _ => none, 0, fun _ => .idle⟩

/-- What happens next. -/
inductive Event where
  /-- `dispatch` is called. -/
  | call (d : ℕ)
  /-- A candidate is tried, and its circuit is not open. -/
  | ask (d : ℕ)
  /-- The semaphore gives a permit to a waiting dispatch. -/
  | grant (d : ℕ)
  /-- The dispatch is resumed, creates the task and waits for it. -/
  | invoke (d : ℕ)
  /-- The time is up. -/
  | expire (d : ℕ)
  /-- The dispatch is cancelled from outside. -/
  | cancel (d : ℕ)
  /-- An invoke ends. -/
  | finish (task : ℕ) (outcome : Outcome)
  /-- The dispatch is resumed from `wait_for`. -/
  | resume (d : ℕ)
  /-- `record_failure` is done, and the handler returns its attempt. -/
  | recorded (d : ℕ)
  /-- The dispatch returns, or raises. -/
  | done (d : ℕ)
  deriving DecidableEq

/-- What `wait_for` comes to in the dispatch. -/
inductive Ending where
  | attempt
  | error
  | timeoutError
  | cancelledError
  deriving DecidableEq

/-- A `CancelledError` becomes a `TimeoutError` when nobody but the timeout asked
for it. -/
def Wait.interrupted (wait : Wait) : Ending :=
  if wait.expired ∧ ¬ wait.cancelled then .timeoutError else .cancelledError

/-- What `wait_for` comes to, by what the invoke ended with. -/
def Wait.ending (wait : Wait) (outcome : Outcome) : Ending :=
  if wait.thrown then wait.interrupted
  else
    match outcome with
    | .returned => .attempt
    | .raised => .error
    | .cancelled => wait.interrupted

def State.goto (s : State) (d : ℕ) (pc : Pc) : State :=
  { s with pc := Function.update s.pc d pc }

/-- The dispatch leaves the block of the semaphore. -/
def State.leave (s : State) (d : ℕ) (pc : Pc) : State :=
  { s with permits := s.permits + 1 }.goto d pc

def State.setTask (s : State) (i : ℕ) (task : InvokeTask) : State :=
  { s with tasks := Function.update s.tasks i (some task) }

/-- `asyncio.create_task(backend.invoke(target, request))`. -/
def State.createTask (s : State) : State :=
  { s.setTask s.created (.running false) with created := s.created + 1 }

/-- A `CancelledError` for a dispatch in `wait_for` is passed on to the invoke, or
thrown at the dispatch when the invoke has ended. -/
def State.interrupt (s : State) (d : ℕ) (wait : Wait) : State :=
  match s.tasks wait.task with
  | some (.running _) => (s.setTask wait.task (.running true)).goto d (.awaiting wait)
  | _ => s.goto d (.awaiting { wait with thrown := true })

/-- One step. -/
def step (s : State) : Event → Option State
  | .call d =>
      match s.pc d with
      | .idle => some (s.goto d .busy)
      | _ => none
  | .ask d =>
      match s.pc d with
      | .busy => some (s.goto d .waiting)
      | _ => none
  | .grant d =>
      match s.pc d, s.permits with
      | .waiting, n + 1 => some ({ s with permits := n }.goto d .granted)
      | _, _ => none
  | .invoke d =>
      match s.pc d with
      | .granted => some (s.createTask.goto d (.awaiting ⟨s.created, false, false, false⟩))
      | _ => none
  | .expire d =>
      match s.pc d with
      | .awaiting wait =>
          if wait.expired then none else some (s.interrupt d { wait with expired := true })
      | _ => none
  | .cancel d =>
      match s.pc d with
      | .busy => some (s.goto d .over)
      | .waiting => some (s.goto d .over)
      | .granted => some (s.leave d .over)
      | .awaiting wait => some (s.interrupt d { wait with cancelled := true })
      | .recording _ => some (s.leave d .over)
      | _ => none
  | .finish i outcome =>
      match s.tasks i with
      | some (.running _) => some (s.setTask i (.ended outcome))
      | _ => none
  | .resume d =>
      match s.pc d with
      | .awaiting wait =>
          match s.tasks wait.task with
          | some (.ended outcome) =>
              match wait.ending outcome with
              | .attempt => some (s.leave d .busy)
              -- the handlers await the task again, and it raises again
              | .error => some (s.leave d .over)
              | .timeoutError =>
                  match outcome with
                  | .raised => some (s.leave d .over)
                  | _ => some (s.goto d (.recording wait.task))
              | .cancelledError => some (s.leave d .over)
          | _ => none
      | _ => none
  | .recorded d =>
      match s.pc d with
      | .recording _ => some (s.leave d .busy)
      | _ => none
  | .done d =>
      match s.pc d with
      | .busy => some (s.goto d .over)
      | _ => none

variable {max : ℕ} {s t : State} {e : Event}

/-! ## Everything a step can do -/

/-- The invoke has ended. -/
def State.Ended (s : State) (i : ℕ) : Prop := ∃ outcome, s.tasks i = some (.ended outcome)

/-- The invoke has not ended. -/
def State.Running (s : State) (i : ℕ) : Prop := ∃ c, s.tasks i = some (.running c)

/-- The transitions, by what they do to the permits. -/
inductive Moved (s : State) : Event → State → Prop
  /-- The dispatch has no permit, before and after. -/
  | outside {e d pc} (hin : (s.pc d).holds = false) (hout : pc.holds = false) :
      Moved s e (s.goto d pc)
  | take {d n} (hpc : s.pc d = .waiting) (hn : s.permits = n + 1) :
      Moved s (.grant d) ({ s with permits := n }.goto d .granted)
  | invoke {d} (hpc : s.pc d = .granted) :
      Moved s (.invoke d) (s.createTask.goto d (.awaiting ⟨s.created, false, false, false⟩))
  /-- The dispatch goes on waiting for its invoke, which is asked to stop. -/
  | passOn {e d wait wait'} (hpc : s.pc d = .awaiting wait) (htask : wait'.task = wait.task)
      (hrun : s.Running wait.task) :
      Moved s e ((s.setTask wait.task (.running true)).goto d (.awaiting wait'))
  /-- The dispatch stays in the block for the invoke it was there for. -/
  | stay {e d pc} (hpc : (s.pc d).task.isSome) (htask : pc.task = (s.pc d).task)
      (hended : ∀ i, pc = .recording i → s.Ended i) : Moved s e (s.goto d pc)
  | finish {i outcome} (hrun : s.Running i) :
      Moved s (.finish i outcome) (s.setTask i (.ended outcome))
  /-- The dispatch gives its permit back, and its invoke has ended if there is one. -/
  | leave {e d pc} (hin : (s.pc d).holds) (hout : pc.holds = false)
      (hended : ∀ wait, s.pc d = .awaiting wait → s.Ended wait.task) : Moved s e (s.leave d pc)

/-- A `CancelledError` for a dispatch in `wait_for`. -/
theorem moved_interrupt {d : ℕ} {wait wait' : Wait} (hpc : s.pc d = .awaiting wait)
    (htask : wait'.task = wait.task) : Moved s e (s.interrupt d wait') := by
  unfold State.interrupt
  split
  · rename_i c hrun
    rw [htask] at hrun ⊢
    exact .passOn hpc htask ⟨c, hrun⟩
  · refine .stay ?_ ?_ ?_
    · simp [hpc, Pc.task]
    · simp [hpc, Pc.task, htask]
    · simp

/-- A dispatch leaves the block after its invoke. -/
theorem moved_leave_awaiting {d : ℕ} {wait : Wait} {pc : Pc} (hpc : s.pc d = .awaiting wait)
    (hended : s.Ended wait.task) (hout : pc.holds = false) : Moved s e (s.leave d pc) := by
  refine .leave ?_ hout ?_
  · simp [hpc, Pc.holds]
  · intro wait' hwait'
    obtain rfl : wait = wait' := by simpa [hpc] using hwait'
    exact hended

/-- A dispatch leaves the block from anywhere else in it. -/
theorem moved_leave {d : ℕ} {pc : Pc} (hin : (s.pc d).holds)
    (htask : ∀ wait, s.pc d ≠ .awaiting wait) (hout : pc.holds = false) :
    Moved s e (s.leave d pc) :=
  .leave hin hout fun wait hwait => absurd hwait (htask wait)

/-- The dispatch is resumed from `wait_for`. -/
theorem moved_resume {d : ℕ} (h : step s (.resume d) = some t) : Moved s (.resume d) t := by
  cases hpc : s.pc d <;> simp only [step, hpc, reduceCtorEq] at h
  rename_i wait
  split at h
  · rename_i outcome htask
    have hended : s.Ended wait.task := ⟨outcome, htask⟩
    cases hending : wait.ending outcome with
    | attempt =>
        simp only [hending, Option.some.injEq] at h
        exact h ▸ moved_leave_awaiting hpc hended rfl
    | error =>
        simp only [hending, Option.some.injEq] at h
        exact h ▸ moved_leave_awaiting hpc hended rfl
    | timeoutError =>
        simp only [hending] at h
        split at h <;> obtain rfl := Option.some.inj h
        · exact moved_leave_awaiting hpc hended rfl
        · refine .stay ?_ ?_ ?_
          · simp [hpc, Pc.task]
          · simp [hpc, Pc.task]
          · rintro _ ⟨⟩
            exact hended
    | cancelledError =>
        simp only [hending, Option.some.injEq] at h
        exact h ▸ moved_leave_awaiting hpc hended rfl
  · simp at h

/-- The dispatch is cancelled from outside. -/
theorem moved_cancel {d : ℕ} (h : step s (.cancel d) = some t) : Moved s (.cancel d) t := by
  cases hpc : s.pc d <;> simp only [step, hpc, reduceCtorEq, Option.some.injEq] at h <;> subst h
  case busy => exact .outside (by simp [hpc, Pc.holds]) rfl
  case waiting => exact .outside (by simp [hpc, Pc.holds]) rfl
  case granted => exact moved_leave (by simp [hpc, Pc.holds]) (by simp [hpc]) rfl
  case awaiting wait => exact moved_interrupt hpc rfl
  case recording i => exact moved_leave (by simp [hpc, Pc.holds]) (by simp [hpc]) rfl

/-- **Everything a step can do.** -/
theorem step_cases (h : step s e = some t) : Moved s e t := by
  cases e with
  | call d =>
      cases hpc : s.pc d <;> simp only [step, hpc, reduceCtorEq, Option.some.injEq] at h
      exact h ▸ .outside (by simp [hpc, Pc.holds]) rfl
  | ask d =>
      cases hpc : s.pc d <;> simp only [step, hpc, reduceCtorEq, Option.some.injEq] at h
      exact h ▸ .outside (by simp [hpc, Pc.holds]) rfl
  | grant d =>
      simp only [step] at h
      split at h
      · obtain rfl := Option.some.inj h
        exact .take ‹_› ‹_›
      · simp at h
  | invoke d =>
      cases hpc : s.pc d <;> simp only [step, hpc, reduceCtorEq, Option.some.injEq] at h
      exact h ▸ .invoke hpc
  | expire d =>
      cases hpc : s.pc d <;> simp only [step, hpc, reduceCtorEq] at h
      split at h
      · simp at h
      · exact Option.some.inj h ▸ moved_interrupt hpc rfl
  | cancel d => exact moved_cancel h
  | finish i outcome =>
      simp only [step] at h
      split at h
      · rename_i c hrun
        exact Option.some.inj h ▸ .finish ⟨c, hrun⟩
      · simp at h
  | resume d => exact moved_resume h
  | recorded d =>
      cases hpc : s.pc d <;> simp only [step, hpc, reduceCtorEq, Option.some.injEq] at h
      exact h ▸ moved_leave (by simp [hpc, Pc.holds]) (by simp [hpc]) rfl
  | done d =>
      cases hpc : s.pc d <;> simp only [step, hpc, reduceCtorEq, Option.some.injEq] at h
      exact h ▸ .outside (by simp [hpc, Pc.holds]) rfl

/-! ## A permit for every invoke -/

/-- The dispatch holds its permit for the invoke. -/
def State.HoldsFor (s : State) (d i : ℕ) : Prop := (s.pc d).task = some i

/-- A permit is held for an invoke exactly while the invoke has not ended. -/
def HeldExactly (s : State) : Prop :=
  ∀ i task, s.tasks i = some task → ((∃ d, s.HoldsFor d i) ↔ s.Running i)

/-- An invoke has returned its attempt, and the dispatch has not been resumed: it
still holds the permit. -/
theorem not_heldExactly :
    ¬ Run.Throughout step HeldExactly (init 1)
      [.call 0, .ask 0, .grant 0, .invoke 0, .finish 0 .returned] := by
  intro h
  have hlast := h _ [] (List.append_nil _).symm _ rfl 0 (.ended .returned) rfl
  obtain ⟨c, hc⟩ := hlast.1 ⟨0, rfl⟩
  cases hc

/-! ## The invariant -/

/-- Every invoke that runs is awaited by a dispatch in the block. -/
structure Awaits (s : State) : Prop where
  old : ∀ i, s.created ≤ i → s.tasks i = none
  awaited : ∀ i, s.Running i → ∃ d wait, s.pc d = .awaiting wait ∧ wait.task = i
  known : ∀ d wait, s.pc d = .awaiting wait → (s.tasks wait.task).isSome
  /-- The handler runs after the invoke has ended. -/
  recorded : ∀ d i, s.pc d = .recording i → s.Ended i

/-- **The invariant.** -/
structure Inv (max : ℕ) (s : State) : Prop where
  balanced : Balanced max s.permits s.pc fun pc => pc.holds = true
  awaits : Awaits s

theorem inv_init : Inv max (init max) where
  balanced := balanced_init fun _ => by simp [init, Pc.holds]
  awaits :=
    { old := fun _ _ => rfl
      awaited := fun _ h => nomatch h.choose_spec
      known := fun _ _ h => nomatch h
      recorded := fun _ _ h => nomatch h }

theorem State.Running.not_ended {i : ℕ} (h : s.Running i) : ¬ s.Ended i := by
  obtain ⟨c, hc⟩ := h
  rintro ⟨outcome, ho⟩
  simp [hc] at ho

/-- Permits are of no account here. -/
theorem Awaits.withPermits (h : Awaits s) (n : ℕ) : Awaits { s with permits := n } :=
  ⟨h.old, h.awaited, h.known, h.recorded⟩

/-- One dispatch goes on.  If its invoke is running, it goes on waiting for it. -/
theorem Awaits.goto (h : Awaits s) {d : ℕ} {pc : Pc}
    (hawaited : ∀ wait, s.pc d = .awaiting wait → s.Running wait.task →
      ∃ wait', pc = .awaiting wait' ∧ wait'.task = wait.task)
    (hknown : ∀ wait, pc = .awaiting wait → (s.tasks wait.task).isSome)
    (hrecorded : ∀ i, pc = .recording i → s.Ended i) : Awaits (s.goto d pc) where
  old := h.old
  awaited i hrun := by
    obtain ⟨q, wait, hq, rfl⟩ := h.awaited i hrun
    by_cases hqd : q = d
    · subst hqd
      obtain ⟨wait', rfl, htask⟩ := hawaited wait hq hrun
      exact ⟨q, wait', Function.update_self .., htask⟩
    · exact ⟨q, wait, (Function.update_of_ne hqd ..).trans hq, rfl⟩
  known q wait hq := by
    by_cases hqd : q = d
    · subst hqd
      exact hknown wait (by simpa [State.goto] using hq)
    · exact h.known q wait (by simpa [State.goto, hqd] using hq)
  recorded q i hq := by
    by_cases hqd : q = d
    · subst hqd
      exact hrecorded i (by simpa [State.goto] using hq)
    · exact h.recorded q i (by simpa [State.goto, hqd] using hq)

/-- A dispatch that does not wait for an invoke any more. -/
theorem Awaits.goto_out (h : Awaits s) {d : ℕ} {pc : Pc} (hout : pc.holds = false)
    (hended : ∀ wait, s.pc d = .awaiting wait → s.Ended wait.task) : Awaits (s.goto d pc) := by
  refine h.goto ?_ ?_ ?_
  · intro wait hpc hrun
    exact absurd (hended wait hpc) hrun.not_ended
  · rintro wait rfl
    simp [Pc.holds] at hout
  · rintro i rfl
    simp [Pc.holds] at hout

/-- An invoke that runs is asked to stop, or ends. -/
theorem Awaits.setTask (h : Awaits s) {i : ℕ} {task : InvokeTask} (hrun : s.Running i) :
    Awaits (s.setTask i task) where
  old j hj := by
    have hne : j ≠ i := by
      rintro rfl
      obtain ⟨c, hc⟩ := hrun
      simp [h.old j hj] at hc
    exact (Function.update_of_ne hne ..).trans (h.old j hj)
  awaited j hj := by
    by_cases hji : j = i
    · exact hji ▸ h.awaited i hrun
    · refine h.awaited j ?_
      obtain ⟨c, hc⟩ := hj
      exact ⟨c, by simpa [State.setTask, hji] using hc⟩
  known d wait hpc := by
    by_cases hne : wait.task = i
    · simp [State.setTask, hne]
    · simpa [State.setTask, hne] using h.known d wait hpc
  recorded d j hpc := by
    have hended := h.recorded d j hpc
    have hne : j ≠ i := by
      rintro rfl
      exact hrun.not_ended hended
    obtain ⟨outcome, ho⟩ := hended
    exact ⟨outcome, (Function.update_of_ne hne ..).trans ho⟩

/-- The task is created, and its dispatch waits for it. -/
theorem Awaits.invoke (h : Awaits s) {d : ℕ} (hpc : s.pc d = .granted) :
    Awaits (s.createTask.goto d (.awaiting ⟨s.created, false, false, false⟩)) where
  old i hi := by
    have hlt : s.created < i := hi
    exact (Function.update_of_ne hlt.ne' ..).trans (h.old i hlt.le)
  awaited i hi := by
    by_cases hnew : i = s.created
    · exact ⟨d, _, Function.update_self .., hnew.symm⟩
    · obtain ⟨c, hc⟩ := hi
      have hrun : s.Running i :=
        ⟨c, by simpa [State.createTask, State.setTask, State.goto, hnew] using hc⟩
      obtain ⟨q, wait, hq, htask⟩ := h.awaited i hrun
      have hqd : q ≠ d := by
        rintro rfl
        simp [hpc] at hq
      exact ⟨q, wait, (Function.update_of_ne hqd ..).trans hq, htask⟩
  known q wait hq := by
    by_cases hnew : wait.task = s.created
    · simp [State.createTask, State.setTask, State.goto, hnew]
    · have hqd : q ≠ d := by
        rintro rfl
        obtain rfl : _ = wait := by simpa [State.goto] using hq
        exact hnew rfl
      have hsome :=
        h.known q wait (by simpa [State.createTask, State.setTask, State.goto, hqd] using hq)
      simpa [State.createTask, State.setTask, State.goto, hnew] using hsome
  recorded q i hq := by
    have hqd : q ≠ d := by
      rintro rfl
      simp [State.goto] at hq
    obtain ⟨outcome, ho⟩ :=
      h.recorded q i (by simpa [State.createTask, State.setTask, State.goto, hqd] using hq)
    have hnew : i ≠ s.created := by
      rintro rfl
      simp [h.old s.created le_rfl] at ho
    exact ⟨outcome, (Function.update_of_ne hnew ..).trans ho⟩

/-- **Every step keeps the invariant.** -/
theorem Inv.step (h : Inv max s) (ht : step s e = some t) : Inv max t := by
  have hbal := h.balanced
  cases step_cases ht with
  | @outside _ d pc hin hout =>
      refine ⟨hbal.keep (by simp [hin, hout]), h.awaits.goto_out hout ?_⟩
      intro wait hpc
      simp [hpc, Pc.holds] at hin
  | @take d n hpc hn =>
      rw [hn] at hbal
      refine ⟨hbal.take (by simp [hpc, Pc.holds]) rfl, (h.awaits.withPermits n).goto ?_ ?_ ?_⟩
      · intro wait hwait
        simp [hpc] at hwait
      · simp
      · simp
  | invoke hpc => exact ⟨hbal.keep (by simp [hpc, Pc.holds]), h.awaits.invoke hpc⟩
  | @passOn _ d wait wait' hpc htask hrun =>
      refine ⟨hbal.keep (by simp [hpc, Pc.holds]), (h.awaits.setTask hrun).goto ?_ ?_ ?_⟩
      · intro w hw _
        obtain rfl : wait = w := by simpa [State.setTask, hpc] using hw
        exact ⟨wait', rfl, htask⟩
      · rintro w ⟨⟩
        simp [State.setTask, htask]
      · simp
  | @stay _ d pc hsome htask hended =>
      have hholds : ∀ {pc : Pc}, pc.task.isSome → pc.holds = true := by
        intro pc hpc
        cases pc <;> simp_all [Pc.task, Pc.holds]
      refine ⟨hbal.keep (iff_of_true (hholds (htask ▸ hsome)) (hholds hsome)), ?_⟩
      refine h.awaits.goto ?_ ?_ hended
      · intro wait hwait hrun
        rw [hwait] at htask
        cases pc <;> simp only [Pc.task, reduceCtorEq, Option.some.injEq] at htask
        case awaiting wait' => exact ⟨wait', rfl, htask⟩
        case recording i => exact absurd (htask ▸ hended i rfl) hrun.not_ended
      · rintro wait rfl
        cases hpc : s.pc d <;> simp only [hpc, Pc.task, reduceCtorEq, Option.some.injEq] at htask
        case awaiting wait' => exact htask ▸ h.awaits.known d wait' hpc
        case recording i =>
          obtain ⟨outcome, ho⟩ := h.awaits.recorded d i hpc
          simp [htask, ho]
  | finish hrun => exact ⟨hbal, h.awaits.setTask hrun⟩
  | @leave _ d pc hin hout hended =>
      have hawaits := (h.awaits.withPermits (s.permits + 1)).goto_out hout hended
      exact ⟨hbal.giveBack hin (by simp [hout]), hawaits⟩

/-! ## Backpressure -/

/-- The dispatch gives its permit back by one or two steps of its own. -/
def State.GivesBack (s : State) (d : ℕ) : Prop :=
  ∃ es ∈ [[.resume d], [.resume d, .recorded d], [.recorded d]],
    ∃ t, Run.exec step s es = some t ∧ t.permits = s.permits + 1 ∧ (t.pc d).holds = false

/-- **The state.**  No more invokes run than permits exist.  An invoke that runs has
a dispatch that holds a permit for it, and a dispatch with a permit is about to
create its invoke, or has one that runs, or only needs to be resumed to give the
permit back.  The permits at hand and those held make up the limit, so that all are
at hand when no dispatch is in progress. -/
structure Backpressured (max : ℕ) (s : State) : Prop where
  cap : ∀ G : Finset ℕ, (∀ i ∈ G, s.Running i) → G.card ≤ max
  held : ∀ i, s.Running i → ∃ d, s.HoldsFor d i
  released : ∀ d, (s.pc d).holds → s.pc d = .granted ∨
    (∃ i, s.HoldsFor d i ∧ s.Running i) ∨ s.GivesBack d
  balanced : Balanced max s.permits s.pc fun pc => pc.holds = true
  idle : (∀ d, (s.pc d).inProgress = false) → s.permits = max

/-- **The step.**  A dispatch that holds its permit for an invoke goes on holding it
as long as the invoke has not ended. -/
def KeepsPermit (s : State) (_ : Event) (t : State) : Prop :=
  ∀ d i, s.HoldsFor d i → s.Running i → t.HoldsFor d i

@[simp] theorem goto_pc_self (s : State) (d : ℕ) (pc : Pc) : (s.goto d pc).pc d = pc :=
  Function.update_self ..

@[simp] theorem leave_pc_self (s : State) (d : ℕ) (pc : Pc) : (s.leave d pc).pc d = pc :=
  Function.update_self ..

/-- In the handler, only `record_failure` is left. -/
theorem givesBack_of_recording {d i : ℕ} (hpc : s.pc d = .recording i) : s.GivesBack d := by
  refine ⟨[.recorded d], by simp, s.leave d .busy, ?_, rfl, ?_⟩
  · simp [Run.exec, step, hpc]
  · simp [Pc.holds]

/-- After the invoke has ended, nothing more is waited for. -/
theorem givesBack_of_ended {d : ℕ} {wait : Wait} (hpc : s.pc d = .awaiting wait)
    (hended : s.Ended wait.task) : s.GivesBack d := by
  obtain ⟨outcome, ho⟩ := hended
  have hleave : ∀ pc : Pc, pc.holds = false → step s (.resume d) = some (s.leave d pc) →
      s.GivesBack d := by
    intro pc hout hstep
    exact ⟨[.resume d], by simp, s.leave d pc, by simp [Run.exec, hstep], rfl, by simp [hout]⟩
  cases hending : wait.ending outcome with
  | attempt => exact hleave .busy rfl (by simp [step, hpc, ho, hending])
  | error => exact hleave .over rfl (by simp [step, hpc, ho, hending])
  | cancelledError => exact hleave .over rfl (by simp [step, hpc, ho, hending])
  | timeoutError =>
      by_cases hraised : outcome = .raised
      · subst hraised
        exact hleave .over rfl (by simp [step, hpc, ho, hending])
      · have hstep : step s (.resume d) = some (s.goto d (.recording wait.task)) := by
          cases outcome <;> simp_all [step]
        refine ⟨[.resume d, .recorded d], by simp, (s.goto d (.recording wait.task)).leave d .busy,
          ?_, rfl, ?_⟩
        · rw [Run.exec_cons hstep]
          simp [Run.exec, step]
        · simp [Pc.holds]

theorem Inv.backpressured (h : Inv max s) : Backpressured max s where
  cap G hG := by
    have hexists : ∀ i, s.Running i → ∃ d, (s.pc d).holds ∧ s.HoldsFor d i := by
      intro i hrun
      obtain ⟨d, wait, hpc, rfl⟩ := h.awaits.awaited i hrun
      exact ⟨d, by simp [hpc, Pc.holds], by simp [State.HoldsFor, hpc, Pc.task]⟩
    choose! owner hholds hfor using hexists
    have hinj : Set.InjOn owner G := by
      intro i hi j hj hij
      have hsame := hfor i (hG i hi)
      rw [hij] at hsame
      exact Option.some.inj (hsame.symm.trans (hfor j (hG j hj)))
    exact h.balanced.card_le_of_injOn hinj fun i hi => hholds i (hG i hi)
  held i hrun := by
    obtain ⟨d, wait, hpc, rfl⟩ := h.awaits.awaited i hrun
    exact ⟨d, by simp [State.HoldsFor, hpc, Pc.task]⟩
  released d hin := by
    cases hpc : s.pc d <;> simp only [hpc, Pc.holds, Bool.false_eq_true] at hin
    case granted => exact .inl rfl
    case recording i => exact .inr (.inr (givesBack_of_recording hpc))
    case awaiting wait =>
      obtain ⟨task, htask⟩ := Option.isSome_iff_exists.1 (h.awaits.known d wait hpc)
      cases task with
      | running c => exact .inr (.inl ⟨wait.task, by simp [State.HoldsFor, hpc, Pc.task], c, htask⟩)
      | ended outcome => exact .inr (.inr (givesBack_of_ended hpc ⟨outcome, htask⟩))
  balanced := h.balanced
  idle hidle := by
    refine h.balanced.eq_limit fun d hin => ?_
    have hd := hidle d
    cases hpc : s.pc d <;> simp_all [Pc.holds, Pc.inProgress]

/-- A dispatch that goes on without an invoke had none that runs. -/
theorem keepsPermit_of_step (h : Inv max s) (ht : Backpressure.step s e = some t) :
    KeepsPermit s e t := by
  intro d i hfor hrun
  have hother : ∀ {q : ℕ} {pc : Pc}, q ≠ d → (Function.update s.pc q pc d).task = some i := by
    intro q pc hq
    rw [Function.update_of_ne (Ne.symm hq)]
    exact hfor
  cases step_cases ht with
  | @outside _ q pc hin hout =>
      refine hother ?_
      rintro rfl
      cases hpc : s.pc q <;> simp_all [State.HoldsFor, Pc.task, Pc.holds]
  | @take q n hpc hn =>
      refine hother ?_
      rintro rfl
      simp [State.HoldsFor, hpc, Pc.task] at hfor
  | @invoke q hpc =>
      refine hother ?_
      rintro rfl
      simp [State.HoldsFor, hpc, Pc.task] at hfor
  | @passOn _ q wait wait' hpc htask _ =>
      by_cases hq : q = d
      · subst hq
        have hi : wait.task = i := by simpa [State.HoldsFor, hpc, Pc.task] using hfor
        simp [State.HoldsFor, Pc.task, htask, hi]
      · exact hother hq
  | @stay _ q pc _ htask _ =>
      by_cases hq : q = d
      · subst hq
        simpa [State.HoldsFor, htask] using hfor
      · exact hother hq
  | finish => exact hfor
  | @leave _ q pc hin hout hended =>
      refine hother ?_
      rintro rfl
      cases hpc : s.pc q <;> simp only [State.HoldsFor, hpc, Pc.task, reduceCtorEq,
        Option.some.injEq] at hfor
      case awaiting wait => exact hrun.not_ended (hfor ▸ hended wait hpc)
      case recording j => exact hrun.not_ended (hfor ▸ h.awaits.recorded q j hpc)

/-- **Backpressure on every exit path.**  Whatever the order in which dispatches
are called, time out or are cancelled, and however their invokes end. -/
theorem backpressured_throughout (max : ℕ) (es : List Event) :
    Run.Throughout step (Backpressured max) (init max) es ∧
      Run.Obeys step KeepsPermit (init max) es := by
  have hstep : ∀ s e t, Inv max s → step s e = some t → Inv max t := fun _ _ _ h ht => h.step ht
  constructor
  · exact (Run.throughout_of_preserved hstep inv_init es).mono fun _ h => h.backpressured
  · exact Run.obeys_of_preserved hstep (fun _ _ _ h ht => keepsPermit_of_step h ht) inv_init es

/-- A dispatch that is cancelled while its invoke runs on: the permit comes back
only after the invoke has ended. -/
example :
    (Run.exec step (init 1) [.call 0, .ask 0, .grant 0, .invoke 0, .cancel 0]).map (·.permits) =
        some 0 ∧
      (Run.exec step (init 1) [.call 0, .ask 0, .grant 0, .invoke 0, .cancel 0,
        .resume 0]).isNone ∧
      (Run.exec step (init 1) [.call 0, .ask 0, .grant 0, .invoke 0, .cancel 0,
        .finish 0 .cancelled, .resume 0]).map (·.permits) = some 1 := by
  decide

end Backpressure
end AgentSwarm
