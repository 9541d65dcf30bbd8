import Mathlib.Algebra.Order.Ring.Rat
import Mathlib.Logic.Function.Basic
import AgentSwarm.Lib.Dict
import AgentSwarm.Lib.Run

/-!
# The task records of a worker

A worker keeps a record of each message it was sent, which the client polls and
which is cleaned up some time after it has come to an end.  The record is written
by the execution of the message alone: when the LLM has answered, and in
`except Exception`.  A cancellation is no `Exception`, and leaves the record as it
is.

* `TaskState`, `Record` — the record of a message.
* `Server`, `Event`, `step` — the handlers and the executions.
* `Recorded` — the record of an execution that has ended says so.
* `Uncancelled` — the condition: no cancellation leaves an execution whose record
  is kept.
* `recorded_iff_uncancelled` — the records are right **exactly** in the runs that
  meet it.
* `never_canceled` — no record is ever `canceled`.
* `early_step`, `terminal_step`, `get_step` — what holds of one message, whatever the
  others do.

A message is a number, which also stands for its record and its execution.
-/

namespace AgentSwarm
namespace Worker

/-- The states of a task, with the one the client takes for a missing state. -/
inductive TaskState where
  | working
  | completed
  | failed
  | canceled
  | unknown
  deriving DecidableEq

/-- `terminal`, of the clean-up and of the client's polling. -/
def TaskState.terminal : TaskState → Bool
  | .completed => true
  | .failed => true
  | .canceled => true
  | _ => false

/-- A record.  An entry of the history has a role and a text. -/
structure Record where
  state : TaskState := .working
  completedAt : Option ℚ := none
  history : List (String × String) := []
  progress : List String := []

/-- Where the execution of a message is. -/
inductive Exec where
  | waiting
  | running
  | ended
  deriving DecidableEq

/-- Where the handler of a message is. -/
inductive Pc where
  /-- At the lock of the clean-up. -/
  | arriving
  /-- At the lock of `_tasks`. -/
  | cleaned
  /-- In `_run`, for a blocking message. -/
  | blocked
  /-- At the lock of `_bg_tasks`, the execution in the background. -/
  | spawned
  | answered
  deriving DecidableEq

/-- The worker's server: its globals, with what its handlers hold. -/
structure Server where
  records : ℕ → Record
  exec : ℕ → Exec
  pc : ℕ → Pc
  /-- `_tasks`. -/
  tasks : Dict String ℕ
  /-- `_bg_tasks`. -/
  bgTasks : Dict String ℕ
  /-- The executions that `cancel()` was called on. -/
  cancelled : ℕ → Bool
  lastCleanup : ℚ

/-- A server that has just started. -/
def init : Server where
  records _ := {}
  exec _ := .waiting
  pc _ := .arriving
  tasks := []
  bgTasks := []
  cancelled _ := false
  lastCleanup := 0

/-- What happens next.  `now` is `time.time()`, and `taskId` what `uuid4` gives. -/
inductive Event where
  /-- `message/send` arrives, and cleans up. -/
  | send (r : ℕ) (now : ℚ)
  | insert (r : ℕ) (taskId text : String)
  | progress (r : ℕ) (event : String)
  /-- `call_llm` has returned. -/
  | returns (r : ℕ) (result : String) (now : ℚ)
  /-- `call_llm` has raised an `Exception`. -/
  | raises (r : ℕ) (text : String) (now : ℚ)
  /-- A `CancelledError` leaves `call_llm`: after `cancel()`, or because the server
  gives up the handler of a blocking message. -/
  | cancels (r : ℕ)
  | register (r : ℕ) (taskId : String)
  /-- `tasks/get`. -/
  | get (taskId : String)
  /-- `tasks/cancel`. -/
  | cancelTask (taskId : String)

namespace Server

/-- A record is past its time. -/
def expired (s : Server) (now : ℚ) (r : ℕ) : Bool :=
  (s.records r).state.terminal && decide (300 < now - ((s.records r).completedAt.getD now))

/-- `_cleanup_old_tasks`. -/
def cleanup (s : Server) (now : ℚ) : Server :=
  if now - s.lastCleanup < 60 then s
  else
    let ids := Dict.keys (s.tasks.filter fun p => s.expired now p.2)
    { s with
      lastCleanup := now
      tasks := s.tasks.filter fun p => !s.expired now p.2
      bgTasks := s.bgTasks.filter fun p => decide (p.1 ∉ ids) }

/-- The record of `r` is changed, and its execution is over. -/
def finish (s : Server) (r : ℕ) (state : TaskState) (text : String) (now : ℚ) : Server :=
  let old := s.records r
  let record := {
    old with state := state, completedAt := some now, history := old.history ++ [("agent", text)] }
  { s with records := Function.update s.records r record, exec := Function.update s.exec r .ended }

/-- `handle_cancel_task`: the answer is `canceled`, or an error. -/
def cancelTask (s : Server) (taskId : String) : Bool × Server :=
  match s.bgTasks.get taskId with
  | none => (false, s)
  | some r =>
      if s.exec r = .ended then (false, s)
      else (true, { s with cancelled := Function.update s.cancelled r true })

/-- `handle_get_task`: the record, or an error. -/
def getTask (s : Server) (taskId : String) : Option Record := (s.tasks.get taskId).map s.records

end Server

/-- One step.  `blocking r` is the mode of the message `r`.  An execution that was
cancelled does not return any more; it may still raise. -/
def step (blocking : ℕ → Bool) (s : Server) : Event → Option Server
  | .send r now =>
      match s.pc r with
      | .arriving => some { s.cleanup now with pc := Function.update s.pc r .cleaned }
      | _ => none
  | .insert r taskId text =>
      match s.pc r with
      | .cleaned => some { s with
          records := Function.update s.records r { history := [("user", text)] }
          exec := Function.update s.exec r .running
          tasks := s.tasks.set taskId r
          pc := Function.update s.pc r (if blocking r then .blocked else .spawned) }
      | _ => none
  | .progress r event =>
      match s.exec r with
      | .running =>
          let record := { s.records r with progress := (s.records r).progress ++ [event] }
          some { s with records := Function.update s.records r record }
      | _ => none
  | .returns r result now =>
      match s.exec r, s.cancelled r with
      | .running, false => some (s.finish r .completed result now)
      | _, _ => none
  | .raises r text now =>
      match s.exec r with
      | .running => some (s.finish r .failed ("Error: " ++ text) now)
      | _ => none
  | .cancels r =>
      match s.exec r with
      | .running => some { s with exec := Function.update s.exec r .ended }
      | _ => none
  | .register r taskId =>
      match s.pc r with
      | .spawned => some { s with
          bgTasks := s.bgTasks.set taskId r, pc := Function.update s.pc r .answered }
      | _ => none
  | .get _ => some s
  | .cancelTask taskId => some (s.cancelTask taskId).2

/-! ## The property and the condition -/

/-- A record that says that its execution has ended. -/
def Record.Over (record : Record) : Prop :=
  record.state.terminal = true ∧ record.completedAt.isSome

/-- Each record that is kept, of an execution that has ended, says so. -/
def Recorded (s : Server) : Prop :=
  ∀ taskId r, s.tasks.get taskId = some r → s.exec r = .ended → (s.records r).Over

/-- No cancellation leaves an execution whose record is kept. -/
def Uncancelled (s : Server) : Event → Prop
  | .cancels r => s.exec r = .running → ∀ taskId, s.tasks.get taskId ≠ some r
  | _ => True

/-! ## One step -/

/-- An execution under way has a working record, and no id is kept twice. -/
structure Under (s : Server) : Prop where
  nodup : s.tasks.NodupKeys
  working : ∀ r, s.exec r = .running → (s.records r).state = .working

variable {blocking : ℕ → Bool} {s t : Server} {e : Event} {taskId : String} {r : ℕ} {now : ℚ}

theorem under_init : Under init where
  nodup := List.nodup_nil
  working _ h := by cases h

theorem recorded_init : Recorded init := by
  intro taskId r h
  cases h

theorem cleanup_records (s : Server) (now : ℚ) : (s.cleanup now).records = s.records := by
  unfold Server.cleanup
  split <;> rfl

theorem cleanup_exec (s : Server) (now : ℚ) : (s.cleanup now).exec = s.exec := by
  unfold Server.cleanup
  split <;> rfl

/-- What a clean-up that is due leaves of the records. -/
theorem get_cleanup (h : Under s) (hdue : 60 ≤ now - s.lastCleanup) :
    (s.cleanup now).tasks.get taskId =
      (s.tasks.get taskId).filter fun r => !s.expired now r := by
  unfold Server.cleanup
  rw [if_neg (not_lt.2 hdue)]
  exact Dict.get_filter h.nodup _ _

/-- What the clean-up keeps was there. -/
theorem get_of_get_cleanup (h : Under s) (hget : (s.cleanup now).tasks.get taskId = some r) :
    s.tasks.get taskId = some r := by
  by_cases hdue : now - s.lastCleanup < 60
  · unfold Server.cleanup at hget
    rwa [if_pos hdue] at hget
  · rw [get_cleanup h (not_lt.1 hdue)] at hget
    exact (Option.filter_eq_some_iff.1 hget).1

/-- A record that says that its execution has ended is cleaned up in the end. -/
theorem cleanup_removes (h : Under s) (hdue : 60 ≤ now - s.lastCleanup)
    (hget : s.tasks.get taskId = some r) (hover : (s.records r).Over)
    (hlate : ∀ at_, (s.records r).completedAt = some at_ → 300 < now - at_) :
    (s.cleanup now).tasks.get taskId = none := by
  obtain ⟨at_, hat⟩ := Option.isSome_iff_exists.1 hover.2
  have hexpired : s.expired now r = true := by
    simp [Server.expired, hover.1, hat, hlate at_ hat]
  rw [get_cleanup h hdue, hget]
  simp [Option.filter, hexpired]

/-- A record that does not is never cleaned up. -/
theorem cleanup_leaves (h : Under s) (hget : s.tasks.get taskId = some r)
    (hstate : (s.records r).state.terminal = false) (now : ℚ) :
    (s.cleanup now).tasks.get taskId = some r := by
  by_cases hdue : now - s.lastCleanup < 60
  · unfold Server.cleanup
    rwa [if_pos hdue]
  · rw [get_cleanup h (not_lt.1 hdue), hget]
    simp [Option.filter, Server.expired, hstate]

theorem nodup_cleanup (h : Under s) (now : ℚ) : (s.cleanup now).tasks.NodupKeys := by
  unfold Server.cleanup
  split
  · exact h.nodup
  · exact h.nodup.filter _

/-- `cancel()` changes no record: the execution is still under way. -/
theorem cancelTask_cases (s : Server) (taskId : String) :
    (s.cancelTask taskId).2 = s ∨ ∃ r, s.bgTasks.get taskId = some r ∧ s.exec r ≠ .ended ∧
      (s.cancelTask taskId).2 = { s with cancelled := Function.update s.cancelled r true } := by
  unfold Server.cancelTask
  split
  · exact Or.inl rfl
  · rename_i r hget
    split
    · exact Or.inl rfl
    · rename_i hexec
      exact Or.inr ⟨r, hget, hexec, rfl⟩

theorem cancelTask_same (s : Server) (taskId : String) :
    (s.cancelTask taskId).2.records = s.records ∧ (s.cancelTask taskId).2.exec = s.exec ∧
      (s.cancelTask taskId).2.tasks = s.tasks := by
  rcases cancelTask_cases s taskId with heq | ⟨r, -, -, heq⟩ <;> rw [heq] <;> exact ⟨rfl, rfl, rfl⟩

/-- What is under way after the execution of `r` has ended was under way before. -/
theorem running_of_ended {r' : ℕ} (h : Function.update s.exec r .ended r' = .running) :
    r' ≠ r ∧ s.exec r' = .running := by
  by_cases hr : r' = r
  · subst hr
    rw [Function.update_self] at h
    cases h
  · rw [Function.update_of_ne hr] at h
    exact ⟨hr, h⟩

theorem uncancelled_of_ne (h : ∀ r, e ≠ .cancels r) : Uncancelled s e := by
  cases e with
  | cancels r => exact absurd rfl (h r)
  | _ => trivial

/-- What a step does to the records, the executions and `_tasks`. -/
inductive Effect (s t : Server) (e : Event) : Prop where
  /-- Nothing, unless records are cleaned up. -/
  | keeps (records : t.records = s.records) (exec : t.exec = s.exec)
      (tasks : t.tasks = s.tasks ∨ ∃ now, t.tasks = (s.cleanup now).tasks)
      (event : ∀ r, e ≠ .cancels r)
  | inserts (r : ℕ) (taskId text : String)
      (records : t.records = Function.update s.records r { history := [("user", text)] })
      (exec : t.exec = Function.update s.exec r .running) (tasks : t.tasks = s.tasks.set taskId r)
      (event : e = .insert r taskId text)
  /-- An execution reports its progress. -/
  | reports (r : ℕ) (record : Record) (running : s.exec r = .running)
      (state : record.state = (s.records r).state)
      (records : t.records = Function.update s.records r record) (exec : t.exec = s.exec)
      (tasks : t.tasks = s.tasks) (event : ∀ r, e ≠ .cancels r)
  | finishes (r : ℕ) (state : TaskState) (text : String) (now : ℚ)
      (final : state = .completed ∨ state = .failed) (finish : t = s.finish r state text now)
      (event : ∀ r, e ≠ .cancels r)
  | cancels (r : ℕ) (running : s.exec r = .running) (records : t.records = s.records)
      (exec : t.exec = Function.update s.exec r .ended) (tasks : t.tasks = s.tasks)
      (event : e = .cancels r)

theorem step_effect (hstep : step blocking s e = some t) : Effect s t e := by
  cases e with
  | send r now =>
      simp only [step] at hstep
      split at hstep <;> cases hstep
      exact .keeps (cleanup_records s now) (cleanup_exec s now) (Or.inr ⟨now, rfl⟩) nofun
  | insert r taskId text =>
      simp only [step] at hstep
      split at hstep <;> cases hstep
      exact .inserts r taskId text rfl rfl rfl rfl
  | progress r event =>
      simp only [step] at hstep
      split at hstep <;> cases hstep
      rename_i hrun
      let record := { s.records r with progress := (s.records r).progress ++ [event] }
      exact .reports r record hrun rfl rfl rfl rfl nofun
  | returns r result now =>
      simp only [step] at hstep
      split at hstep <;> cases hstep
      exact .finishes r .completed result now (Or.inl rfl) rfl nofun
  | raises r text now =>
      simp only [step] at hstep
      split at hstep <;> cases hstep
      exact .finishes r .failed ("Error: " ++ text) now (Or.inr rfl) rfl nofun
  | cancels r =>
      simp only [step] at hstep
      split at hstep <;> cases hstep
      rename_i hrun
      exact .cancels r hrun rfl rfl rfl rfl
  | register r taskId =>
      simp only [step] at hstep
      split at hstep <;> cases hstep
      exact .keeps rfl rfl (Or.inl rfl) nofun
  | get taskId =>
      cases hstep
      exact .keeps rfl rfl (Or.inl rfl) nofun
  | cancelTask taskId =>
      cases hstep
      obtain ⟨hrecords, hexec, htasks⟩ := cancelTask_same s taskId
      exact .keeps hrecords hexec (Or.inl htasks) nofun

/-- The handlers and the executions keep the invariant. -/
theorem under_step (h : Under s) (hstep : step blocking s e = some t) : Under t := by
  cases step_effect hstep with
  | keeps hrecords hexec htasks =>
      refine ⟨?_, by rw [hrecords, hexec]; exact h.working⟩
      rcases htasks with htasks | ⟨now, htasks⟩
      · exact htasks ▸ h.nodup
      · exact htasks ▸ nodup_cleanup h now
  | inserts r taskId text hrecords hexec htasks =>
      refine ⟨htasks ▸ h.nodup.set taskId r, fun r' hrun => ?_⟩
      rw [hexec] at hrun
      rw [hrecords]
      by_cases hr : r' = r
      · subst hr
        rw [Function.update_self]
      · rw [Function.update_of_ne hr] at hrun ⊢
        exact h.working r' hrun
  | reports r record hrunning hstate hrecords hexec htasks =>
      refine ⟨htasks ▸ h.nodup, fun r' hrun => ?_⟩
      rw [hrecords]
      by_cases hr : r' = r
      · subst hr
        rw [Function.update_self, hstate]
        exact h.working r' hrunning
      · rw [Function.update_of_ne hr]
        exact h.working r' (hexec ▸ hrun)
  | finishes r state text now hfinal hfinish =>
      subst hfinish
      refine ⟨h.nodup, fun r' hrun => ?_⟩
      obtain ⟨hr, hrun'⟩ := running_of_ended hrun
      simpa [Server.finish, Function.update_of_ne hr] using h.working r' hrun'
  | cancels r hrunning hrecords hexec htasks =>
      refine ⟨htasks ▸ h.nodup, fun r' hrun => ?_⟩
      rw [hexec] at hrun
      rw [hrecords]
      exact h.working r' (running_of_ended hrun).2

/-- **The step.**  What keeps the records right is exactly the condition. -/
theorem recorded_step (h : Under s) (hrec : Recorded s) (hstep : step blocking s e = some t) :
    Recorded t ↔ Uncancelled s e := by
  cases step_effect hstep with
  | keeps hrecords hexec htasks hevent =>
      refine iff_of_true (fun taskId r hget hended => ?_) (uncancelled_of_ne hevent)
      rw [hrecords]
      refine hrec taskId r ?_ (hexec ▸ hended)
      rcases htasks with htasks | ⟨now, htasks⟩
      · rwa [htasks] at hget
      · rw [htasks] at hget
        exact get_of_get_cleanup h hget
  | inserts r taskId text hrecords hexec htasks hevent =>
      subst hevent
      refine iff_of_true (fun taskId' r' hget hended => ?_) trivial
      have hr : r' ≠ r := by
        rintro rfl
        simp [hexec] at hended
      have hkey : taskId' ≠ taskId := by
        rintro rfl
        rw [htasks, Dict.get_set_self] at hget
        exact hr (Option.some.inj hget).symm
      rw [htasks, Dict.get_set_of_ne _ _ hkey] at hget
      rw [hexec, Function.update_of_ne hr] at hended
      rw [hrecords, Function.update_of_ne hr]
      exact hrec taskId' r' hget hended
  | reports r record hrunning hstate hrecords hexec htasks hevent =>
      refine iff_of_true (fun taskId r' hget hended => ?_) (uncancelled_of_ne hevent)
      rw [htasks] at hget
      rw [hexec] at hended
      have hr : r' ≠ r := by
        rintro rfl
        rw [hrunning] at hended
        cases hended
      rw [hrecords, Function.update_of_ne hr]
      exact hrec taskId r' hget hended
  | finishes r state text now hfinal hfinish hevent =>
      subst hfinish
      refine iff_of_true (fun taskId r' hget hended => ?_) (uncancelled_of_ne hevent)
      by_cases hr : r' = r
      · subst hr
        rcases hfinal with rfl | rfl <;> simp [Server.finish, Record.Over, TaskState.terminal]
      · have hended' : s.exec r' = .ended := by
          simpa [Server.finish, Function.update_of_ne hr] using hended
        simpa [Server.finish, Function.update_of_ne hr] using hrec taskId r' hget hended'
  | cancels r hrunning hrecords hexec htasks hevent =>
      subst hevent
      constructor
      · -- The record is left as it was, and so it is still working.
        intro hrec' _ taskId hget
        have hover := (hrec' taskId r (htasks ▸ hget) (by simp [hexec])).1
        rw [hrecords, h.working r hrunning] at hover
        cases hover
      · intro hun taskId r' hget hended
        rw [htasks] at hget
        have hr : r' ≠ r := by
          rintro rfl
          exact hun hrunning taskId hget
        rw [hexec, Function.update_of_ne hr] at hended
        rw [hrecords]
        exact hrec taskId r' hget hended

/-- A step that is not possible is no cancellation. -/
theorem uncancelled_of_stuck (hstep : step blocking s e = none) : Uncancelled s e := by
  cases e with
  | cancels r =>
      intro hrun
      simp [step, hrun] at hstep
  | _ => trivial

/-! ## One message -/

/-- The message has no record yet. -/
def Pc.early : Pc → Bool
  | .arriving => true
  | .cleaned => true
  | _ => false

/-- A message is inserted once. -/
theorem early_step (hstep : step blocking s e = some t) (hearly : (t.pc r).early = true) :
    (s.pc r).early = true := by
  have hmove (r' : ℕ) (pc : Pc) (hpc : pc.early = true → (s.pc r').early = true)
      (h : (Function.update s.pc r' pc r).early = true) : (s.pc r).early = true := by
    by_cases hr : r = r'
    · subst hr
      exact hpc (by simpa using h)
    · rwa [Function.update_of_ne hr] at h
  cases e with
  | send r' now =>
      simp only [step] at hstep
      split at hstep <;> cases hstep
      rename_i hpc
      exact hmove r' .cleaned (fun _ => by rw [hpc]; rfl) hearly
  | insert r' taskId text =>
      simp only [step] at hstep
      split at hstep <;> cases hstep
      rename_i hpc
      exact hmove r' _ (fun _ => by rw [hpc]; rfl) hearly
  | register r' taskId =>
      simp only [step] at hstep
      split at hstep <;> cases hstep
      exact hmove r' .answered nofun hearly
  | cancelTask taskId =>
      cases hstep
      rcases cancelTask_cases s taskId with heq | ⟨r', -, -, heq⟩ <;> rwa [heq] at hearly
  | get taskId =>
      cases hstep
      exact hearly
  | _ =>
      simp only [step] at hstep
      split at hstep <;> cases hstep
      exact hearly

/-- A message that is inserted has a record from then on, and the id leads to it. -/
theorem insert_step {r : ℕ} {text : String}
    (hstep : step blocking s (.insert r taskId text) = some t) :
    (s.pc r).early = true ∧ (t.pc r).early = false ∧ t.tasks.get taskId = some r := by
  simp only [step] at hstep
  split at hstep <;> cases hstep
  rename_i hpc
  refine ⟨by rw [hpc]; rfl, ?_, Dict.get_set_self _ _ _⟩
  dsimp only
  rw [Function.update_self]
  split <;> rfl

/-- A record that is final stays so. -/
theorem terminal_step (hinserted : (s.pc r).early = false)
    (hstep : step blocking s e = some t) (hfinal : (s.records r).state.terminal = true) :
    (t.records r).state.terminal = true := by
  cases step_effect hstep with
  | keeps hrecords => rwa [hrecords]
  | inserts r' taskId text hrecords hexec htasks hevent =>
      subst hevent
      have hr : r ≠ r' := by
        rintro rfl
        rw [(insert_step hstep).1] at hinserted
        cases hinserted
      rwa [hrecords, Function.update_of_ne hr]
  | reports r' record hrunning hstate hrecords =>
      rw [hrecords]
      by_cases hr : r = r'
      · subst hr
        rwa [Function.update_self, hstate]
      · rwa [Function.update_of_ne hr]
  | finishes r' state text now hstate hfinish =>
      subst hfinish
      by_cases hr : r = r'
      · subst hr
        rcases hstate with rfl | rfl <;> simp [Server.finish, TaskState.terminal]
      · simpa [Server.finish, Function.update_of_ne hr] using hfinal
  | cancels r' hrunning hrecords => rwa [hrecords]

/-- An id that is not given again leads to its own record. -/
theorem get_step (h : Under s) (hstep : step blocking s e = some t)
    (hfresh : ∀ r' text, e ≠ .insert r' taskId text) (hget : t.tasks.get taskId = some r) :
    s.tasks.get taskId = some r := by
  cases step_effect hstep with
  | keeps hrecords hexec htasks =>
      rcases htasks with htasks | ⟨now, htasks⟩
      · rwa [htasks] at hget
      · rw [htasks] at hget
        exact get_of_get_cleanup h hget
  | inserts r' taskId' text hrecords hexec htasks hevent =>
      have hne : taskId ≠ taskId' := by
        rintro rfl
        exact hfresh r' text hevent
      rwa [htasks, Dict.get_set_of_ne _ _ hne] at hget
  | reports r' record hrunning hstate hrecords hexec htasks => rwa [htasks] at hget
  | finishes r' state text now hfinal hfinish =>
      subst hfinish
      exact hget
  | cancels r' hrunning hrecords hexec htasks => rwa [htasks] at hget

/-! ## Whole runs -/

/-- **The records say when an execution has ended exactly if none is cancelled**
whose record is kept. -/
theorem recorded_iff_uncancelled (blocking : ℕ → Bool) (events : List Event) :
    Run.Throughout (step blocking) Recorded init events ↔
      Run.Along (step blocking) Uncancelled init events :=
  Run.throughout_iff_along (B := Under) (fun _ _ _ => under_step)
    (fun _ _ _ => recorded_step) (fun _ _ _ => uncancelled_of_stuck) under_init recorded_init

/-- A message that is cancelled while the LLM works on it. -/
def cancelledRun : List Event := [
  .send 0 1000, .insert 0 "3f2a" "write the tests", .register 0 "3f2a", .cancelTask "3f2a",
  .cancels 0]

/-- The record of a message that was cancelled stays `working`. -/
theorem cancelled_not_recorded :
    ¬ Run.Throughout (step fun _ => false) Recorded init cancelledRun := by
  intro h
  have hrun : (Run.exec (step fun _ => false) init cancelledRun).map
      (fun t => (t.tasks.get "3f2a", t.exec 0, (t.records 0).state)) =
        some (some 0, .ended, .working) := by decide +kernel
  obtain ⟨t, ht, hend⟩ := Option.map_eq_some_iff.1 hrun
  obtain ⟨hget, hexec, hstate⟩ : t.tasks.get "3f2a" = some 0 ∧ t.exec 0 = .ended ∧
      (t.records 0).state = .working := by simpa using hend
  have hover := (h.last ht "3f2a" 0 hget hexec).1
  rw [hstate] at hover
  cases hover

/-! ## The state no record has -/

/-- No record is `canceled`, although `tasks/cancel` answers that it is. -/
def NoneCanceled (s : Server) : Prop := ∀ r, (s.records r).state ≠ .canceled

theorem noneCanceled_update (h : NoneCanceled s) {record : Record} (r : ℕ)
    (hrecord : record.state ≠ .canceled) (r' : ℕ) :
    (Function.update s.records r record r').state ≠ .canceled := by
  by_cases hr : r' = r
  · subst hr
    rwa [Function.update_self]
  · rw [Function.update_of_ne hr]
    exact h r'

theorem noneCanceled_step (h : NoneCanceled s) (hstep : step blocking s e = some t) :
    NoneCanceled t := by
  cases step_effect hstep with
  | keeps hrecords hexec htasks =>
      rw [NoneCanceled, hrecords]
      exact h
  | inserts r taskId text hrecords hexec htasks =>
      rw [NoneCanceled, hrecords]
      exact noneCanceled_update h r nofun
  | reports r record hrunning hstate hrecords hexec htasks =>
      rw [NoneCanceled, hrecords]
      exact noneCanceled_update h r (hstate ▸ h r)
  | finishes r state text now hfinal hfinish =>
      subst hfinish
      refine noneCanceled_update h r ?_
      rcases hfinal with rfl | rfl <;> nofun
  | cancels r hrunning hrecords hexec htasks =>
      rw [NoneCanceled, hrecords]
      exact h

/-- **No poller sees `canceled`**, in any run. -/
theorem never_canceled (blocking : ℕ → Bool) (events : List Event) :
    Run.Throughout (step blocking) NoneCanceled init events := by
  have hinit : NoneCanceled init := fun r => nofun
  exact Run.throughout_of_preserved (fun _ _ _ => noneCanceled_step) hinit events

end Worker
end AgentSwarm
