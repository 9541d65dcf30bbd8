import AgentSwarm.ContainerPool.Pool
import AgentSwarm.Worker.Tasks

/-!
# Handing a worker back

`DockerBackend.invoke` sends its message to the worker of a container, polls the
task that the worker has made of it, and returns the container.  There are many
ways to stop waiting for the task, and only one of them tells the worker: a
cancellation, once `send_message` has returned the task's id.

* `A2ATask` — what the client reads of a task.
* `Pc`, `Event`, `step` — the invoke from its `try` block on, its client, and the
  worker with all its messages.
* `HandedBack` — when the container is idle, the task has ended or a `tasks/cancel`
  has been sent.
* `Settles` — the condition: what the invoke gives up has ended, or was never begun.
* `Inv` — the invariant.
* `handedBack_of_settles` — **no busy worker is handed back** in a run that meets the
  condition.
* `step_pool` — the invoke is one of those of the container pool.

The invoke's message is the message `r` of the worker, and `blocking r` says that it
has no `on_progress`.
-/

namespace AgentSwarm
namespace Handover

open Worker (TaskState Record Server Under)

/-- `A2ATask`, less the artifacts. -/
structure A2ATask where
  taskId : String
  state : TaskState
  message : String := ""
  progress : List String := []
  deriving DecidableEq

/-- `_extract_text`, of a history. -/
def extractText (history : List (String × String)) : String :=
  ((history.reverse.find? fun item => item.1 == "agent").map Prod.snd).getD ""

/-- What the client reads of a record. -/
def snapshot (taskId : String) (record : Record) : A2ATask where
  taskId := taskId
  state := record.state
  message := extractText record.history
  progress := record.progress

/-- What `poll_task` compares. -/
def A2ATask.key (task : A2ATask) : TaskState × String × ℕ :=
  (task.state, task.message, task.progress.length)

/-- The place of an invoke with a container. -/
inductive Pc where
  /-- Awaiting `send_message`. -/
  | sending
  /-- Awaiting `get_task`. -/
  | asking
  /-- Awaiting `on_progress` for a snapshot. -/
  | forwarding (snap : A2ATask)
  /-- Asleep between two polls. -/
  | asleep
  /-- Awaiting `cancel_task`. -/
  | cancelling
  /-- Awaiting `client.close()`. -/
  | closing
  /-- Awaiting `return_container`. -/
  | returning
  | ended
  deriving DecidableEq

/-- An invoke, and the worker of its container. -/
structure Sys where
  worker : Server
  /-- The id of the task that the worker has made of the message. -/
  started : Option String
  pc : Pc
  a2aTask : Option A2ATask
  lastKey : Option (TaskState × String × ℕ)
  /-- The answer to `tasks/get` that is on its way. -/
  reply : Option A2ATask
  /-- The id in the `tasks/cancel` that has been sent. -/
  cancelSent : Option String
  /-- `return_container` has made the container idle. -/
  idle : Bool

/-- An invoke that begins its `try` block. -/
def start (worker : Server) : Sys where
  worker := worker
  started := none
  pc := .sending
  a2aTask := none
  lastKey := none
  reply := none
  cancelSent := none
  idle := false

/-- What happens next. -/
inductive Event where
  /-- The worker takes a step. -/
  | worker (e : Worker.Event)
  /-- The response to `message/send` arrives. -/
  | responded
  /-- `send_message` returns `None`: after an error, a timeout or another status. -/
  | sendFails
  /-- The worker answers `tasks/get`. -/
  | answers
  /-- The answer arrives. -/
  | polled
  /-- `get_task` returns `None`. -/
  | unanswered
  /-- `on_progress` has returned or raised an `Exception`. -/
  | forwarded
  /-- The sleep is over, and the deadline may have passed. -/
  | slept (late : Bool)
  /-- An `Exception` leaves the `try` block. -/
  | raises
  /-- A `CancelledError` is thrown in. -/
  | cancel
  /-- The `tasks/cancel` goes out. -/
  | cancelIssued
  /-- `cancel_task` returns. -/
  | cancelOver
  | closed
  | returned

/-- The id that `uuid4` gives a message. -/
def inserted : Event → Option (ℕ × String)
  | .worker (.insert r taskId _) => some (r, taskId)
  | _ => none

variable (blocking : ℕ → Bool) (r : ℕ)

/-- The response of the worker to `message/send`, when there is one. -/
def response (s : Sys) : Option A2ATask :=
  match s.started with
  | none => none
  | some taskId =>
      if blocking r then
        if s.worker.exec r = .ended ∧ (s.worker.records r).state.terminal then
          some (snapshot taskId (s.worker.records r))
        else none
      else if s.worker.pc r = .answered then some { taskId := taskId, state := .working }
      else none

/-- What `tasks/get` answers: a task that is gone is read as an `unknown` one. -/
def answer (s : Sys) (taskId : String) : A2ATask :=
  match s.worker.getTask taskId with
  | some record => snapshot taskId record
  | none => { taskId := taskId, state := .unknown }

/-- After a snapshot: `poll_task` stops or sleeps. -/
def afterSnapshot (task : A2ATask) : Pc := if task.state.terminal then .closing else .asleep

/-- `except CancelledError`. -/
def onCancel (s : Sys) : Pc :=
  match s.a2aTask with
  | some task => if task.taskId ≠ "" then .cancelling else .closing
  | none => .closing

/-- A step of the worker. -/
def workerStep (s : Sys) (e : Worker.Event) : Option Sys :=
  match Worker.step blocking s.worker e with
  | none => none
  | some worker =>
      some { s with
        worker := worker
        started := match inserted (.worker e) with
          | some (r', taskId) => if r' = r then some taskId else s.started
          | none => s.started }

/-- A step of the invoke, with its client. -/
def invokeStep (s : Sys) (e : Event) : Option Sys :=
  match s.pc, e with
  | .sending, .responded =>
      match response blocking r s with
      | some task =>
          some { s with a2aTask := some task, pc := if blocking r then .closing else .asking }
      | none => none
  | .sending, .sendFails => some { s with pc := .closing }
  | .asking, .answers => some { s with reply := s.a2aTask.map fun task => answer s task.taskId }
  | .asking, .polled =>
      match s.reply with
      | some task =>
          if some task.key ≠ s.lastKey then
            some { s with reply := none, lastKey := some task.key, pc := .forwarding task }
          else some { s with reply := none, pc := afterSnapshot task }
      | none => none
  | .asking, .unanswered => some { s with reply := none, pc := .asleep }
  | .forwarding snap, .forwarded => some { s with a2aTask := some snap, pc := afterSnapshot snap }
  | .asleep, .slept late => some { s with pc := if late then .closing else .asking }
  | .sending, .raises => some { s with pc := .closing }
  | .asking, .raises => some { s with pc := .closing }
  | .sending, .cancel => some { s with pc := onCancel s }
  | .asking, .cancel => some { s with pc := onCancel s }
  | .forwarding _, .cancel => some { s with pc := onCancel s }
  | .asleep, .cancel => some { s with pc := onCancel s }
  | .cancelling, .cancelIssued => some { s with cancelSent := s.a2aTask.map A2ATask.taskId }
  | .cancelling, .cancelOver => some { s with pc := .closing }
  | .cancelling, .cancel => some { s with pc := .closing }
  | .closing, .closed => some { s with pc := .returning }
  | .closing, .cancel => some { s with pc := .ended }
  | .returning, .returned => some { s with pc := .ended, idle := true }
  | .returning, .cancel => some { s with pc := .ended }
  | _, _ => none

/-- One step of the invoke or of the worker. -/
def step (s : Sys) (e : Event) : Option Sys :=
  match e with
  | .worker e' => workerStep blocking r s e'
  | e => invokeStep blocking r s e

/-! ## The property and the condition -/

/-- The worker has no task of the message, or one that has ended, or a `tasks/cancel`
for it has been sent. -/
def Released (s : Sys) : Prop :=
  s.started.isSome → (s.worker.records r).state.terminal = true ∨ s.cancelSent = s.started

/-- The container is idle only with its task released. -/
def HandedBack (s : Sys) : Prop := s.idle = true → Released r s

/-- The invoke stops waiting, and neither has seen the end of the task nor goes on to
cancel it. -/
def givesUp : Pc → Event → Bool
  | .sending, .sendFails => true
  | .sending, .cancel => true
  | _, .raises => true
  | _, .slept late => late
  | .cancelling, .cancelOver => true
  | .cancelling, .cancel => true
  | _, _ => false

/-- What the invoke gives up is released; and the worker inserts the message only
while the invoke waits for its response, under an id that is not given again. -/
def Settles (s : Sys) (e : Event) : Prop :=
  (givesUp s.pc e = true → Released r s) ∧
    ∀ p ∈ inserted e, p.2 ≠ "" ∧ s.started ≠ some p.2 ∧ (p.1 = r → s.pc = .sending)

instance (s : Sys) : Decidable (Released r s) := inferInstanceAs (Decidable (_ → _))

instance (s : Sys) (e : Event) : Decidable (Settles r s e) := inferInstanceAs (Decidable (_ ∧ _))

/-! ## Everything the invoke can do -/

/-- The client knows the id of the task. -/
def Pc.knows : Pc → Bool
  | .asking => true
  | .forwarding _ => true
  | .asleep => true
  | .cancelling => true
  | _ => false

/-- The `try` block is over. -/
def Pc.over : Pc → Bool
  | .closing => true
  | .returning => true
  | .ended => true
  | _ => false

/-- The transitions of the invoke, by what they need. -/
inductive Moved (s : Sys) (e : Event) : Sys → Prop
  | responds {task} (hpc : s.pc = .sending) (htask : response blocking r s = some task) :
      Moved s e { s with a2aTask := some task, pc := if blocking r then .closing else .asking }
  /-- The `try` block is left without the end of the task. -/
  | leaves (hgives : givesUp s.pc e = true) (hat : s.pc.over = false) :
      Moved s e { s with pc := .closing }
  | cancels (hpc : s.pc = .sending ∧ e = .cancel ∨ s.pc.knows = true) :
      Moved s e { s with pc := onCancel s }
  | answers (hpc : s.pc = .asking) :
      Moved s e { s with reply := s.a2aTask.map fun task => answer s task.taskId }
  | polls {task lastKey pc} (hpc : s.pc = .asking) (htask : s.reply = some task)
      (hgo : pc = .forwarding task ∨ pc = afterSnapshot task) :
      Moved s e { s with reply := none, lastKey := lastKey, pc := pc }
  | forwards {snap} (hpc : s.pc = .forwarding snap) :
      Moved s e { s with a2aTask := some snap, pc := afterSnapshot snap }
  /-- No answer, or the next poll. -/
  | waits {reply pc} (hpc : s.pc = .asking ∨ s.pc = .asleep) (hreply : reply = none ∨ reply = s.reply)
      (hgo : pc = .asleep ∨ pc = .asking) : Moved s e { s with reply := reply, pc := pc }
  | issues (hpc : s.pc = .cancelling) :
      Moved s e { s with cancelSent := s.a2aTask.map A2ATask.taskId }
  | closes {pc} (hgo : s.pc = .closing ∧ pc = .returning ∨
      (s.pc = .closing ∨ s.pc = .returning) ∧ pc = .ended) : Moved s e { s with pc := pc }
  | returns (hpc : s.pc = .returning) : Moved s e { s with pc := .ended, idle := true }

variable {blocking r} {s t : Sys} {e : Event}

theorem invokeStep_cases (h : invokeStep blocking r s e = some t) : Moved blocking r s e t := by
  unfold invokeStep at h
  split at h
  all_goals try have hpc := ‹s.pc = _›
  case h_1 =>
    split at h <;> cases h
    exact .responds hpc ‹_›
  case h_4 =>
    split at h
    · split at h <;> cases h
      · exact .polls hpc ‹_› (Or.inl rfl)
      · exact .polls hpc ‹_› (Or.inr rfl)
    · cases h
  case h_7 late _ =>
    cases h
    cases late with
    | true => exact .leaves (by rw [hpc]; rfl) (by rw [hpc]; rfl)
    | false => exact .waits (Or.inr hpc) (Or.inr rfl) (Or.inr rfl)
  case h_3 =>
    cases h
    exact .answers hpc
  case h_5 =>
    cases h
    exact .waits (Or.inl hpc) (Or.inl rfl) (Or.inl rfl)
  case h_6 =>
    cases h
    exact .forwards hpc
  case h_10 =>
    cases h
    exact .cancels (Or.inl ⟨hpc, rfl⟩)
  case h_11 | h_12 | h_13 =>
    cases h
    exact .cancels (Or.inr (by rw [hpc]; rfl))
  case h_14 =>
    cases h
    exact .issues hpc
  case h_2 | h_8 | h_9 | h_15 | h_16 =>
    cases h
    exact .leaves (by rw [hpc]; rfl) (by rw [hpc]; rfl)
  case h_17 =>
    cases h
    exact .closes (Or.inl ⟨hpc, rfl⟩)
  case h_18 =>
    cases h
    exact .closes (Or.inr ⟨Or.inl hpc, rfl⟩)
  case h_20 =>
    cases h
    exact .closes (Or.inr ⟨Or.inr hpc, rfl⟩)
  case h_19 =>
    cases h
    exact .returns hpc
  case h_21 => cases h

/-! ## The invariant -/

/-- What the client has read: a final state is the state of the task. -/
def Seen (r : ℕ) (s : Sys) (task : A2ATask) : Prop :=
  s.started = some task.taskId ∧
    (task.state.terminal = true → (s.worker.records r).state.terminal = true)

variable (r) in
/-- What the invoke and the worker agree on. -/
structure Inv (s : Sys) : Prop where
  under : Under s.worker
  inserted : s.started.isSome → (s.worker.pc r).early = false
  own : ∀ taskId, s.started = some taskId →
    taskId ≠ "" ∧ ∀ r', s.worker.tasks.get taskId = some r' → r' = r
  unknown : s.pc = .sending → s.a2aTask = none
  known : s.pc.knows = true → ∃ task, s.a2aTask = some task ∧ s.started = some task.taskId
  reply : ∀ task, s.reply = some task → Seen r s task
  forwarding : ∀ snap, s.pc = .forwarding snap → Seen r s snap
  released : s.pc.over = true → Released r s
  idle : s.idle = true → s.pc.over = true

theorem Inv.handedBack (h : Inv r s) : HandedBack r s := fun hidle => h.released (h.idle hidle)

/-! ## Steps of the worker -/

/-- A step of the worker that does not insert the message, or the one that does. -/
theorem workerStep_cases (h : Inv r s) {e : Worker.Event}
    (hstep : workerStep blocking r s e = some t) :
    ∃ worker, Worker.step blocking s.worker e = some worker ∧
      ((t = { s with worker := worker } ∧ ∀ taskId text, e ≠ .insert r taskId text) ∨
        ∃ taskId text, e = .insert r taskId text ∧ s.started = none ∧
          t = { s with worker := worker, started := some taskId }) := by
  unfold workerStep at hstep
  split at hstep
  · cases hstep
  · rename_i worker hworker
    cases hstep
    refine ⟨worker, hworker, ?_⟩
    cases e with
    | insert r' taskId text =>
        by_cases hr : r' = r
        · subst hr
          refine Or.inr ⟨taskId, text, rfl, ?_, by simp [inserted]⟩
          by_contra hne
          have hearly := h.inserted (Option.isSome_iff_ne_none.2 hne)
          rw [(Worker.insert_step hworker).1] at hearly
          cases hearly
        · refine Or.inl ⟨by simp [inserted, hr], ?_⟩
          rintro taskId' text' heq
          cases heq
          exact hr rfl
    | _ => exact Or.inl ⟨rfl, nofun⟩

/-- The task that a step of the worker leaves as it is, or brings to its end. -/
theorem terminal_of_workerStep (h : Inv r s) {e : Worker.Event} {worker : Server}
    (hworker : Worker.step blocking s.worker e = some worker) (hstarted : s.started.isSome)
    (hfinal : (s.worker.records r).state.terminal = true) :
    (worker.records r).state.terminal = true :=
  Worker.terminal_step (h.inserted hstarted) hworker hfinal

theorem inv_worker (h : Inv r s) {e : Worker.Event} (hok : Settles r s (.worker e))
    (hstep : workerStep blocking r s e = some t) : Inv r t := by
  obtain ⟨worker, hworker, ⟨rfl, hother⟩ | ⟨taskId, text, rfl, hnone, rfl⟩⟩ :=
    workerStep_cases h hstep
  · have hseen : ∀ task, Seen r s task → Seen r { s with worker := worker } task :=
      fun task hseen => ⟨hseen.1, fun hfinal =>
        terminal_of_workerStep h hworker (by simp [hseen.1]) (hseen.2 hfinal)⟩
    refine ⟨Worker.under_step h.under hworker, ?_, ?_, h.unknown, h.known,
      fun task htask => hseen task (h.reply task htask),
      fun snap hpc => hseen snap (h.forwarding snap hpc), ?_, h.idle⟩
    · intro hstarted
      cases hearly : (worker.pc r).early with
      | false => rfl
      | true =>
          have hearly' := h.inserted hstarted
          rw [Worker.early_step hworker hearly] at hearly'
          cases hearly'
    · intro taskId hstarted
      obtain ⟨hne, hown⟩ := h.own taskId hstarted
      refine ⟨hne, fun r' hget => hown r' (Worker.get_step h.under hworker ?_ hget)⟩
      rintro r'' text rfl
      exact (hok.2 (r'', taskId) rfl).2.1 hstarted
    · intro hover hstarted
      refine (h.released hover hstarted).imp_left ?_
      exact terminal_of_workerStep h hworker hstarted
  · -- The invoke waits for its response, and has seen nothing yet.
    obtain ⟨hne, -, hsending⟩ := hok.2 (r, taskId) rfl
    have hpc : s.pc = .sending := hsending rfl
    obtain ⟨-, hearly, hget⟩ := Worker.insert_step hworker
    refine ⟨Worker.under_step h.under hworker, fun _ => hearly, ?_, h.unknown, ?_, ?_, ?_, ?_,
      h.idle⟩
    · intro taskId' heq
      cases heq
      exact ⟨hne, fun r' hget' => Option.some.inj (hget'.symm.trans hget)⟩
    · intro hknows
      simp [hpc, Pc.knows] at hknows
    · intro task htask
      have hstarted := (h.reply task htask).1
      rw [hnone] at hstarted
      cases hstarted
    · intro snap hsnap
      rw [hpc] at hsnap
      cases hsnap
    · intro hover
      simp [hpc, Pc.over] at hover

/-! ## Steps of the invoke -/

/-- What `tasks/get` answers is right about the end of the task. -/
theorem seen_answer (h : Inv r s) {taskId : String} (hstarted : s.started = some taskId) :
    Seen r s (answer s taskId) := by
  unfold answer
  cases hget : s.worker.tasks.get taskId with
  | none =>
      have hgone : s.worker.getTask taskId = none := by simp [Server.getTask, hget]
      rw [hgone]
      exact ⟨hstarted, nofun⟩
  | some r' =>
      have hown : r' = r := (h.own taskId hstarted).2 r' hget
      subst hown
      have htask : s.worker.getTask taskId = some (s.worker.records r') := by
        simp [Server.getTask, hget]
      rw [htask]
      exact ⟨hstarted, fun hfinal => hfinal⟩

/-- The response to a blocking message is the end of its task. -/
theorem seen_response {task : A2ATask} (h : response blocking r s = some task) :
    s.started = some task.taskId ∧
      (blocking r = true → (s.worker.records r).state.terminal = true) := by
  unfold response at h
  split at h
  · cases h
  · rename_i taskId hstarted
    split at h
    · split at h <;> cases h
      rename_i hended
      exact ⟨hstarted, fun _ => hended.2⟩
    · rename_i hmode
      split at h <;> cases h
      exact ⟨hstarted, fun htrue => absurd htrue hmode⟩

/-- After a snapshot the `try` block is over only if the task is. -/
theorem afterSnapshot_cases (task : A2ATask) :
    (task.state.terminal = true ∧ afterSnapshot task = .closing) ∨ afterSnapshot task = .asleep := by
  unfold afterSnapshot
  split
  · rename_i hfinal
    exact Or.inl ⟨hfinal, rfl⟩
  · exact Or.inr rfl

theorem onCancel_cases (s : Sys) : onCancel s = .cancelling ∨ onCancel s = .closing := by
  unfold onCancel
  split
  · split
    · exact Or.inl rfl
    · exact Or.inr rfl
  · exact Or.inr rfl

/-- The invariant of an invoke that moves on, with what the client knows. -/
theorem Inv.goto (h : Inv r s) {a2aTask : Option A2ATask} {pc : Pc} {reply : Option A2ATask}
    {lastKey : Option (TaskState × String × ℕ)} (hat : s.pc.over = false) (hpc : pc ≠ .sending)
    (hknown : pc.knows = true → ∃ task, a2aTask = some task ∧ s.started = some task.taskId)
    (hreply : ∀ task, reply = some task → Seen r s task)
    (hforward : ∀ snap, pc = .forwarding snap → Seen r s snap)
    (hover : pc.over = true → Released r s) :
    Inv r { s with a2aTask := a2aTask, pc := pc, reply := reply, lastKey := lastKey } where
  under := h.under
  inserted := h.inserted
  own := h.own
  unknown hsending := absurd hsending hpc
  known := hknown
  reply := hreply
  forwarding := hforward
  released := hover
  idle hidle := by
    have hover := h.idle hidle
    rw [hat] at hover
    cases hover

/-- After a snapshot that is right about its end, the invoke sleeps or its task is over. -/
theorem Inv.goto_afterSnapshot (h : Inv r s) {snap : A2ATask} {a2aTask : Option A2ATask}
    {reply : Option A2ATask} {lastKey : Option (TaskState × String × ℕ)}
    (hat : s.pc.over = false) (hseen : Seen r s snap)
    (hknown : ∃ task, a2aTask = some task ∧ s.started = some task.taskId)
    (hreply : ∀ task, reply = some task → Seen r s task) :
    Inv r { s with
      a2aTask := a2aTask, pc := afterSnapshot snap, reply := reply, lastKey := lastKey } := by
  rcases afterSnapshot_cases snap with ⟨hfinal, heq⟩ | heq
  · rw [heq]
    exact h.goto hat nofun nofun hreply nofun fun _ _ => Or.inl (hseen.2 hfinal)
  · rw [heq]
    exact h.goto hat nofun (fun _ => hknown) hreply nofun nofun

theorem over_of_knows {pc : Pc} (h : pc.knows = true) : pc.over = false := by
  cases pc with
  | sending => cases h
  | closing => cases h
  | returning => cases h
  | ended => cases h
  | _ => rfl

/-- The invoke keeps the invariant. -/
theorem inv_invoke (h : Inv r s) (hok : Settles r s e)
    (hstep : invokeStep blocking r s e = some t) : Inv r t := by
  cases invokeStep_cases hstep with
  | responds hpc htask =>
      obtain ⟨hstarted, hfinal⟩ := seen_response htask
      have hat : s.pc.over = false := by rw [hpc]; rfl
      cases hmode : blocking r with
      | true =>
          exact h.goto hat nofun nofun h.reply nofun fun _ _ => Or.inl (hfinal hmode)
      | false =>
          exact h.goto hat nofun (fun _ => ⟨_, rfl, hstarted⟩) h.reply nofun nofun
  | leaves hgives hat => exact h.goto hat nofun nofun h.reply nofun fun _ => hok.1 hgives
  | cancels hpc =>
      have hat : s.pc.over = false := by
        rcases hpc with ⟨hpc, -⟩ | hknows
        · rw [hpc]
          rfl
        · exact over_of_knows hknows
      rcases hpc with ⟨hpc, rfl⟩ | hknows
      · have hcancel : onCancel s = .closing := by simp [onCancel, h.unknown hpc]
        rw [hcancel]
        exact h.goto hat nofun nofun h.reply nofun fun _ => hok.1 (by rw [hpc]; rfl)
      · obtain ⟨task, htask, hstarted⟩ := h.known hknows
        have hcancel : onCancel s = .cancelling := by
          simp [onCancel, htask, (h.own task.taskId hstarted).1]
        rw [hcancel]
        exact h.goto hat nofun (fun _ => ⟨task, htask, hstarted⟩) h.reply nofun nofun
  | answers hpc =>
      obtain ⟨task, htask, hstarted⟩ := h.known (by rw [hpc]; rfl)
      refine h.goto (by rw [hpc]; rfl) (by rw [hpc]; nofun) h.known ?_ h.forwarding h.released
      intro reply hreply
      rw [htask] at hreply
      cases hreply
      exact seen_answer h hstarted
  | polls hpc htask hgo =>
      have hseen := h.reply _ htask
      have hknown := h.known (by rw [hpc]; rfl)
      have hat : s.pc.over = false := by rw [hpc]; rfl
      rcases hgo with rfl | rfl
      · refine h.goto hat nofun (fun _ => hknown) nofun ?_ nofun
        rintro snap heq
        cases heq
        exact hseen
      · exact h.goto_afterSnapshot hat hseen hknown nofun
  | @forwards snap hpc =>
      have hseen := h.forwarding snap hpc
      have hat : s.pc.over = false := by rw [hpc]; rfl
      exact h.goto_afterSnapshot hat hseen ⟨snap, rfl, hseen.1⟩ h.reply
  | @waits reply pc hpc hreply hgo =>
      have hknows : s.pc.knows = true := by rcases hpc with hpc | hpc <;> rw [hpc] <;> rfl
      have hreply' : ∀ task, reply = some task → Seen r s task := by
        rcases hreply with rfl | rfl
        · nofun
        · exact h.reply
      rcases hgo with rfl | rfl <;>
        exact h.goto (over_of_knows hknows) nofun (fun _ => h.known hknows) hreply' nofun nofun
  | issues hpc =>
      have hover : s.pc.over = false := by rw [hpc]; rfl
      refine ⟨h.under, h.inserted, h.own, h.unknown, h.known, h.reply, h.forwarding, ?_, h.idle⟩
      intro hover'
      rw [hover] at hover'
      cases hover'
  | closes hgo =>
      have hover : s.pc.over = true := by
        rcases hgo with ⟨hpc, -⟩ | ⟨hpc | hpc, -⟩ <;> rw [hpc] <;> rfl
      rcases hgo with ⟨-, rfl⟩ | ⟨-, rfl⟩ <;>
        exact ⟨h.under, h.inserted, h.own, nofun, nofun, h.reply, nofun,
          fun _ => h.released hover, fun _ => rfl⟩
  | returns hpc =>
      exact ⟨h.under, h.inserted, h.own, nofun, nofun, h.reply, nofun,
        fun _ => h.released (by rw [hpc]; rfl), fun _ => rfl⟩

/-- **One step** of the invoke or of the worker keeps the invariant. -/
theorem inv_step (h : Inv r s) (hok : Settles r s e) (hstep : step blocking r s e = some t) :
    Inv r t := by
  cases e with
  | worker e => exact inv_worker h hok hstep
  | _ => exact inv_invoke h hok hstep

/-! ## Whole runs -/

variable (r) in
theorem inv_start {worker : Server} (h : Under worker) : Inv r (start worker) where
  under := h
  inserted := nofun
  own := nofun
  unknown _ := rfl
  known := nofun
  reply := nofun
  forwarding := nofun
  released := nofun
  idle := nofun

/-- **No busy worker is handed back** when what the invoke gives up has ended or was
never begun.  The worker may have handled any messages before. -/
theorem handedBack_of_settles (blocking : ℕ → Bool) (r : ℕ) (before : List Worker.Event)
    (worker : Server) (hbefore : Run.exec (Worker.step blocking) Worker.init before = some worker)
    (events : List Event) (hok : Run.Along (step blocking r) (Settles r) (start worker) events) :
    Run.Throughout (step blocking r) (HandedBack r) (start worker) events := by
  have hunder : Under worker := Run.Throughout.last
    (Run.throughout_of_preserved (fun _ _ _ => Worker.under_step) Worker.under_init before) hbefore
  exact (Run.throughout_of_invariant (fun _ _ _ => inv_step) (inv_start r hunder) hok).mono
    fun _ => Inv.handedBack

/-- The worker takes the message. -/
def taken : List Event := [.worker (.send 0 1000), .worker (.insert 0 "3f2a" "write the tests")]

/-- An invoke that is cancelled while it polls. -/
def cancelledPolling : List Event := taken ++ [
  .worker (.register 0 "3f2a"), .responded, .answers, .polled, .forwarded, .cancel, .cancelIssued,
  .worker (.cancelTask "3f2a"), .cancelOver, .closed, .returned]

theorem handedBack_cancelled_polling :
    Run.Throughout (step (fun _ => false) 0) (HandedBack 0) (start Worker.init) cancelledPolling :=
  handedBack_of_settles (fun _ => false) 0 [] Worker.init rfl cancelledPolling (by decide +kernel)

/-- **A busy worker is handed back** when an invoke without `on_progress` is cancelled:
it does not know the id of the task yet. -/
theorem cancelled_sending_not_handedBack :
    ¬ Run.Throughout (step (fun _ => true) 0) (HandedBack 0) (start Worker.init)
      (taken ++ [.cancel, .closed, .returned]) := by
  intro h
  have hrun : (Run.exec (step (fun _ => true) 0) (start Worker.init)
      (taken ++ [.cancel, .closed, .returned])).map
        (fun t => (t.idle, decide (Released 0 t))) = some (true, false) := by decide +kernel
  obtain ⟨t, ht, hend⟩ := Option.map_eq_some_iff.1 hrun
  obtain ⟨hidle, hbusy⟩ := Prod.ext_iff.1 hend
  exact of_decide_eq_false hbusy (h.last ht hidle)

/-! ## The container -/

/-- The place of an invoke among those of the container pool. -/
def Pc.inPool (id : String) : Pc → ContainerPool.Pc
  | .cancelling => .cancelling id
  | .closing => .closing id
  | .returning => .returning id
  | .ended => .ended
  | _ => .trying id

section
variable {maxUses : ℕ} {prog : ℕ → ContainerPool.Request} {p : ContainerPool.Sys} {i : ℕ}
  {id : String}

/-- The `try` block of the pool's invoke can be left wherever it is. -/
theorem pool_closing (hpc : p.pc i = s.pc.inPool id) (hat : s.pc.over = false) :
    ∃ e', ContainerPool.step maxUses prog p ⟨i, e'⟩ = some (p.goto i (.closing id)) := by
  cases hplace : s.pc with
  | cancelling => exact ⟨.cancelSent, by simp [ContainerPool.step, hpc, hplace, Pc.inPool]⟩
  | closing => simp [hplace, Pc.over] at hat
  | returning => simp [hplace, Pc.over] at hat
  | ended => simp [hplace, Pc.over] at hat
  | _ => exact ⟨.sent, by simp [ContainerPool.step, hpc, hplace, Pc.inPool]⟩

/-- The pool's invoke can be cancelled there, unless it is already. -/
theorem pool_cancelling (hpc : p.pc i = s.pc.inPool id) (hat : s.pc.over = false) :
    s.pc = .cancelling ∨
      ∃ e', ContainerPool.step maxUses prog p ⟨i, e'⟩ = some (p.goto i (.cancelling id)) := by
  cases hplace : s.pc with
  | cancelling => exact Or.inl rfl
  | closing => simp [hplace, Pc.over] at hat
  | returning => simp [hplace, Pc.over] at hat
  | ended => simp [hplace, Pc.over] at hat
  | _ => exact Or.inr ⟨.cancel, by simp [ContainerPool.step, hpc, hplace, Pc.inPool]⟩

variable (maxUses prog p i id) in
/-- What the step from `s` to `t` is in the container pool: nothing, a step that leaves
the pool as it is, or the one that gives the container back. -/
def InPool (s t : Sys) : Prop :=
  (t.idle = s.idle ∧ (t.pc.inPool id = s.pc.inPool id ∨
      ∃ e', ContainerPool.step maxUses prog p ⟨i, e'⟩ = some (p.goto i (t.pc.inPool id)))) ∨
    (t.idle = true ∧ ∀ new, (∀ id' ∈ new, id' ∉ p.pool.keys) →
      ContainerPool.step maxUses prog p ⟨i, .returned new⟩ =
        some ({ p with pool := ContainerPool.returnContainer maxUses id new p.pool }.goto i
          (t.pc.inPool id)))

theorem invokeStep_pool (hpc : p.pc i = s.pc.inPool id)
    (hstep : invokeStep blocking r s e = some t) : InPool maxUses prog p i id s t := by
  -- After a snapshot the `try` block is over, or the invoke sleeps in it.
  have hafter (task : A2ATask) (htry : s.pc.inPool id = .trying id) (hat : s.pc.over = false) :
      (afterSnapshot task).inPool id = s.pc.inPool id ∨
        ∃ e', ContainerPool.step maxUses prog p ⟨i, e'⟩ =
          some (p.goto i ((afterSnapshot task).inPool id)) := by
    rcases afterSnapshot_cases task with ⟨-, heq⟩ | heq
    · rw [heq]
      exact Or.inr (pool_closing hpc hat)
    · rw [heq, htry]
      exact Or.inl rfl
  cases invokeStep_cases hstep with
  | responds hplace htask =>
      cases hmode : blocking r with
      | true => exact Or.inl ⟨rfl, Or.inr (pool_closing hpc (by rw [hplace]; rfl))⟩
      | false => exact Or.inl ⟨rfl, Or.inl (by rw [hplace]; rfl)⟩
  | leaves hgives hat => exact Or.inl ⟨rfl, Or.inr (pool_closing hpc hat)⟩
  | cancels hplace =>
      have hat : s.pc.over = false := by
        rcases hplace with ⟨hplace, -⟩ | hknows
        · rw [hplace]
          rfl
        · exact over_of_knows hknows
      rcases onCancel_cases s with heq | heq
      · refine Or.inl ⟨rfl, ?_⟩
        dsimp only
        rw [heq]
        rcases pool_cancelling hpc hat with hsame | hmove
        · exact Or.inl (by rw [hsame])
        · exact Or.inr hmove
      · refine Or.inl ⟨rfl, ?_⟩
        dsimp only
        rw [heq]
        exact Or.inr (pool_closing hpc hat)
  | answers => exact Or.inl ⟨rfl, Or.inl rfl⟩
  | polls hplace htask hgo =>
      have htry : s.pc.inPool id = .trying id := by rw [hplace]; rfl
      rcases hgo with rfl | rfl
      · exact Or.inl ⟨rfl, Or.inl htry.symm⟩
      · exact Or.inl ⟨rfl, hafter _ htry (by rw [hplace]; rfl)⟩
  | @forwards snap hplace =>
      have htry : s.pc.inPool id = .trying id := by rw [hplace]; rfl
      exact Or.inl ⟨rfl, hafter snap htry (by rw [hplace]; rfl)⟩
  | waits hplace hreply hgo =>
      have htry : s.pc.inPool id = .trying id := by rcases hplace with h | h <;> rw [h] <;> rfl
      rcases hgo with rfl | rfl <;> exact Or.inl ⟨rfl, Or.inl htry.symm⟩
  | issues hplace => exact Or.inl ⟨rfl, Or.inl rfl⟩
  | closes hgo =>
      refine Or.inl ⟨rfl, Or.inr ?_⟩
      rcases hgo with ⟨hplace, rfl⟩ | ⟨hplace | hplace, rfl⟩
      · exact ⟨.closed, by simp [ContainerPool.step, hpc, hplace, Pc.inPool]⟩
      · exact ⟨.cancel, by simp [ContainerPool.step, hpc, hplace, Pc.inPool]⟩
      · exact ⟨.cancel, by simp [ContainerPool.step, hpc, hplace, Pc.inPool]⟩
  | returns hplace =>
      refine Or.inr ⟨rfl, fun new hnew => ?_⟩
      have hplace' : p.pc i = .returning id := by rw [hpc, hplace]; rfl
      simp only [ContainerPool.step, hplace', if_pos hnew]
      rfl

/-- **The invoke in the container pool**, where the others run. -/
theorem step_pool (hpc : p.pc i = s.pc.inPool id) (hstep : step blocking r s e = some t) :
    InPool maxUses prog p i id s t := by
  cases e with
  | worker e =>
      simp only [step, workerStep] at hstep
      split at hstep <;> cases hstep
      exact Or.inl ⟨rfl, Or.inl rfl⟩
  | _ => exact invokeStep_pool hpc hstep

end

end Handover
end AgentSwarm
