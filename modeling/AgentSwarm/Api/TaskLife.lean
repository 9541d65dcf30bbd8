import AgentSwarm.TaskManager.Manager

/-!
# The life of a task

Three entry points create tasks: `POST /api/chat`, direct-chat, and
`POST /api/internal/dispatch`.  The first two answer at once and leave the work
to a background coroutine.  A WebSocket client may send a cancel message at any
time.  Whatever happens to the status of one task happens in a step of one of
these, between two `await`s.

* `Kind`, `Pc` — the entry point a task came through, and where its coroutine is
  suspended.
* `Life` — the status, the place, and a cancellation that was requested.
* `Event` — how the thing that is awaited ends, or what a client sends.
* `step` — one step.
* `Moved`, `step_cases` — everything a step can do, by what it does to the status.

The status is written before the first `await` of `update_status`, so the write
belongs to the step that calls it; what `update_status` awaits afterwards is the
broadcast, which raises nothing, and the store, which may raise.
-/

namespace AgentSwarm
namespace TaskLife

/-- The entry point a task came through. -/
inductive Kind where
  | chat
  | direct
  | internal
  deriving DecidableEq

/-- Where the coroutine of the task is suspended.  Consecutive awaits from which
an exception goes the same way are one place. -/
inductive Pc where
  /-- The handler, in `create_task` or before the write of `RUNNING`. -/
  | created
  /-- The handler, in `update_status(RUNNING)`. -/
  | starting
  /-- The handler has raised; there is no background run. -/
  | aborted
  /-- The background run, before its first step or at the tenant's semaphore. -/
  | queued
  /-- `run_direct`, in its first `append_event`. -/
  | logging
  /-- In `backend.execute`, or in `dispatch`. -/
  | executing
  /-- In the `try` block, in `complete_task` or what follows it. -/
  | completing
  /-- `run_direct`, in the `try` block, in `fail_task` or what follows it. -/
  | failing
  /-- `run_orchestration`, in the handler, in `dead_letters.record`. -/
  | recording
  /-- In the handler, in `fail_task` or what follows it. -/
  | handling
  /-- The background run has ended; the internal dispatch has answered. -/
  | ended
  deriving DecidableEq

/-- The coroutine is the background run and has not ended. -/
def Pc.running : Pc → Bool
  | .created => false
  | .starting => false
  | .aborted => false
  | .ended => false
  | _ => true

/-- No coroutine of the task is left. -/
def Pc.over : Pc → Bool
  | .aborted => true
  | .ended => true
  | _ => false

/-- A task with its coroutine. -/
structure Life where
  status : TaskStatus
  pc : Pc
  cancelRequested : Bool
  deriving DecidableEq

/-- A task that has just been created. -/
def init : Life := ⟨.created, .created, false⟩

/-- What happens next. -/
inductive Event where
  /-- What is awaited ends without an error. -/
  | proceed
  /-- What is awaited raises.  `saved` tells whether `session_manager.save` works
  in the handler of `run_orchestration`. -/
  | raise (saved : Bool)
  /-- `execute` or `dispatch` returns; `success` is that of the dispatch result.
  `saved` tells whether `session_manager.save` works after `execute`, `saved'`
  whether it works in the handler if it has to run. -/
  | finish (success saved saved' : Bool)
  /-- A client sends the cancel message. -/
  | wsCancel
  /-- The `CancelledError` that was requested is thrown into the run. -/
  | deliver
  /-- The orchestrator suppresses it and goes on. -/
  | swallow
  deriving DecidableEq

/-- The run moves to a place. -/
def Life.goto (s : Life) (pc : Pc) : Life := { s with pc := pc }

/-- The status is written, and the run moves to a place. -/
def Life.set (s : Life) (status : TaskStatus) (pc : Pc) : Life :=
  { s with status := status, pc := pc }

/-- `except Exception` of the background run.  `run_orchestration` saves the
session and awaits `dead_letters.record` before it fails the task; `run_direct`
fails it first. -/
def Life.caught (kind : Kind) (s : Life) (saved : Bool) : Life :=
  match kind with
  | .chat => if saved then s.goto .recording else s.goto .ended
  | _ => s.set .failed .handling

/-- `cancel_running` and `update_status(CANCELLED)`.  Only the runs of
`POST /api/chat` are registered; what `cancel_running` returns is not looked
at. -/
def Life.wsCancel (kind : Kind) (s : Life) : Life :=
  { s with
    status := .cancelled
    cancelRequested := s.cancelRequested || (kind = .chat && s.pc.running) }

/-- One step.  A run that is to be cancelled takes no other step of its own. -/
def step (kind : Kind) (s : Life) : Event → Option Life
  | .wsCancel => some (s.wsCancel kind)
  | .deliver =>
      if s.cancelRequested then some { s with pc := .ended, cancelRequested := false } else none
  | .swallow =>
      if s.cancelRequested ∧ s.pc = .executing then some { s with cancelRequested := false }
      else none
  | .proceed =>
      if s.cancelRequested then none
      else
        match kind, s.pc with
        | .internal, .created => some (s.goto .executing)
        | .internal, _ => none
        | _, .created => some (s.set .running .starting)
        | _, .starting => some (s.goto .queued)
        | .chat, .queued => some (s.goto .executing)
        | .direct, .queued => some (s.goto .logging)
        | .direct, .logging => some (s.goto .executing)
        | _, .completing => some (s.goto .ended)
        | _, .failing => some (s.goto .ended)
        | .chat, .recording => some (s.set .failed .handling)
        | _, .handling => some (s.goto .ended)
        | _, _ => none
  | .raise saved =>
      if s.cancelRequested then none
      else
        match kind, s.pc with
        | .internal, .created => some (s.goto .ended)
        | .internal, .executing => some (s.goto .ended)
        | .internal, _ => none
        | _, .created => some (s.goto .aborted)
        | _, .starting => some (s.goto .aborted)
        | .direct, .logging => some (s.caught kind saved)
        | _, .executing => some (s.caught kind saved)
        | _, .completing => some (s.caught kind saved)
        | .direct, .failing => some (s.caught kind saved)
        | .chat, .recording => some (s.goto .ended)
        | _, .handling => some (s.goto .ended)
        | _, _ => none
  | .finish success saved saved' =>
      if s.cancelRequested then none
      else
        match kind, s.pc with
        | .chat, .executing =>
            if saved then some (s.set .completed .completing) else some (s.caught kind saved')
        | .direct, .executing =>
            if success then some (s.set .completed .completing)
            else some (s.set .failed .failing)
        | .internal, .executing => some (s.goto .ended)
        | _, _ => none

/-! ## Everything a step can do -/

/-- The transitions. -/
inductive Moved (kind : Kind) (s : Life) : Event → Life → Prop
  | wsCancel : Moved kind s .wsCancel (s.wsCancel kind)
  | deliver (hreq : s.cancelRequested = true) :
      Moved kind s .deliver { s with pc := .ended, cancelRequested := false }
  | swallow (hreq : s.cancelRequested = true) (hpc : s.pc = .executing) :
      Moved kind s .swallow { s with cancelRequested := false }
  /-- The handler writes `RUNNING`. -/
  | start (hreq : s.cancelRequested = false) (hkind : kind ≠ .internal) (hpc : s.pc = .created) :
      Moved kind s .proceed (s.set .running .starting)
  /-- A coroutine goes on to its next place before `execute` or `dispatch`. -/
  | advance {q} (hreq : s.cancelRequested = false)
      (hpc : s.pc = .created ∨ s.pc = .starting ∨ s.pc = .queued ∨ s.pc = .logging)
      (hq : q = .queued ∨ q = .logging ∨ q = .executing)
      (hkind : kind = .internal → s.pc = .created → q = .executing) :
      Moved kind s .proceed (s.goto q)
  /-- The handler raises. -/
  | abort {saved} (hreq : s.cancelRequested = false) (hkind : kind ≠ .internal)
      (hpc : s.pc = .created ∨ s.pc = .starting) : Moved kind s (.raise saved) (s.goto .aborted)
  /-- The internal dispatch answers. -/
  | answer {e} (hreq : s.cancelRequested = false) (hkind : kind = .internal)
      (he : (∃ saved, e = .raise saved) ∨ s.pc = .executing ∧ ∃ b₁ b₂ b₃, e = .finish b₁ b₂ b₃)
      (hpc : s.pc = .created ∨ s.pc = .executing) : Moved kind s e (s.goto .ended)
  /-- The work is done and the status written. -/
  | complete {success saved saved'} (hreq : s.cancelRequested = false) (hkind : kind ≠ .internal)
      (hpc : s.pc = .executing) (hsaved : kind = .chat → saved = true) :
      Moved kind s (.finish success saved saved') (s.set .completed .completing)
  /-- The handler of `run_orchestration` has saved the session. -/
  | record {e} (hreq : s.cancelRequested = false) (hkind : kind = .chat)
      (hpc : (s.pc = .executing ∧ (e = .raise true ∨ ∃ b, e = .finish b false true)) ∨
        (s.pc = .completing ∧ ∃ saved, e = .raise saved)) :
      Moved kind s e (s.goto .recording)
  /-- The handler of `run_orchestration` raises. -/
  | giveUp {e} (hreq : s.cancelRequested = false) (hkind : kind = .chat)
      (he : (s.pc = .executing ∧ (e = .raise false ∨ ∃ b, e = .finish b false false)) ∨
        (s.pc = .completing ∧ e = .raise false) ∨ (s.pc = .recording ∧ ∃ saved, e = .raise saved)) :
      Moved kind s e (s.goto .ended)
  /-- `run_orchestration` fails the task. -/
  | failChat (hreq : s.cancelRequested = false) (hkind : kind = .chat) (hpc : s.pc = .recording) :
      Moved kind s .proceed (s.set .failed .handling)
  /-- `run_direct` fails the task. -/
  | failDirect {e q} (hreq : s.cancelRequested = false) (hkind : kind = .direct)
      (hpc : s.pc = .logging ∨ s.pc = .executing ∨ s.pc = .failing ∨
        s.pc = .completing ∧ ∃ saved, e = .raise saved)
      (hq : q = .failing ∨ q = .handling) : Moved kind s e (s.set .failed q)
  /-- The run ends after its last write. -/
  | last {e} (hreq : s.cancelRequested = false)
      (hpc : s.pc = .failing ∨ s.pc = .handling ∨ s.pc = .completing ∧ e = .proceed) :
      Moved kind s e (s.goto .ended)

variable {kind : Kind} {s t : Life} {e : Event}

/-- A run that moves by itself is not to be cancelled. -/
theorem moves_of_step {moved : Option Life}
    (h : (if s.cancelRequested then none else moved) = some t) :
    s.cancelRequested = false ∧ moved = some t := by
  split at h
  · cases h
  · rename_i hreq
    exact ⟨by simpa using hreq, h⟩

/-- **Everything a step can do.** -/
theorem step_cases (h : step kind s e = some t) : Moved kind s e t := by
  cases e with
  | wsCancel =>
      cases h
      exact .wsCancel
  | deliver =>
      rw [step] at h
      split at h
      · cases h
        exact .deliver ‹_›
      · cases h
  | swallow =>
      rw [step] at h
      split at h
      · rename_i hswallow
        cases h
        exact .swallow hswallow.1 hswallow.2
      · cases h
  | proceed =>
      obtain ⟨hreq, h⟩ := moves_of_step h
      cases kind <;> cases hpc : s.pc <;>
        simp only [hpc, Option.some.injEq, reduceCtorEq] at h
      all_goals subst h
      case chat.created | direct.created => exact .start hreq (by decide) hpc
      case chat.recording => exact .failChat hreq rfl hpc
      case chat.starting | chat.queued | direct.starting | direct.queued | direct.logging |
          internal.created =>
        exact .advance hreq (by simp [hpc]) (by simp) (by simp [hpc])
      all_goals exact .last hreq (by simp [hpc])
  | raise saved =>
      obtain ⟨hreq, h⟩ := moves_of_step h
      cases kind <;> cases hpc : s.pc <;>
        simp only [Life.caught, hpc, Option.some.injEq, reduceCtorEq] at h
      case chat.executing | chat.completing =>
        -- the handler saves the session first
        cases saved <;> subst h
        · exact .giveUp hreq rfl (by simp [hpc])
        · exact .record hreq rfl (by simp [hpc])
      all_goals subst h
      case chat.recording => exact .giveUp hreq rfl (by simp [hpc])
      case chat.created | chat.starting | direct.created | direct.starting =>
        exact .abort hreq (by decide) (by simp [hpc])
      case internal.created | internal.executing =>
        exact .answer hreq rfl (by simp) (by simp [hpc])
      case chat.handling | direct.handling => exact .last hreq (by simp [hpc])
      all_goals exact .failDirect hreq rfl (by simp [hpc]) (.inr rfl)
  | finish success saved saved' =>
      obtain ⟨hreq, h⟩ := moves_of_step h
      cases kind <;> cases hpc : s.pc <;>
        simp only [Life.caught, hpc, Option.some.injEq, reduceCtorEq] at h
      case chat.executing =>
        cases saved
        · cases saved' <;> cases h
          · exact .giveUp hreq rfl (by simp [hpc])
          · exact .record hreq rfl (by simp [hpc])
        · cases h
          exact .complete hreq (by decide) hpc fun _ => rfl
      case direct.executing =>
        cases success <;> cases h
        · exact .failDirect hreq rfl (by simp [hpc]) (.inl rfl)
        · exact .complete hreq (by decide) hpc (by simp)
      case internal.executing =>
        subst h
        exact .answer hreq rfl (by simp [hpc]) (by simp [hpc])

end TaskLife
end AgentSwarm
