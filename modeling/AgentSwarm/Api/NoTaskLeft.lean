import AgentSwarm.Api.TaskLife
import AgentSwarm.Lib.Run

/-!
# No task is left behind

When the coroutine of a task has ended, the task should be completed, failed or
cancelled.  The handler of `run_orchestration` saves the session and records the
dead letter before it fails the task, and an exception of either ends the run
with the task running; `run_direct` fails its task first.  The internal dispatch
creates a task and writes no status at all.

* `Settled` — the task of a coroutine that has ended is settled.
* `Decided` — the invariant: a run that is past its last write has a terminal
  status, and so has one that is to be cancelled.
* `HandlerWorks` — the condition on a step: what the chat handler calls does not
  raise, and an internal dispatch answers for a task that was cancelled.
* `settled_iff_handlerWorks` — **no task is left behind in a run exactly when all
  its steps meet it.**
-/

namespace AgentSwarm
namespace TaskLife

variable {kind : Kind} {s t : Life} {e : Event}

/-- The coroutine has not ended, or the status is terminal. -/
def Settled (s : Life) : Prop := s.pc = .ended → s.status.Terminal

/-- What every run keeps. -/
structure Decided (s : Life) : Prop where
  requested : s.cancelRequested → s.status = .cancelled
  written : s.pc = .completing ∨ s.pc = .failing ∨ s.pc = .handling → s.status.Terminal

/-- The steps that end a coroutine without a status: in the handler of
`run_orchestration`, `session_manager.save` or `dead_letters.record` raises; or
an internal dispatch answers. -/
def leavesTask (kind : Kind) (pc : Pc) (e : Event) : Bool :=
  match kind, pc, e with
  | .chat, .executing, .raise saved => !saved
  | .chat, .executing, .finish _ saved saved' => !saved && !saved'
  | .chat, .recording, .raise _ => true
  | .internal, .created, .raise _ => true
  | .internal, .executing, .raise _ => true
  | .internal, .executing, .finish _ _ _ => true
  | _, _, _ => false

/-- The condition on a step: it is none of these, unless the task has a terminal
status already. -/
def HandlerWorks (kind : Kind) (s : Life) (e : Event) : Prop :=
  s.status.Terminal ∨ leavesTask kind s.pc e = false

theorem decided_init : Decided init := ⟨by simp [init], by simp [init]⟩

theorem Decided.goto (h : Decided s) {q : Pc}
    (hq : q = .completing ∨ q = .failing ∨ q = .handling → s.status.Terminal) :
    Decided (s.goto q) :=
  ⟨h.requested, hq⟩

theorem Decided.set (hreq : s.cancelRequested = false) {status : TaskStatus} {q : Pc}
    (hq : q = .completing ∨ q = .failing ∨ q = .handling → status.Terminal) :
    Decided (s.set status q) :=
  ⟨by simp [Life.set, hreq], hq⟩

/-- **One step.**  Every step keeps the invariant. -/
theorem decided_step (h : Decided s) (hstep : step kind s e = some t) : Decided t := by
  cases step_cases hstep with
  | wsCancel => exact ⟨fun _ => rfl, fun _ => .inr (.inr rfl)⟩
  | deliver hreq => exact ⟨by simp, by simp⟩
  | swallow hreq hpc => exact ⟨by simp, by simp [hpc]⟩
  | start hreq => exact .set hreq (by simp)
  | advance _ _ hq _ => exact h.goto (by rcases hq with rfl | rfl | rfl <;> simp)
  | abort => exact h.goto (by simp)
  | answer => exact h.goto (by simp)
  | complete hreq => exact .set hreq fun _ => .inl rfl
  | record => exact h.goto (by simp)
  | giveUp => exact h.goto (by simp)
  | failChat hreq => exact .set hreq fun _ => .inr (.inl rfl)
  | failDirect hreq => exact .set hreq fun _ => .inr (.inl rfl)
  | last => exact h.goto (by simp)

theorem leavesTask_wsCancel (kind : Kind) (pc : Pc) : leavesTask kind pc .wsCancel = false := by
  cases kind <;> cases pc <;> rfl

theorem leavesTask_proceed (kind : Kind) (pc : Pc) : leavesTask kind pc .proceed = false := by
  cases kind <;> cases pc <;> rfl

theorem leavesTask_direct (pc : Pc) (e : Event) : leavesTask .direct pc e = false := by
  cases pc <;> cases e <;> rfl

/-- **One step, exactly.**  A step after which the coroutine has not ended with
an unsettled task is one that meets the condition, and conversely. -/
theorem settled_step_iff (h : Decided s) (hstep : step kind s e = some t) :
    Settled t ↔ HandlerWorks kind s e := by
  cases step_cases hstep with
  | wsCancel =>
      have hset : Settled (s.wsCancel kind) := fun _ => .inr (.inr rfl)
      exact iff_of_true hset (.inr (leavesTask_wsCancel kind s.pc))
  | deliver hreq =>
      have hterm : s.status.Terminal := .inr (.inr (h.requested hreq))
      exact iff_of_true (fun _ => hterm) (.inl hterm)
  | swallow hreq hpc =>
      have hterm : s.status.Terminal := .inr (.inr (h.requested hreq))
      exact iff_of_true (fun _ => hterm) (.inl hterm)
  | start =>
      have hset : Settled (s.set .running .starting) := by simp [Settled, Life.set]
      exact iff_of_true hset (.inr (leavesTask_proceed kind s.pc))
  | @advance q _ _ hq _ =>
      have hset : Settled (s.goto q) := by
        rcases hq with rfl | rfl | rfl <;> simp [Settled, Life.goto]
      exact iff_of_true hset (.inr (leavesTask_proceed kind s.pc))
  | @abort saved _ hkind hpc =>
      have hset : Settled (s.goto .aborted) := by simp [Settled, Life.goto]
      have hleaves : leavesTask kind s.pc (.raise saved) = false := by
        cases kind <;> rcases hpc with hpc | hpc <;> simp_all [leavesTask]
      exact iff_of_true hset (.inr hleaves)
  | answer hreq hkind he hpc =>
      have hleaves : leavesTask kind s.pc e = true := by
        rcases he with ⟨saved, rfl⟩ | ⟨hpc, b₁, b₂, b₃, rfl⟩
        · rcases hpc with hpc | hpc <;> simp [leavesTask, hkind, hpc]
        · simp [leavesTask, hkind, hpc]
      simp [Settled, Life.goto, HandlerWorks, hleaves]
  | @complete success saved saved' _ hkind hpc hsaved =>
      have hset : Settled (s.set .completed .completing) := by simp [Settled, Life.set]
      have hleaves : leavesTask kind s.pc (.finish success saved saved') = false := by
        cases kind <;> simp_all [leavesTask]
      exact iff_of_true hset (.inr hleaves)
  | record _ hkind hpc =>
      have hset : Settled (s.goto .recording) := by simp [Settled, Life.goto]
      have hleaves : leavesTask kind s.pc e = false := by
        rcases hpc with ⟨hpc, rfl | ⟨b, rfl⟩⟩ | ⟨hpc, saved, rfl⟩ <;>
          simp [leavesTask, hkind, hpc]
      exact iff_of_true hset (.inr hleaves)
  | giveUp _ hkind he =>
      rcases he with ⟨hpc, he⟩ | ⟨hpc, rfl⟩ | ⟨hpc, saved, rfl⟩
      · have hleaves : leavesTask kind s.pc e = true := by
          rcases he with rfl | ⟨b, rfl⟩ <;> simp [leavesTask, hkind, hpc]
        simp [Settled, Life.goto, HandlerWorks, hleaves]
      · -- the status was written before the error
        have hterm : s.status.Terminal := h.written (.inl hpc)
        exact iff_of_true (fun _ => hterm) (.inl hterm)
      · simp [Settled, Life.goto, HandlerWorks, leavesTask, hkind, hpc]
  | failChat =>
      have hset : Settled (s.set .failed .handling) := by simp [Settled, Life.set]
      exact iff_of_true hset (.inr (leavesTask_proceed kind s.pc))
  | @failDirect _ q _ hkind _ hq =>
      have hset : Settled (s.set .failed q) := by
        rcases hq with rfl | rfl <;> simp [Settled, Life.set]
      exact iff_of_true hset (.inr (hkind ▸ leavesTask_direct s.pc e))
  | last _ hpc =>
      have hterm : s.status.Terminal := h.written (by tauto)
      exact iff_of_true (fun _ => hterm) (.inl hterm)

/-- The steps that leave a task are possible in the places they are named for. -/
theorem exists_step_of_leavesTask (hreq : s.cancelRequested = false)
    (hleaves : leavesTask kind s.pc e = true) : ∃ t, step kind s e = some t := by
  cases kind <;> cases hpc : s.pc <;> cases e <;>
    simp only [leavesTask, hpc, Bool.false_eq_true] at hleaves
  case chat.executing.finish success saved saved' =>
    cases saved <;> simp [step, hreq, hpc]
  all_goals simp [step, hreq, hpc]

/-- A step that is not possible leaves no task. -/
theorem handlerWorks_of_none (h : Decided s) (hstep : step kind s e = none) :
    HandlerWorks kind s e := by
  cases hreq : s.cancelRequested with
  | true => exact .inl (.inr (.inr (h.requested hreq)))
  | false =>
      refine .inr ?_
      by_contra hleaves
      rw [Bool.not_eq_false] at hleaves
      obtain ⟨t, ht⟩ := exists_step_of_leavesTask hreq hleaves
      rw [hstep] at ht
      cases ht

/-! ## Whole runs -/

/-- **No task left behind.**  In every state of a run the task of a coroutine that
has ended is settled, if and only if every step of the run meets the
condition. -/
theorem settled_iff_handlerWorks (kind : Kind) (events : List Event) :
    Run.Throughout (step kind) Settled init events ↔
      Run.Along (step kind) (HandlerWorks kind) init events :=
  Run.throughout_iff_along (B := Decided) (fun _ _ _ h hstep => decided_step h hstep)
    (fun _ _ _ h _ hstep => settled_step_iff h hstep)
    (fun _ _ h hnone => handlerWorks_of_none h hnone) decided_init (by simp [Settled, init])

/-- **A session that cannot be saved.**  The orchestration fails, the handler's
`session_manager.save` raises as well, and the task stays running for good. -/
theorem unsaved_session_leaves_task :
    ¬ Run.Throughout (step .chat) Settled init [.proceed, .proceed, .proceed, .raise false] := by
  intro h
  exact absurd ((h.last rfl) rfl) (by decide)

end TaskLife
end AgentSwarm
