import AgentSwarm.Api.TaskLife
import AgentSwarm.Lib.Run

/-!
# A terminal status is final

`update_status` writes the new status over any old one.  Whether a terminal
status stays is up to the callers: a cancel message writes `CANCELLED` over
`COMPLETED`, a run that is not registered goes on after it was cancelled, and an
error after `complete_task` has written its status makes the handler write
`FAILED` over it.

* `TerminalIsFinal` — in a run, no step after a terminal status changes it.
* `Orderly` — the condition on a step: a cancel message finds a run that it
  stops, or none that will write; the run does not suppress it; and nothing
  raises after `COMPLETED` is written.
* `Inv` — where the run can be at each terminal status.
* `terminalIsFinal_of_orderly` — **finality** in every run of orderly steps.
* `late_cancel_not_final` — a cancel message after the end of the run.
-/

namespace AgentSwarm
namespace TaskLife

variable {kind : Kind} {s t : Life} {e : Event}

/-- Once the status is terminal, no later step of the run changes it. -/
def TerminalIsFinal (kind : Kind) (events : List Event) : Prop :=
  ∀ as bs cs, events = as ++ bs ++ cs → ∀ s t,
    Run.exec (step kind) init as = some s → Run.exec (step kind) s bs = some t →
      s.status.Terminal → t.status = s.status

/-- The condition on a step.  A cancel message finds the task cancelled already,
or neither completed nor failed and without a run that would go on: the run is
registered, or over, or never writes a status.  The orchestrator does not
suppress a cancellation.  Nothing raises between the write of `COMPLETED` and the
end of the run. -/
def Orderly (kind : Kind) (s : Life) : Event → Prop
  | .wsCancel =>
      s.status = .cancelled ∨
        (s.status ≠ .completed ∧ s.status ≠ .failed ∧
          ((kind = .chat ∧ s.pc.running) ∨ s.pc.over ∨ kind = .internal))
  | .swallow => False
  | .raise _ => s.pc ≠ .completing
  | _ => True

instance (kind : Kind) (s : Life) (e : Event) : Decidable (Orderly kind s e) := by
  cases e <;> simp only [Orderly] <;> infer_instance

/-- Where the run can be at each terminal status. -/
structure Inv (kind : Kind) (s : Life) : Prop where
  completed : s.status = .completed → s.pc = .completing ∨ s.pc = .ended
  failed : s.status = .failed → s.pc = .failing ∨ s.pc = .handling ∨ s.pc = .ended
  cancelled : s.status = .cancelled → s.pc.over ∨ s.cancelRequested ∨ kind = .internal
  requested : s.cancelRequested → s.status = .cancelled
  internal : kind = .internal → s.status = .created ∨ s.status = .cancelled

theorem inv_init (kind : Kind) : Inv kind init := by
  constructor <;> simp [init]

/-- The places at which a run has neither completed nor failed its task and may
still do so. -/
def Pc.undecided : Pc → Bool
  | .completing => false
  | .failing => false
  | .handling => false
  | .aborted => false
  | .ended => false
  | _ => true

/-- A run that may still decide the task finds it undecided, or cancelled and
beyond its reach. -/
theorem Inv.undecided (h : Inv kind s) (hpc : s.pc.undecided) :
    s.status ≠ .completed ∧ s.status ≠ .failed ∧
      (s.status = .cancelled → s.cancelRequested ∨ kind = .internal) := by
  refine ⟨?_, ?_, ?_⟩
  · intro hst
    rcases h.completed hst with hat | hat <;> simp [hat, Pc.undecided] at hpc
  · intro hst
    rcases h.failed hst with hat | hat | hat <;> simp [hat, Pc.undecided] at hpc
  · intro hst
    rcases h.cancelled hst with hover | hreq
    · cases hat : s.pc <;> simp [hat, Pc.undecided, Pc.over] at hpc hover
    · exact hreq

theorem Inv.not_terminal (h : Inv kind s) (hreq : s.cancelRequested = false)
    (hkind : kind ≠ .internal) (hpc : s.pc.undecided) : ¬ s.status.Terminal := by
  obtain ⟨hcompleted, hfailed, hcancelled⟩ := h.undecided hpc
  rintro (hst | hst | hst)
  · exact hcompleted hst
  · exact hfailed hst
  · rcases hcancelled hst with hreq' | hkind'
    · simp [hreq] at hreq'
    · exact hkind hkind'

/-- The invariant after a step that leaves the status alone. -/
theorem Inv.goto (h : Inv kind s) {q : Pc}
    (hq : q = .ended ∨ s.pc.undecided) : Inv kind (s.goto q) := by
  rcases hq with rfl | hpc
  · exact ⟨fun _ => .inr rfl, fun _ => .inr (.inr rfl), fun _ => .inl rfl, h.requested, h.internal⟩
  · obtain ⟨hcompleted, hfailed, hcancelled⟩ := h.undecided hpc
    exact ⟨fun hst => absurd hst hcompleted, fun hst => absurd hst hfailed,
      fun hst => .inr (hcancelled hst), h.requested, h.internal⟩

/-- The cancel message. -/
theorem inv_wsCancel (h : Inv kind s) (hok : Orderly kind s .wsCancel) :
    Inv kind (s.wsCancel kind) ∧ (s.status.Terminal → (s.wsCancel kind).status = s.status) := by
  have hinv (hcancelled : s.pc.over ∨ (s.wsCancel kind).cancelRequested ∨ kind = .internal) :
      Inv kind (s.wsCancel kind) :=
    ⟨by simp [Life.wsCancel], by simp [Life.wsCancel], fun _ => hcancelled, fun _ => rfl,
      fun _ => .inr rfl⟩
  rcases hok with hst | ⟨hcompleted, hfailed, hrun⟩
  · refine ⟨hinv ?_, fun _ => hst.symm⟩
    rcases h.cancelled hst with hover | hreq | hkind
    · exact .inl hover
    · exact .inr (.inl (by simp [Life.wsCancel, hreq]))
    · exact .inr (.inr hkind)
  · refine ⟨hinv ?_, ?_⟩
    · rcases hrun with ⟨hkind, hrunning⟩ | hover | hkind
      · exact .inr (.inl (by simp [Life.wsCancel, hkind, hrunning]))
      · exact .inl hover
      · exact .inr (.inr hkind)
    · rintro (hst | hst | hst)
      · exact absurd hst hcompleted
      · exact absurd hst hfailed
      · exact hst.symm

/-- The write of a status by the run. -/
theorem Inv.set (h : Inv kind s) (hreq : s.cancelRequested = false) (hkind : kind ≠ .internal)
    (hpc : s.pc.undecided) {status : TaskStatus} {q : Pc} (hcancelled : status ≠ .cancelled)
    (hcompleted : status = .completed → q = .completing)
    (hfailed : status = .failed → q = .failing ∨ q = .handling) :
    Inv kind (s.set status q) ∧ (s.status.Terminal → (s.set status q).status = s.status) := by
  have hopen : ¬ s.status.Terminal := h.not_terminal hreq hkind hpc
  have hnext : status = .failed → q = .failing ∨ q = .handling ∨ q = .ended := by
    intro hst
    rcases hfailed hst with hq | hq
    · exact .inl hq
    · exact .inr (.inl hq)
  refine ⟨⟨fun hst => .inl (hcompleted hst), hnext, fun hst => absurd hst hcancelled, ?_,
    fun hkind' => absurd hkind' hkind⟩, fun hst => absurd hst hopen⟩
  simp [Life.set, hreq]

/-- **One step.**  An orderly step keeps the invariant, and a terminal status. -/
theorem inv_step (h : Inv kind s) (hok : Orderly kind s e) (hstep : step kind s e = some t) :
    Inv kind t ∧ (s.status.Terminal → t.status = s.status) := by
  cases step_cases hstep with
  | wsCancel => exact inv_wsCancel h hok
  | deliver hreq =>
      have hst := h.requested hreq
      refine ⟨⟨?_, ?_, fun _ => .inl rfl, ?_, h.internal⟩, fun _ => rfl⟩ <;> simp [hst]
  | swallow => exact absurd hok id
  | start hreq hkind hpc =>
      exact h.set hreq hkind (by simp [hpc, Pc.undecided]) (by decide) (by simp) (by simp)
  | advance hreq hpc _ _ =>
      have hpc : s.pc.undecided := by rcases hpc with hpc | hpc | hpc | hpc <;> rw [hpc] <;> rfl
      exact ⟨h.goto (.inr hpc), fun _ => rfl⟩
  | abort hreq _ hpc =>
      have hpc : s.pc.undecided := by rcases hpc with hpc | hpc <;> rw [hpc] <;> rfl
      exact ⟨h.goto (.inr hpc), fun _ => rfl⟩
  | answer hreq => exact ⟨h.goto (.inl rfl), fun _ => rfl⟩
  | complete hreq hkind hpc _ =>
      exact h.set hreq hkind (by simp [hpc, Pc.undecided]) (by decide) (by simp) (by simp)
  | record hreq _ hpc =>
      rcases hpc with ⟨hpc, -⟩ | ⟨hpc, saved, rfl⟩
      · exact ⟨h.goto (.inr (by simp [hpc, Pc.undecided])), fun _ => rfl⟩
      · exact absurd hpc hok
  | giveUp hreq => exact ⟨h.goto (.inl rfl), fun _ => rfl⟩
  | failChat hreq hkind hpc =>
      exact h.set hreq (by simp [hkind]) (by simp [hpc, Pc.undecided]) (by decide) (by simp)
        fun _ => .inr rfl
  | failDirect hreq hkind hpc hq =>
      have hkind : kind ≠ .internal := by simp [hkind]
      rcases hpc with hpc | hpc | hpc | ⟨hpc, saved, rfl⟩
      case inr.inr.inl =>
        -- a task that is failing already is failed again
        refine ⟨⟨by simp [Life.set], ?_, by simp [Life.set], by simp [Life.set, hreq],
          fun hkind' => absurd hkind' hkind⟩, ?_⟩
        · intro _
          rcases hq with rfl | rfl
          · exact .inl rfl
          · exact .inr (.inl rfl)
        · rintro (hst | hst | hst)
          · rcases h.completed hst with hat | hat <;> simp [hpc] at hat
          · exact hst.symm
          · rcases h.cancelled hst with hat | hat | hat
            · simp [hpc, Pc.over] at hat
            · simp [hreq] at hat
            · exact absurd hat hkind
      case inr.inr.inr => exact absurd hpc hok
      all_goals
        exact h.set hreq hkind (by simp [hpc, Pc.undecided]) (by decide) (by simp) fun _ => hq
  | last hreq => exact ⟨h.goto (.inl rfl), fun _ => rfl⟩

/-! ## Whole runs -/

/-- **Finality.**  In a run of orderly steps no terminal status is ever
changed. -/
theorem terminalIsFinal_of_orderly (kind : Kind) (events : List Event)
    (hok : Run.Along (step kind) (Orderly kind) init events) : TerminalIsFinal kind events := by
  rintro as bs cs rfl s t hs ht
  have hsteady : Run.Steadily (step kind) (fun s t => s.status.Terminal → t.status = s.status)
      init (as ++ bs ++ cs) :=
    Run.steadily_of_invariant (fun _ _ _ h hok hstep => (inv_step h hok hstep).1)
      (fun _ _ _ h hok hstep => (inv_step h hok hstep).2) (inv_init kind) hok
  refine Run.rel_of_steadily (fun _ _ => rfl) ?_ hsteady hs ht
  intro s t u hst htu hterm
  have hsame : t.status = s.status := hst hterm
  have hterm' : t.status.Terminal := by
    rw [hsame]
    exact hterm
  rw [htu hterm', hsame]

/-! ## A cancel message that comes late -/

/-- A chat run up to the write of `COMPLETED`. -/
def upToCompleted : List Event := [.proceed, .proceed, .proceed, .finish true true true]

/-- A cancel message that stops a running chat. -/
theorem terminalIsFinal_cancelled :
    TerminalIsFinal .chat [.proceed, .proceed, .proceed, .wsCancel, .deliver, .wsCancel] :=
  terminalIsFinal_of_orderly _ _ (by decide)

/-- **A late cancel message.**  The task is completed, and a cancel message makes
it cancelled. -/
theorem late_cancel_not_final :
    ¬ TerminalIsFinal .chat (upToCompleted ++ [.proceed] ++ [.wsCancel]) := by
  intro h
  exact absurd (h (upToCompleted ++ [.proceed]) [.wsCancel] [] rfl _ _ rfl rfl (by decide))
    (by decide)

end TaskLife
end AgentSwarm
