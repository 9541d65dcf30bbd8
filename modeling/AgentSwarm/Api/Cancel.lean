import AgentSwarm.Api.TaskLife
import AgentSwarm.Lib.Run

/-!
# What a cancel message stops

A client that cancels a task wants the work to stop, not only the status to change.
The work of a task are the dispatches that its coroutine starts.

* `Work` — a task with the number of the dispatches that were started for it.
* `workStep` — a step of the task, or a dispatch that a running `execute` starts.
* `CancelStops` — after a cancel message the coroutine is to be cancelled, starts no
  dispatch any more, and neither completes nor fails its task.
* `FindsRun` — the condition on a step: a cancel message finds a run that is
  **registered**, and the orchestrator does not suppress the cancellation.
* `cancelStops_of_findsRun` — it is enough, for every run.
* `direct_goes_on` — a direct chat is not registered, and goes on.
-/

namespace AgentSwarm
namespace TaskLife

/-- A task, and how many dispatches were started for it. -/
structure Work where
  life : Life
  dispatches : ℕ := 0
  deriving DecidableEq

inductive WorkEvent where
  | life (e : Event)
  /-- The orchestrator starts a dispatch. -/
  | dispatch
  deriving DecidableEq

/-- `run_direct` goes on to its one dispatch. -/
def startsDispatch (kind : Kind) (s : Life) (e : Event) : Bool :=
  kind = .direct && s.pc = .logging && e = .proceed

/-- One step of the task, or a dispatch that `execute` starts. -/
def workStep (kind : Kind) (w : Work) : WorkEvent → Option Work
  | .life e =>
      (step kind w.life e).map fun life => {
        life := life
        dispatches := if startsDispatch kind w.life e then w.dispatches + 1 else w.dispatches }
  | .dispatch =>
      if kind = .chat ∧ w.life.pc = .executing ∧ w.life.cancelRequested = false then
        some { w with dispatches := w.dispatches + 1 }
      else none

/-- A task that has just been created. -/
def newWork : Work := { life := init }

/-- A cancel message for a task whose coroutine has not ended requests its cancellation, and
in what follows no dispatch is started and the task is not completed and not failed. -/
def CancelStops (kind : Kind) (events : List WorkEvent) : Prop :=
  ∀ as bs cs, events = as ++ .life .wsCancel :: (bs ++ cs) → ∀ w w' u,
    Run.exec (workStep kind) newWork as = some w → w.life.pc.over = false →
      workStep kind w (.life .wsCancel) = some w' →
        w'.life.cancelRequested = true ∧
          (Run.exec (workStep kind) w' bs = some u →
            u.dispatches = w'.dispatches ∧ u.life.status = .cancelled)

/-- The condition on a step.  A cancel message finds a registered run in progress, or no
coroutine; and the orchestrator does not suppress a cancellation. -/
def FindsRun (kind : Kind) (w : Work) : WorkEvent → Prop
  | .life .wsCancel => (kind = .chat ∧ w.life.pc.running = true) ∨ w.life.pc.over = true
  | .life .swallow => False
  | _ => True

instance (kind : Kind) (w : Work) : (e : WorkEvent) → Decidable (FindsRun kind w e)
  | .life .wsCancel =>
      inferInstanceAs (Decidable ((kind = .chat ∧ w.life.pc.running = true) ∨ w.life.pc.over = true))
  | .life .swallow => inferInstanceAs (Decidable False)
  | .life .proceed | .life (.raise _) | .life (.finish _ _ _) | .life .deliver | .dispatch =>
      inferInstanceAs (Decidable True)

/-! ## After the message -/

/-- The task is cancelled, and its coroutine is over or about to be thrown out. -/
def Stopping (w : Work) : Prop :=
  w.life.status = .cancelled ∧
    (w.life.cancelRequested = true ∧ w.life.pc.running = true ∨ w.life.pc.over = true)

variable {kind : Kind} {w w' : Work} {e : WorkEvent}

/-- A coroutine that is not to be cancelled and takes a step is not over. -/
theorem over_of_moved {s t : Life} {e : Event} (h : Moved kind s e t)
    (hreq : s.cancelRequested = false) (he : e ≠ .wsCancel) : s.pc.over = false := by
  cases h with
  | wsCancel => exact absurd rfl he
  | deliver h => simp [hreq] at h
  | swallow h hpc => simp [hreq] at h
  | start _ _ hpc => simp [hpc, Pc.over]
  | advance _ hpc _ _ => rcases hpc with hpc | hpc | hpc | hpc <;> simp [hpc, Pc.over]
  | abort _ _ hpc => rcases hpc with hpc | hpc <;> simp [hpc, Pc.over]
  | answer _ _ _ hpc => rcases hpc with hpc | hpc <;> simp [hpc, Pc.over]
  | complete _ _ hpc _ => simp [hpc, Pc.over]
  | record _ _ hpc => rcases hpc with ⟨hpc, -⟩ | ⟨hpc, -⟩ <;> simp [hpc, Pc.over]
  | giveUp _ _ he => rcases he with ⟨hpc, -⟩ | ⟨hpc, -⟩ | ⟨hpc, -⟩ <;> simp [hpc, Pc.over]
  | failChat _ _ hpc => simp [hpc, Pc.over]
  | failDirect _ _ hpc _ => rcases hpc with hpc | hpc | hpc | ⟨hpc, -⟩ <;> simp [hpc, Pc.over]
  | last _ hpc => rcases hpc with hpc | hpc | ⟨hpc, -⟩ <;> simp [hpc, Pc.over]

/-- A cancellation that is pending is the next thing that happens to the coroutine. -/
theorem moved_of_requested {s t : Life} {e : Event} (h : Moved kind s e t)
    (hreq : s.cancelRequested = true) : e = .wsCancel ∨ e = .deliver ∨ e = .swallow := by
  cases h with
  | wsCancel => exact .inl rfl
  | deliver _ => exact .inr (.inl rfl)
  | swallow _ _ => exact .inr (.inr rfl)
  | start h _ _ => simp [hreq] at h
  | advance h _ _ _ => simp [hreq] at h
  | abort h _ _ => simp [hreq] at h
  | answer h _ _ _ => simp [hreq] at h
  | complete h _ _ _ => simp [hreq] at h
  | record h _ _ => simp [hreq] at h
  | giveUp h _ _ => simp [hreq] at h
  | failChat h _ _ => simp [hreq] at h
  | failDirect h _ _ _ => simp [hreq] at h
  | last h _ => simp [hreq] at h

/-- **One step.**  What is stopping stops. -/
theorem stopping_step (hw : Stopping w) (hok : FindsRun kind w e) (h : workStep kind w e = some w') :
    Stopping w' ∧ w'.dispatches = w.dispatches := by
  obtain ⟨hstatus, hplace⟩ := hw
  rcases e with e | -
  · simp only [workStep, Option.map_eq_some_iff] at h
    obtain ⟨life, hlife, rfl⟩ := h
    by_cases hcancel : e = .wsCancel
    · subst hcancel
      cases hlife
      refine ⟨⟨rfl, ?_⟩, by simp [startsDispatch]⟩
      rcases hplace with ⟨hreq, hrun⟩ | hover
      · exact .inl ⟨by simp [Life.wsCancel, hreq], hrun⟩
      · exact .inr hover
    · have hmoved := step_cases hlife
      rcases hplace with ⟨hreq, -⟩ | hover
      · rcases moved_of_requested hmoved hreq with rfl | rfl | rfl
        · exact absurd rfl hcancel
        · simp only [step, hreq, if_true, Option.some.injEq] at hlife
          subst hlife
          exact ⟨⟨hstatus, .inr rfl⟩, by simp [startsDispatch]⟩
        · exact absurd hok id
      · cases hreq : w.life.cancelRequested with
        | false => simp [over_of_moved hmoved hreq hcancel] at hover
        | true =>
            rcases moved_of_requested hmoved hreq with rfl | rfl | rfl
            · exact absurd rfl hcancel
            · simp only [step, hreq, if_true, Option.some.injEq] at hlife
              subst hlife
              exact ⟨⟨hstatus, .inr rfl⟩, by simp [startsDispatch]⟩
            · exact absurd hok id
  · simp only [workStep] at h
    split at h
    · rename_i hexec
      rcases hplace with ⟨hreq, -⟩ | hover
      · rw [hexec.2.2] at hreq
        cases hreq
      · rw [hexec.2.1] at hover
        cases hover
    · cases h

/-- **Cancel stops the work.**  In every run whose cancel messages find a registered run in
progress, or none, a cancelled coroutine starts no dispatch and decides nothing. -/
theorem cancelStops_of_findsRun (kind : Kind) (events : List WorkEvent)
    (hok : Run.Along (workStep kind) (FindsRun kind) newWork events) : CancelStops kind events := by
  rintro as bs cs rfl w w' u hw hover hcancel
  have hmid : Run.Along (workStep kind) (FindsRun kind) w (.life .wsCancel :: (bs ++ cs)) :=
    Run.along_suffix hok hw
  obtain ⟨hfinds, hrest⟩ := Run.along_cons hmid hcancel
  obtain ⟨hkind, hrun⟩ : kind = .chat ∧ w.life.pc.running = true := by
    rcases hfinds with hfinds | hfinds
    · exact hfinds
    · rw [hover] at hfinds
      cases hfinds
  have hafter : w'.life = w.life.wsCancel kind := by
    simp only [workStep, step, Option.map_some, Option.some.injEq] at hcancel
    rw [← hcancel]
  have hreq : w'.life.cancelRequested = true := by
    simp [hafter, Life.wsCancel, hkind, hrun]
  have hplace : w'.life.pc.running = true := by
    rw [hafter]
    exact hrun
  have hstopping : Stopping w' := ⟨by rw [hafter]; rfl, .inl ⟨hreq, hplace⟩⟩
  refine ⟨hreq, fun hu => ?_⟩
  have hend := Run.exec_invariant (I := fun v => Stopping v ∧ v.dispatches = w'.dispatches)
    (fun v e v' hv hok h => by
      obtain ⟨hstop, hsame⟩ := stopping_step hv.1 hok h
      exact ⟨hstop, hsame.trans hv.2⟩)
    ⟨hstopping, rfl⟩ (Run.along_of_append hrest) hu
  exact ⟨hend.2, hend.1.1⟩

/-- A chat task is cancelled after its first dispatch. -/
theorem cancelStops_chat : CancelStops .chat
    [.life .proceed, .life .proceed, .life .proceed, .dispatch, .life .wsCancel,
      .life .deliver] :=
  cancelStops_of_findsRun .chat _ (by decide)

/-- A direct chat: the cancel message comes when its run has not started; the run dispatches
and completes the task. -/
theorem direct_goes_on : ¬ CancelStops .direct
    [.life .proceed, .life .proceed, .life .wsCancel, .life .proceed, .life .proceed,
      .life (.finish true true true)] := by
  intro h
  have hcancel := h [.life .proceed, .life .proceed] [] [.life .proceed, .life .proceed,
    .life (.finish true true true)] rfl _ _ newWork rfl rfl rfl
  revert hcancel
  decide

end TaskLife
end AgentSwarm
