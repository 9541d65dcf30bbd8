import AgentSwarm.Orchestrator.Runs

/-!
# One copy of the orchestrator for each run

A request stores its copy in the resolver, where the next request stores its own.
A run that goes into the builtin orchestrator at once finds its own copy; one that
has waited for an external orchestrator finds the copy of the last request.  And
the list of messages of a copy may be the session's own, which other runs of the
session have too.

* `NoneShared`, `Untouched`, `Isolated` — no two runs are in one copy, and no run
  writes what belongs to another.
* `Apart` — the condition on a step: a run that falls back finds its own copy,
  and a list that a run takes over or writes to is in no other run's loop.
* `Separate`, `separate_step` — a run is in its own copy, and no two runs have one
  list in their loops.
* `isolated_of_apart` — **isolation** in every run that meets it.
* `foreign_copy_written` — a run that falls back to another one's copy writes it.
-/

namespace AgentSwarm
namespace Orchestrator

/-- No two runs are in `execute` of one copy. -/
def NoneShared (s : Sys) : Prop :=
  ∀ r q k, (s.pc r).orch = some k → (s.pc q).orch = some k → r = q

/-- The step writes no field of a copy that another run is in, and appends nothing
to the list that another run has in its loop. -/
def Untouched (s : Sys) (a : Action) (t : Sys) : Prop :=
  ∀ q k, q ≠ a.run → (s.pc q).orch = some k → t.orchs k = s.orchs k ∧
    ∀ ref, s.pc q = .looping k → (s.orchs k).messages = some ref → t.lists ref = s.lists ref

/-- **Isolation along a run.** -/
structure Isolated (resolver : Option OrchestratorConfig) (systemPrompt : String)
    (prog : ℕ → Request) (history : ℕ → List Message) (context : ℕ → String)
    (acts : List Action) : Prop where
  noneShared : Run.Throughout (step resolver systemPrompt prog) NoneShared (init history context)
    acts
  untouched : Run.Obeys (step resolver systemPrompt prog) Untouched (init history context) acts

/-- Some run has the list in its loop. -/
def Sys.InLoop (s : Sys) (ref : ListRef) : Prop :=
  ∃ q k, s.pc q = .looping k ∧ (s.orchs k).messages = some ref

/-- The condition on a step.  A run that falls back finds in the resolver the copy
it has stored itself.  A session's messages that a run takes over, or that an
external turn is appended to, are not in the loop of another run. -/
def Apart (resolver : Option OrchestratorConfig) (prog : ℕ → Request) (s : Sys) (a : Action) :
    Prop :=
  match s.pc a.run, a.event with
  | .fallingBack, .emitted =>
      (∃ cfg, resolver = some cfg ∧ cfg.fallback) → s.builtin = some a.run
  | .resuming _, .resumed _ =>
      ∀ σ, (prog a.run).session = some σ → s.lists (s.sessions σ).messages ≠ [] →
        ¬ s.InLoop (s.sessions σ).messages
  | .external _, .externalReturns _ =>
      ∀ σ, (prog a.run).session = some σ → ¬ s.InLoop (s.sessions σ).messages
  | _, _ => True

/-! ## The invariant -/

/-- A run is in its own copy, and no two runs have one list in their loops. -/
structure Separate (s : Sys) : Prop where
  own : ∀ q k, (s.pc q).orch = some k → k = q
  fresh : Fresh s
  distinct : ∀ q q' ref, s.pc q = .looping q → s.pc q' = .looping q' →
    (s.orchs q).messages = some ref → (s.orchs q').messages = some ref → q = q'

theorem separate_init (history : ℕ → List Message) (context : ℕ → String) :
    Separate (init history context) where
  own := by simp [init, Pc.orch]
  fresh q _ := uses_init q
  distinct := by simp [init]

variable {resolver : Option OrchestratorConfig} {systemPrompt : String} {prog : ℕ → Request}
  {s t : Sys} {a : Action}

theorem Separate.looping (h : Separate s) {q k : ℕ} (hpc : s.pc q = .looping k) : k = q :=
  h.own q k (by rw [hpc]; rfl)

theorem Separate.noneShared (h : Separate s) : NoneShared s :=
  fun r q k hr hq => (h.own r k hr).symm.trans (h.own q k hq)

/-- A step that writes one copy and one list at most is untouching if the copy is
the run's own and the list is in no other run's loop. -/
theorem untouched_of_writes {r : ℕ} (h : Separate s)
    (horchs : ∃ o, t.orchs = Function.update s.orchs r o)
    (hlists : t.lists = s.lists ∨ ∃ ref messages, t.lists = Function.update s.lists ref messages ∧
      ∀ q, q ≠ r → s.pc q = .looping q → (s.orchs q).messages ≠ some ref) (e : Event) :
    Untouched s ⟨r, e⟩ t := by
  intro q k hq hk
  obtain rfl := h.own q k hk
  refine ⟨?_, ?_⟩
  · obtain ⟨o, hwrite⟩ := horchs
    rw [hwrite, Function.update_of_ne hq]
  · intro ref hloop href
    rcases hlists with hsame | ⟨ref', messages, hwrite, hfree⟩
    · rw [hsame]
    · have hne : ref ≠ ref' := by
        rintro rfl
        exact hfree k hq hloop href
      rw [hwrite, Function.update_of_ne hne]

/-! ## One step -/

theorem Separate.not_inLoop_built (h : Separate s) {r k : ℕ} (hpc : s.pc r = .resuming k) :
    ¬ s.InLoop (.built r) := by
  rintro ⟨q, j, -, hj⟩
  exact h.fresh r (by rw [hpc]; rfl) (.inr ⟨j, hj⟩)

theorem Sys.InLoop.free {ref : ListRef} (h : ¬ s.InLoop ref) (q : ℕ) (hloop : s.pc q = .looping q) :
    (s.orchs q).messages ≠ some ref :=
  fun href => h ⟨q, q, hloop, href⟩

/-- A run that comes to its list writes a new one, or the one of its session if the
condition lets it. -/
theorem untouched_resume (h : Separate s) {r : ℕ} {context : String}
    (hpc : s.pc r = .resuming r) (hok : Apart resolver prog s ⟨r, .resumed context⟩) :
    Untouched s ⟨r, .resumed context⟩ (s.resume systemPrompt (prog r) r r context) := by
  rcases resume_cases s systemPrompt (prog r) r r context with ⟨_, heq, -⟩ | ⟨σ, hσ, hne, heq⟩ <;>
    rw [heq]
  · refine untouched_of_writes h ⟨_, rfl⟩ (.inr ⟨_, _, rfl, ?_⟩) _
    exact fun q _ hloop => Sys.InLoop.free (h.not_inLoop_built hpc) q hloop
  · simp only [Apart, hpc] at hok
    refine untouched_of_writes h ⟨_, rfl⟩ (.inr ⟨_, _, rfl, ?_⟩) _
    exact fun q _ hloop => Sys.InLoop.free (hok σ hσ hne) q hloop

/-- The turn of an external orchestrator goes to a list that no run has in its
loop. -/
theorem untouched_reply (h : Separate s) {r : ℕ} {sent reply : String}
    (hpc : s.pc r = .external sent) (hok : Apart resolver prog s ⟨r, .externalReturns reply⟩) :
    Untouched s ⟨r, .externalReturns reply⟩ (s.reply (prog r) r sent reply) := by
  refine untouched_of_writes h ⟨s.orchs r, by simp⟩ ?_ _
  simp only [Apart, hpc] at hok
  unfold Sys.reply
  cases hσ : (prog r).session with
  | none => exact .inl rfl
  | some σ =>
      exact .inr ⟨_, _, rfl, fun q _ hloop => Sys.InLoop.free (hok σ hσ) q hloop⟩

/-- **What a step writes.**  A step that meets the condition is untouching. -/
theorem untouched_step (h : Separate s) (hok : Apart resolver prog s a)
    (hstep : step resolver systemPrompt prog s a = some t) : Untouched s a t := by
  obtain ⟨r, e⟩ := a
  cases step_cases hstep with
  | enter =>
      refine untouched_of_writes h ?_ (.inl ?_) _
      · exact ⟨_, rfl⟩
      · rfl
  | @fallback cfg k hpc hresolver hfallback hbuiltin =>
      simp only [Apart, hpc] at hok
      have hown : some k = some r := hbuiltin.symm.trans (hok ⟨cfg, hresolver, hfallback⟩)
      cases hown
      refine untouched_of_writes h ?_ (.inl ?_) _
      · exact ⟨_, rfl⟩
      · rfl
  | wait =>
      refine untouched_of_writes h ⟨s.orchs r, ?_⟩ (.inl ?_) _
      · exact (Function.update_eq_self r s.orchs).symm
      · rfl
  | @resume k context hpc =>
      obtain rfl := h.own r k (by rw [hpc]; rfl)
      exact untouched_resume h hpc hok
  | @work k ref messages dispatched context hpc href =>
      obtain rfl := h.looping hpc
      refine untouched_of_writes h ⟨_, rfl⟩ (.inr ⟨_, _, rfl, ?_⟩) _
      intro q hq hloop href'
      exact hq (h.distinct q k ref hloop hpc href' href)
  | @finish k ref hpc href =>
      obtain rfl := h.looping hpc
      exact untouched_of_writes h ⟨_, finish_orchs _ _ _ _ _⟩ (.inl (finish_lists _ _ _ _ _)) _
  | reply hpc => exact untouched_reply h hpc hok
  | fail => exact untouched_of_writes h ⟨s.orchs r, by simp⟩ (.inl (fail_lists _ _ _)) _

/-- The copy a run is in after a step is its own. -/
theorem own_step (h : Separate s) (hok : Apart resolver prog s a)
    (hstep : step resolver systemPrompt prog s a = some t) {q k : ℕ}
    (hk : (t.pc q).orch = some k) : k = q := by
  obtain ⟨r, e⟩ := a
  have hm := step_cases hstep
  by_cases hq : q = r
  · subst hq
    cases hm with
    | enter =>
        simp only [Sys.enter, Sys.goto, Function.update_self, Pc.orch, Option.some.injEq] at hk
        exact hk.symm
    | @fallback cfg j hpc hresolver hfallback hbuiltin =>
        simp only [Apart, hpc] at hok
        rw [hok ⟨cfg, hresolver, hfallback⟩] at hbuiltin
        cases hbuiltin
        simp only [Sys.enter, Sys.goto, Function.update_self, Pc.orch, Option.some.injEq] at hk
        exact hk.symm
    | wait hto =>
        simp only [Sys.goto, Function.update_self] at hk
        rcases hto with rfl | rfl | rfl <;> cases hk
    | @resume j _ hpc =>
        have hj : j = q := h.own q j (by rw [hpc]; rfl)
        rcases resume_cases s systemPrompt (prog q) q j _ with ⟨_, heq, -⟩ | ⟨σ, -, -, heq⟩ <;>
          rw [heq] at hk <;>
          simp only [Sys.build, Sys.alias, Sys.goto, Function.update_self, Pc.orch,
            Option.some.injEq] at hk <;>
          exact hk.symm.trans hj
    | work => exact h.own q k hk
    | finish => simp [finish_pc, Pc.orch] at hk
    | reply => simp [reply_pc, Pc.orch] at hk
    | fail => simp [fail_pc, Pc.orch] at hk
  · rw [hm.pc_of_ne hq] at hk
    exact h.own q k hk

/-- The list a run has in its loop after its step, it had there before, or no run
had it. -/
theorem loop_step (h : Separate s) (hok : Apart resolver prog s a)
    (hstep : step resolver systemPrompt prog s a = some t) {ref : ListRef}
    (hloop : t.pc a.run = .looping a.run) (href : (t.orchs a.run).messages = some ref) :
    (s.pc a.run = .looping a.run ∧ (s.orchs a.run).messages = some ref) ∨ ¬ s.InLoop ref := by
  obtain ⟨r, e⟩ := a
  cases step_cases hstep with
  | enter => simp [Sys.enter, Sys.goto] at hloop
  | fallback => simp [Sys.enter, Sys.goto] at hloop
  | wait hto =>
      simp only [Sys.goto, Function.update_self] at hloop
      rcases hto with rfl | rfl | rfl <;> cases hloop
  | @resume k context hpc =>
      obtain rfl := h.own r k (by rw [hpc]; rfl)
      right
      rcases resume_cases s systemPrompt (prog k) k k context with
        ⟨_, heq, -⟩ | ⟨σ, hσ, hne, heq⟩ <;> rw [heq] at href
      · simp only [Sys.build, Sys.goto, Sys.modify, Function.update_self,
          Option.some.injEq] at href
        exact href ▸ h.not_inLoop_built hpc
      · simp only [Sys.alias, Sys.goto, Sys.modify, Function.update_self,
          Option.some.injEq] at href
        simp only [Apart, hpc] at hok
        exact href ▸ hok σ hσ hne
  | @work k ref' _ dispatched context hpc href' =>
      obtain rfl := h.looping hpc
      have hsame := update_messages s.orchs k
        (o := { s.orchs k with dispatched := dispatched, sharedContext := context }) rfl k
      exact .inl ⟨hpc, hsame.symm.trans href⟩
  | finish => simp [finish_pc] at hloop
  | reply => simp [reply_pc] at hloop
  | fail => simp [fail_pc] at hloop

/-- **One step.**  A step that meets the condition keeps the runs separate. -/
theorem separate_step (h : Separate s) (hok : Apart resolver prog s a)
    (hstep : step resolver systemPrompt prog s a = some t) : Separate t where
  own _ _ := own_step h hok hstep
  fresh := fresh_step h.fresh (step_cases hstep)
  distinct q q' ref hq hq' href href' := by
    have huntouched := untouched_step h hok hstep
    -- a run that did not take the step has its list in the loop as before
    have hbefore : ∀ p, p ≠ a.run → t.pc p = .looping p → (t.orchs p).messages = some ref →
        s.pc p = .looping p ∧ (s.orchs p).messages = some ref := by
      intro p hp hloop hp'
      rw [(step_cases hstep).pc_of_ne hp] at hloop
      rw [(huntouched p p hp (by rw [hloop]; rfl)).1] at hp'
      exact ⟨hloop, hp'⟩
    -- and the one that took it has not come to a list that another run has
    have hafter : ∀ p, p ≠ a.run → t.pc p = .looping p → (t.orchs p).messages = some ref →
        t.pc a.run = .looping a.run → (t.orchs a.run).messages = some ref → p = a.run := by
      intro p hp hloop hp' hrun hrun'
      obtain ⟨hloop, hp'⟩ := hbefore p hp hloop hp'
      rcases loop_step h hok hstep hrun hrun' with ⟨hold, hold'⟩ | hfree
      · exact h.distinct p a.run ref hloop hold hp' hold'
      · exact absurd ⟨p, p, hloop, hp'⟩ hfree
    by_cases hqr : q = a.run
    · by_cases hqr' : q' = a.run
      · rw [hqr, hqr']
      · exact (hqr.trans (hafter q' hqr' hq' href' (hqr ▸ hq) (hqr ▸ href)).symm)
    · by_cases hqr' : q' = a.run
      · exact (hafter q hqr hq href (hqr' ▸ hq') (hqr' ▸ href')).trans hqr'.symm
      · obtain ⟨hloop, hold⟩ := hbefore q hqr hq href
        obtain ⟨hloop', hold'⟩ := hbefore q' hqr' hq' href'
        exact h.distinct q q' ref hloop hloop' hold hold'

/-! ## Whole runs -/

/-- **Isolation.**  If every run that falls back finds its own copy, and no run
takes over or writes to a list that another one has in its loop, then no two runs
are ever in one copy, and no run writes what belongs to another. -/
theorem isolated_of_apart (resolver : Option OrchestratorConfig) (systemPrompt : String)
    (prog : ℕ → Request) (history : ℕ → List Message) (context : ℕ → String) (acts : List Action)
    (hok : Run.Along (step resolver systemPrompt prog) (Apart resolver prog)
      (init history context) acts) :
    Isolated resolver systemPrompt prog history context acts where
  noneShared := (Run.throughout_of_invariant (fun _ _ _ => separate_step)
    (separate_init history context) hok).mono fun _ => Separate.noneShared
  untouched := Run.obeys_of_invariant (fun _ _ _ => separate_step)
    (fun _ _ _ => untouched_step) (separate_init history context) hok

/-- **A copy of another run.**  A run that falls back to the copy of another one
sets its fields, whatever the other one is doing. -/
theorem foreign_copy_written {cfg : OrchestratorConfig} {r k : ℕ}
    (hpc : s.pc r = .fallingBack) (hfallback : cfg.fallback) (hbuiltin : s.builtin = some k)
    (hstep : step (some cfg) systemPrompt prog s ⟨r, .emitted⟩ = some t) :
    (t.orchs k).currentTaskId = (prog r).taskId ∧ (t.pc r).orch = some k := by
  unfold step at hstep
  simp only [hpc, hbuiltin, hfallback, if_true, Option.some.injEq] at hstep
  subst hstep
  simp [Sys.enter, Sys.goto, Sys.modify, Pc.orch]

/-! ## An external orchestrator that fails -/

/-- Two requests of two new sessions. -/
def twoRequests (r : ℕ) : Request := ⟨toString r, some r, "build a shop"⟩

/-- An external orchestrator with a fallback. -/
def externalConfig : OrchestratorConfig := ⟨"external", "http://orchestrator:9000", true⟩

/-- The second request starts when the first has fallen back, and the two work in
their own copies at the same time. -/
theorem isolated_fallback_in_turn :
    Isolated (some externalConfig) "sys" twoRequests (fun _ => []) (fun _ => "")
      [⟨0, .start⟩, ⟨0, .externalRaises⟩, ⟨0, .emitted⟩, ⟨1, .start⟩, ⟨1, .externalRaises⟩,
        ⟨1, .emitted⟩, ⟨0, .resumed ""⟩, ⟨1, .resumed ""⟩, ⟨0, .finish⟩] := by
  refine isolated_of_apart _ _ _ _ _ _ ?_
  refine .cons trivial rfl (.cons trivial rfl (.cons (fun _ => rfl) rfl ?_))
  refine .cons trivial rfl (.cons trivial rfl (.cons (fun _ => rfl) rfl ?_))
  refine .cons ?_ rfl (.cons ?_ rfl (.cons trivial rfl trivial))
  · rintro σ - hne
    exact absurd rfl hne
  · rintro σ hσ hne
    cases hσ
    exact absurd rfl hne

/-- **A copy of another request.**  Both requests have started when the external
orchestrator fails.  Both fall back to the copy that the second has stored: the
first is in its loop when the second goes in. -/
theorem fallback_not_isolated :
    ¬ Isolated (some externalConfig) "sys" twoRequests (fun _ => []) (fun _ => "")
      [⟨0, .start⟩, ⟨1, .start⟩, ⟨0, .externalRaises⟩, ⟨0, .emitted⟩, ⟨0, .resumed ""⟩,
        ⟨1, .externalRaises⟩, ⟨1, .emitted⟩] := by
  intro h
  have hshared := h.noneShared.last rfl 0 1 1 rfl rfl
  cases hshared

end Orchestrator
end AgentSwarm
