import AgentSwarm.Orchestrator.Runs

/-!
# The turns of a shared session

The runs of one session share its `SessionState`, but not always its list: a run
that finds the list empty builds one of its own and assigns it at the end.  The
user's message of a run is in what the session saves if no other run has such a
list of its own meanwhile.

* `NoTurnLost` — when the runs of a session are over, each one's user message is
  in what the session has saved.
* `PrivateLoop` — another run of the session is at work on a list of its own.
* `KeepsTurns` — the condition on a step.
* `Owned`, `Turns` — the invariant: whose lists there are, and which messages are
  in them.
* `noTurnLost_of_keepsTurns` — **no turn is lost** in a run that meets the
  condition.
-/

namespace AgentSwarm
namespace Orchestrator

/-- Every run of a session is over, and then what is saved holds the user message
of each of them. -/
def NoTurnLost (prog : ℕ → Request) (s : Sys) : Prop :=
  ∀ σ, (∀ r, (prog r).session = some σ → s.pc r = .queued ∨ s.pc r = .returned) →
    ∀ r, (prog r).session = some σ → s.pc r = .returned →
      .user (prog r).userMessage ∈ s.saved σ

/-- A run of session `σ` other than `r` is in its loop, and its list is not the
session's. -/
def Sys.PrivateLoop (prog : ℕ → Request) (s : Sys) (r σ : ℕ) : Prop :=
  ∃ q k, q ≠ r ∧ (prog q).session = some σ ∧ s.pc q = .looping k ∧
    (s.orchs k).messages ≠ some (s.sessions σ).messages

/-- The condition on a step.  A run that falls back finds in the resolver a copy
stored for its session.  When a run comes to its list, or an external turn is
appended, no other run of the session is at work on a list of its own; and a
message that went to an external orchestrator does not contain the heading that
is put before it. -/
def KeepsTurns (resolver : Option OrchestratorConfig) (prog : ℕ → Request) (s : Sys)
    (a : Action) : Prop :=
  match s.pc a.run, a.event with
  | .fallingBack, .emitted =>
      ∀ k, (∃ cfg, resolver = some cfg ∧ cfg.fallback) → s.builtin = some k →
        (prog k).session = (prog a.run).session
  | .resuming _, .resumed _ =>
      ∀ σ, (prog a.run).session = some σ → ¬ s.PrivateLoop prog a.run σ
  | .external _, .externalReturns _ =>
      ∀ σ, (prog a.run).session = some σ →
        ¬ s.PrivateLoop prog a.run σ ∧ ¬ requestMarker <:+: (prog a.run).userMessage.toList
  | _, _ => True

/-! ## Whose lists there are -/

/-- The session a list was loaded or built for. -/
def ListRef.owner (prog : ℕ → Request) : ListRef → Option ℕ
  | .loaded σ => some σ
  | .built r => (prog r).session

/-- A run is in a copy that was made for its session; sessions and copies have
lists of their own session; and what an external orchestrator was sent ends with
the user's message. -/
structure Owned (prog : ℕ → Request) (s : Sys) : Prop where
  same : ∀ r k, (s.pc r).orch = some k → (prog k).session = (prog r).session
  sent : ∀ r text, s.pc r = .external text →
    ∃ messages, text = withHistory messages (prog r).userMessage
  session : ∀ σ, (s.sessions σ).messages.owner prog = some σ
  orch : ∀ k ref, (s.orchs k).messages = some ref → ref.owner prog = (prog k).session

theorem owned_init (prog : ℕ → Request) (history : ℕ → List Message) (context : ℕ → String) :
    Owned prog (init history context) where
  same := by simp [init, Pc.orch]
  sent := by simp [init]
  session _ := rfl
  orch := by simp [init]

variable {resolver : Option OrchestratorConfig} {systemPrompt : String} {prog : ℕ → Request}
  {s t : Sys} {a : Action} {r k σ : ℕ}

/-- The run that takes a step goes into a copy of its session, stays in its copy,
or leaves it. -/
theorem same_step (h : Owned prog s) (hok : KeepsTurns resolver prog s a)
    (hstep : step resolver systemPrompt prog s a = some t) (hk : (t.pc a.run).orch = some k) :
    (prog k).session = (prog a.run).session := by
  obtain ⟨r, e⟩ := a
  cases step_cases hstep with
  | enter =>
      simp only [Sys.enter, Sys.goto, Function.update_self, Pc.orch, Option.some.injEq] at hk
      rw [hk]
  | @fallback cfg j hpc hresolver hfallback hbuiltin =>
      simp only [Sys.enter, Sys.goto, Function.update_self, Pc.orch, Option.some.injEq] at hk
      subst hk
      simp only [KeepsTurns, hpc] at hok
      exact hok j ⟨cfg, hresolver, hfallback⟩ hbuiltin
  | wait hto =>
      simp only [Sys.goto, Function.update_self] at hk
      rcases hto with rfl | rfl | rfl <;> cases hk
  | @resume j _ hpc =>
      have hsame := h.same r j (by rw [hpc]; rfl)
      rcases resume_cases s systemPrompt (prog r) r j _ with ⟨_, heq, -⟩ | ⟨σ, -, -, heq⟩ <;>
        rw [heq] at hk <;>
        simp only [Sys.build, Sys.alias, Sys.goto, Function.update_self, Pc.orch,
          Option.some.injEq] at hk <;>
        exact hk ▸ hsame
  | work => exact h.same r k hk
  | finish => simp [finish_pc, Pc.orch] at hk
  | reply => simp [reply_pc, Pc.orch] at hk
  | fail => simp [fail_pc, Pc.orch] at hk

/-- A run that waits for an external orchestrator has sent it its message. -/
theorem sent_step (h : Owned prog s) (hstep : step resolver systemPrompt prog s a = some t)
    {text : String} (ht : t.pc a.run = .external text) :
    ∃ messages, text = withHistory messages (prog a.run).userMessage := by
  obtain ⟨r, e⟩ := a
  cases step_cases hstep with
  | enter => simp [Sys.enter, Sys.goto] at ht
  | fallback => simp [Sys.enter, Sys.goto] at ht
  | wait hto =>
      simp only [Sys.goto, Function.update_self] at ht
      rcases hto with rfl | rfl | rfl
      · cases ht
      · cases ht
      · cases ht
        exact ⟨_, rfl⟩
  | @resume j _ hpc =>
      rcases resume_cases s systemPrompt (prog r) r j _ with ⟨_, heq, -⟩ | ⟨σ, -, -, heq⟩ <;>
        rw [heq] at ht <;> simp [Sys.build, Sys.alias, Sys.goto] at ht
  | work => exact h.sent r text ht
  | finish => simp [finish_pc] at ht
  | reply => simp [reply_pc] at ht
  | fail => simp [fail_pc] at ht

/-- The lists of sessions and copies after a step. -/
theorem lists_step (h : Owned prog s) (hstep : step resolver systemPrompt prog s a = some t) :
    (∀ σ, (t.sessions σ).messages.owner prog = some σ) ∧
      ∀ k ref, (t.orchs k).messages = some ref → ref.owner prog = (prog k).session := by
  have hkeep : (∀ σ, (t.sessions σ).messages = (s.sessions σ).messages) →
      (∀ k, (t.orchs k).messages = (s.orchs k).messages) →
      (∀ σ, (t.sessions σ).messages.owner prog = some σ) ∧
        ∀ k ref, (t.orchs k).messages = some ref → ref.owner prog = (prog k).session := by
    intro hsessions horchs
    refine ⟨fun σ => ?_, fun k ref href => h.orch k ref ?_⟩
    · rw [hsessions]
      exact h.session σ
    · rw [← horchs, href]
  obtain ⟨r, e⟩ := a
  cases step_cases hstep with
  | enter => exact hkeep (fun _ => rfl) (update_messages s.orchs _ rfl)
  | fallback => exact hkeep (fun _ => rfl) (update_messages s.orchs _ rfl)
  | wait => exact hkeep (fun _ => rfl) fun _ => rfl
  | @resume j _ hpc =>
      have hsame := h.same r j (by rw [hpc]; rfl)
      rcases resume_cases s systemPrompt (prog r) r j _ with ⟨_, heq, -⟩ | ⟨σ, hσ, -, heq⟩ <;>
        rw [heq] <;> refine ⟨h.session, fun k ref href => ?_⟩ <;> by_cases hkj : k = j
      · subst hkj
        simp only [Sys.build, Sys.goto, Sys.modify, Function.update_self, Option.some.injEq] at href
        rw [← href, hsame]
        rfl
      · simp only [Sys.build, Sys.goto, Sys.modify, Function.update_of_ne hkj] at href
        exact h.orch k ref href
      · subst hkj
        simp only [Sys.alias, Sys.goto, Sys.modify, Function.update_self, Option.some.injEq] at href
        rw [← href, hsame, hσ]
        exact h.session σ
      · simp only [Sys.alias, Sys.goto, Sys.modify, Function.update_of_ne hkj] at href
        exact h.orch k ref href
  | work => exact hkeep (fun _ => rfl) (update_messages s.orchs _ rfl)
  | @finish j ref' hpc href' =>
      have hsame := h.same r j (by rw [hpc]; rfl)
      refine ⟨fun σ => ?_, fun k ref href => h.orch k ref ?_⟩
      · unfold Sys.finish
        cases hσ : (prog r).session with
        | none => exact h.session σ
        | some σ' =>
            by_cases hne : σ = σ'
            · subst hne
              simp only [Sys.goto, Sys.modify, save_sessions, Function.update_self]
              rw [h.orch j ref' href', hsame, hσ]
            · simp only [Sys.goto, Sys.modify, save_sessions, Function.update_of_ne hne]
              exact h.session σ
      · rw [← update_messages s.orchs j (o := { s.orchs j with dispatched := [] }) rfl k,
          ← finish_orchs, href]
  | reply => exact hkeep (by simp) (by simp)
  | fail => exact hkeep (by simp) (by simp)

/-- **One step.** -/
theorem owned_step (h : Owned prog s) (hok : KeepsTurns resolver prog s a)
    (hstep : step resolver systemPrompt prog s a = some t) : Owned prog t where
  same r k hk := by
    by_cases hr : r = a.run
    · subst hr
      exact same_step h hok hstep hk
    · rw [(step_cases hstep).pc_of_ne hr] at hk
      exact h.same r k hk
  sent r text htext := by
    by_cases hr : r = a.run
    · subst hr
      exact sent_step h hstep htext
    · rw [(step_cases hstep).pc_of_ne hr] at htext
      exact h.sent r text htext
  session := (lists_step h hstep).1
  orch := (lists_step h hstep).2

/-! ## Which messages are in them -/

/-- A run in its loop has its message in its list, and this is the session's list
unless it is the first run of the session to come so far.  A run that has returned
has it in the session's list, and saved. -/
structure Turns (prog : ℕ → Request) (s : Sys) : Prop where
  looping : ∀ r k σ, (prog r).session = some σ → s.pc r = .looping k →
    ∃ ref, (s.orchs k).messages = some ref ∧ .user (prog r).userMessage ∈ s.lists ref ∧
      (ref = (s.sessions σ).messages ∨ s.lists (s.sessions σ).messages = [] ∧
        ∀ q j, (prog q).session = some σ → s.pc q = .looping j → q = r)
  returned : ∀ r σ, (prog r).session = some σ → s.pc r = .returned →
    .user (prog r).userMessage ∈ s.lists (s.sessions σ).messages
  saved : ∀ r σ, (prog r).session = some σ → s.pc r = .returned →
    .user (prog r).userMessage ∈ s.saved σ

theorem turns_init (prog : ℕ → Request) (history : ℕ → List Message) (context : ℕ → String) :
    Turns prog (init history context) where
  looping := by simp [init]
  returned := by simp [init]
  saved := by simp [init]

theorem Turns.noTurnLost (h : Turns prog s) : NoTurnLost prog s :=
  fun σ _ r hσ hpc => h.saved r σ hσ hpc

/-- A run that is at work in a session with an empty list has a list of its own. -/
theorem Turns.privateLoop (h : Turns prog s) {q : ℕ} (hq : q ≠ r)
    (hσ : (prog q).session = some σ) (hpc : s.pc q = .looping k)
    (hempty : s.lists (s.sessions σ).messages = []) : s.PrivateLoop prog r σ := by
  obtain ⟨ref, href, hmem, -⟩ := h.looping q k σ hσ hpc
  refine ⟨q, k, hq, hσ, hpc, ?_⟩
  intro hown
  rw [hown, Option.some.injEq] at href
  rw [← href, hempty] at hmem
  cases hmem

/-- A run at work in a session with history has the session's list. -/
theorem Turns.shared (h : Turns prog s) (hσ : (prog r).session = some σ)
    (hpc : s.pc r = .looping k) (hne : s.lists (s.sessions σ).messages ≠ []) :
    (s.orchs k).messages = some (s.sessions σ).messages := by
  obtain ⟨ref, href, -, rfl | ⟨hempty, -⟩⟩ := h.looping r k σ hσ hpc
  · exact href
  · exact absurd hempty hne

/-- A step that changes no list, and no list of a session or a copy, and lets its
run neither loop nor return. -/
theorem Turns.quiet (h : Turns prog s) (hlists : t.lists = s.lists)
    (hsessions : ∀ σ, (t.sessions σ).messages = (s.sessions σ).messages)
    (horchs : ∀ k, (t.orchs k).messages = (s.orchs k).messages)
    (hsaved : ∀ σ, t.saved σ = s.saved σ ∨ t.saved σ = s.lists (s.sessions σ).messages)
    (hloop : ∀ q k, t.pc q = .looping k → s.pc q = .looping k)
    (hret : ∀ q, t.pc q = .returned → s.pc q = .returned) : Turns prog t where
  looping q k σ hσ hpc := by
    obtain ⟨ref, href, hmem, hwhere⟩ := h.looping q k σ hσ (hloop q k hpc)
    refine ⟨ref, by rw [horchs, href], by rwa [hlists], ?_⟩
    rw [hsessions, hlists]
    refine hwhere.imp_right fun ⟨hempty, honly⟩ => ⟨hempty, ?_⟩
    exact fun q' j hσ' hpc' => honly q' j hσ' (hloop q' j hpc')
  returned q σ hσ hpc := by
    rw [hlists, hsessions]
    exact h.returned q σ hσ (hret q hpc)
  saved q σ hσ hpc := by
    rcases hsaved σ with hsame | hnew
    · rw [hsame]
      exact h.saved q σ hσ (hret q hpc)
    · rw [hnew]
      exact h.returned q σ hσ (hret q hpc)

theorem mem_extend {ref ref' : ListRef} {m : Message} {messages : List Message}
    (h : m ∈ s.lists ref) : m ∈ (s.extend ref' messages).lists ref := by
  unfold Sys.extend
  by_cases hne : ref = ref'
  · subst hne
    simp [h]
  · simpa [hne] using h

/-- A run that moves to `p` is not where it was. -/
theorem pc_of_update {p p' : Pc} (hp : p ≠ p') {pc : ℕ → Pc} {q : ℕ}
    (h : Function.update pc r p q = p') : pc q = p' ∧ q ≠ r := by
  by_cases hq : q = r
  · subst hq
    rw [Function.update_self] at h
    exact absurd h hp
  · rw [Function.update_of_ne hq] at h
    exact ⟨h, hq⟩

section Ends

variable (s : Sys) (req : Request) (r k : ℕ) (ref : ListRef)

theorem finish_session (σ : ℕ) : ((s.finish req r k ref).sessions σ).messages =
    if req.session = some σ then ref else (s.sessions σ).messages := by
  unfold Sys.finish
  cases hσ : req.session with
  | none => simp [Sys.goto, Sys.modify]
  | some σ' =>
      by_cases hne : σ = σ'
      · simp [Sys.goto, Sys.modify, hne]
      · simp [Sys.goto, Sys.modify, hne, Ne.symm hne]

theorem finish_saved (σ : ℕ) : (s.finish req r k ref).saved σ =
    if req.session = some σ then s.lists ref else s.saved σ := by
  unfold Sys.finish
  cases hσ : req.session with
  | none => simp [Sys.goto, Sys.modify]
  | some σ' =>
      by_cases hne : σ = σ'
      · simp [Sys.goto, Sys.modify, Sys.save, hne]
      · simp [Sys.goto, Sys.modify, Sys.save, hne, Ne.symm hne]

end Ends

/-! ## One step -/

/-- When a run ends, its message and those of the runs that returned before are in
the list that the session gets. -/
theorem returned_of_finish (h : Turns prog s) {ref : ListRef} (hpc : s.pc r = .looping k)
    (href : (s.orchs k).messages = some ref) {q : ℕ} (hσ : (prog q).session = some σ)
    (hq : (s.finish (prog r) r k ref).pc q = .returned) :
    .user (prog q).userMessage ∈
      s.lists (if (prog r).session = some σ then ref else (s.sessions σ).messages) := by
  rw [finish_pc] at hq
  by_cases hqr : q = r
  · subst hqr
    obtain ⟨ref', href', hmem, -⟩ := h.looping q k σ hσ hpc
    rw [href, Option.some.injEq] at href'
    rwa [if_pos hσ, href']
  · rw [Function.update_of_ne hqr] at hq
    have hold := h.returned q σ hσ hq
    by_cases hr : (prog r).session = some σ
    · have hsame := h.shared hr hpc (List.ne_nil_of_mem hold)
      rw [href, Option.some.injEq] at hsame
      rwa [if_pos hr, hsame]
    · rwa [if_neg hr]

/-- The end of a run: the session gets its list, which it had already or which the
only run at work has built. -/
theorem turns_finish (h : Turns prog s) {ref : ListRef} (hpc : s.pc r = .looping k)
    (href : (s.orchs k).messages = some ref) : Turns prog (s.finish (prog r) r k ref) where
  looping q j σ hσ hq := by
    rw [finish_pc] at hq
    obtain ⟨hq, hqr⟩ := pc_of_update (by simp) hq
    obtain ⟨ref', href', hmem, hwhere⟩ := h.looping q j σ hσ hq
    refine ⟨ref', ?_, by rwa [finish_lists], ?_⟩
    · rw [finish_orchs]
      exact (update_messages s.orchs k (o := { s.orchs k with dispatched := [] }) rfl j).trans href'
    · rw [finish_session, finish_lists]
      by_cases hr : (prog r).session = some σ
      · rw [if_pos hr]
        -- the run that returns and this one are at work, so both have the session's list
        rcases hwhere with rfl | ⟨-, honly⟩
        · have hne : s.lists (s.sessions σ).messages ≠ [] := List.ne_nil_of_mem hmem
          have hsame := h.shared hr hpc hne
          rw [href, Option.some.injEq] at hsame
          exact .inl hsame.symm
        · exact absurd (honly r k hr hpc).symm hqr
      · rw [if_neg hr]
        refine hwhere.imp_right fun ⟨hempty, honly⟩ => ⟨hempty, fun q' j' hσ' hq' => ?_⟩
        rw [finish_pc] at hq'
        exact honly q' j' hσ' (pc_of_update (by simp) hq').1
  returned q σ hσ hq := by
    rw [finish_lists, finish_session]
    exact returned_of_finish h hpc href hσ hq
  saved q σ hσ hq := by
    rw [finish_saved]
    by_cases hr : (prog r).session = some σ
    · have := returned_of_finish h hpc href hσ hq
      rw [if_pos hr] at this ⊢
      exact this
    · rw [if_neg hr]
      rw [finish_pc] at hq
      by_cases hqr : q = r
      · exact absurd (hqr ▸ hσ) hr
      · rw [Function.update_of_ne hqr] at hq
        exact h.saved q σ hσ hq

/-- The list of a session with another session's messages appended stays empty. -/
theorem Owned.empty_of_ne (h : Owned prog s) {σ' : ℕ} (hne : σ ≠ σ') {messages : List Message}
    (hempty : s.lists (s.sessions σ).messages = []) :
    (s.extend (s.sessions σ').messages messages).lists (s.sessions σ).messages = [] := by
  have hlists : (s.sessions σ).messages ≠ (s.sessions σ').messages := by
    intro heq
    have howner := h.session σ
    rw [heq, h.session σ', Option.some.injEq] at howner
    exact hne howner.symm
  simpa [Sys.extend, hlists] using hempty

/-- The turn of an external orchestrator, appended to the session's list. -/
theorem turns_reply (ho : Owned prog s) (h : Turns prog s) {sent reply : String}
    (hpc : s.pc r = .external sent) (hok : KeepsTurns resolver prog s ⟨r, .externalReturns reply⟩) :
    Turns prog (s.reply (prog r) r sent reply) := by
  unfold Sys.reply
  cases hr : (prog r).session with
  | none =>
      constructor
      · intro q k σ hσ hq
        obtain ⟨ref, href, hmem, hwhere⟩ := h.looping q k σ hσ (pc_of_update (by simp) hq).1
        refine ⟨ref, href, hmem, hwhere.imp_right fun ⟨hempty, honly⟩ => ⟨hempty, ?_⟩⟩
        exact fun q' j hσ' hq' => honly q' j hσ' (pc_of_update (by simp) hq').1
      · intro q σ hσ hq
        have hqr : q ≠ r := by
          rintro rfl
          rw [hr] at hσ
          cases hσ
        exact h.returned q σ hσ ((Function.update_of_ne hqr _ _).symm.trans hq)
      · intro q σ hσ hq
        have hqr : q ≠ r := by
          rintro rfl
          rw [hr] at hσ
          cases hσ
        exact h.saved q σ hσ ((Function.update_of_ne hqr _ _).symm.trans hq)
  | some σ' =>
      simp only [KeepsTurns, hpc] at hok
      obtain ⟨hfree, hheading⟩ := hok σ' hr
      obtain ⟨messages, rfl⟩ := ho.sent r sent hpc
      have hreturned : ∀ q σ, (prog q).session = some σ →
          Function.update s.pc r .returned q = .returned →
          .user (prog q).userMessage ∈ (s.extend (s.sessions σ').messages
            (externalTurn (withHistory messages (prog r).userMessage) reply)).lists
              (s.sessions σ).messages := by
        intro q σ hσ hq
        by_cases hqr : q = r
        · subst hqr
          rw [hr] at hσ
          cases hσ
          simp [Sys.extend, externalTurn, userWords_withHistory messages hheading]
        · rw [Function.update_of_ne hqr] at hq
          exact mem_extend (h.returned q σ hσ hq)
      constructor
      · intro q k σ hσ hq
        obtain ⟨hq, hqr⟩ := pc_of_update (by simp) hq
        obtain ⟨ref, href, hmem, hwhere⟩ := h.looping q k σ hσ hq
        refine ⟨ref, href, mem_extend hmem, ?_⟩
        by_cases hσ' : σ = σ'
        · subst hσ'
          left
          by_contra hne
          refine hfree ⟨q, k, hqr, hσ, hq, fun hown => hne ?_⟩
          rw [href, Option.some.injEq] at hown
          exact hown
        · refine hwhere.imp_right fun ⟨hempty, honly⟩ => ⟨ho.empty_of_ne hσ' hempty, ?_⟩
          exact fun q' j hσ'' hq' => honly q' j hσ'' (pc_of_update (by simp) hq').1
      · exact hreturned
      · intro q σ hσ hq
        by_cases hσ' : σ = σ'
        · subst hσ'
          simp only [Sys.goto, Sys.save, Function.update_self]
          exact hreturned q σ hσ hq
        · have hqr : q ≠ r := by
            rintro rfl
            rw [hr, Option.some.injEq] at hσ
            exact hσ' hσ.symm
          have hold := h.saved q σ hσ ((Function.update_of_ne hqr _ _).symm.trans hq)
          simpa [Sys.goto, Sys.save, Sys.extend, hσ'] using hold

/-- The loop appends to the list of its copy. -/
theorem turns_work (ho : Owned prog s) (h : Turns prog s) {ref : ListRef} {messages : List Message}
    {f : Orch → Orch} (hf : ∀ o, (f o).messages = o.messages) (hpc : s.pc r = .looping k)
    (href : (s.orchs k).messages = some ref) : Turns prog ((s.extend ref messages).modify k f) where
  looping q j σ hσ hq := by
    have hq : s.pc q = .looping j := hq
    obtain ⟨ref', href', hmem, hwhere⟩ := h.looping q j σ hσ hq
    refine ⟨ref', (update_messages s.orchs k (hf _) j).trans href', mem_extend hmem, ?_⟩
    rcases hwhere with rfl | ⟨hempty, honly⟩
    · exact .inl rfl
    · by_cases hown : ref = (s.sessions σ).messages
      · -- the run at work is the only one of the session, and it has the session's list
        have hr : (prog r).session = some σ := by
          rw [← ho.same r k (by rw [hpc]; rfl), ← ho.orch k ref href, hown]
          exact ho.session σ
        have hqr := honly r k hr hpc
        subst hqr
        rw [hpc] at hq
        cases hq
        rw [href, Option.some.injEq] at href'
        exact .inl (href'.symm.trans hown)
      · refine .inr ⟨?_, honly⟩
        simpa [Sys.extend, Sys.modify, Ne.symm hown] using hempty
  returned q σ hσ hq := mem_extend (h.returned q σ hσ hq)
  saved q σ hσ hq := h.saved q σ hσ hq

/-- Runs of different sessions are in different copies. -/
theorem Owned.copy_ne (h : Owned prog s) {q j : ℕ} (hr : s.pc r = .resuming k)
    (hq : s.pc q = .looping j) (hne : (prog q).session ≠ (prog r).session) : j ≠ k := by
  rintro rfl
  have hsameQ := h.same q j (by rw [hq]; rfl)
  have hsameR := h.same r j (by rw [hr]; rfl)
  exact hne (hsameQ.symm.trans hsameR)

/-- While a run finds the list of its session empty, no other run of the session is
at work. -/
theorem Turns.alone (h : Turns prog s)
    (hempty : s.lists (s.sessions σ).messages = []) (hfree : ¬ s.PrivateLoop prog r σ)
    {q j : ℕ} (hq : s.pc q = .looping j) (hσ : (prog q).session = some σ) : q = r := by
  by_contra hqr
  exact hfree (h.privateLoop hqr hσ hq hempty)

/-- The first run of a session to come to its list builds one. -/
theorem turns_build (ho : Owned prog s) (hf : Fresh s) (h : Turns prog s) {context : String}
    (hpc : s.pc r = .resuming k)
    (hempty : ∀ σ, (prog r).session = some σ → s.lists (s.sessions σ).messages = [])
    (hfree : ∀ σ, (prog r).session = some σ → ¬ s.PrivateLoop prog r σ) :
    Turns prog (s.build systemPrompt (prog r) r k context) := by
  have hlists : ∀ ref, s.Uses ref →
      (s.build systemPrompt (prog r) r k context).lists ref = s.lists ref := by
    intro ref huses
    refine Function.update_of_ne ?_ _ _
    rintro rfl
    exact hf r (by rw [hpc]; rfl) huses
  have hsession : ∀ σ, (s.build systemPrompt (prog r) r k context).lists (s.sessions σ).messages =
      s.lists (s.sessions σ).messages := fun σ => hlists _ (.inl ⟨σ, rfl⟩)
  constructor
  · intro q j σ hσ hq
    by_cases hqr : q = r
    · subst hqr
      simp only [Sys.build, Sys.goto, Function.update_self, Pc.looping.injEq] at hq
      subst hq
      refine ⟨.built q, ?_, ?_, .inr ⟨(hsession σ).trans (hempty σ hσ), ?_⟩⟩
      · simp [Sys.build, Sys.goto, Sys.modify]
      · simp [Sys.build, Sys.goto, Sys.modify]
      · intro q' j' hσ' hq'
        by_contra hne
        have hold : s.pc q' = .looping j' := (Function.update_of_ne hne _ _).symm.trans hq'
        exact hne (h.alone (hempty σ hσ) (hfree σ hσ) hold hσ')
    · have hold : s.pc q = .looping j := (Function.update_of_ne hqr _ _).symm.trans hq
      have hother : (prog q).session ≠ (prog r).session := by
        intro heq
        rw [hσ] at heq
        exact hqr (h.alone (hempty σ heq.symm) (hfree σ heq.symm) hold hσ)
      have hjk := ho.copy_ne hpc hold hother
      obtain ⟨ref, href, hmem, hwhere⟩ := h.looping q j σ hσ hold
      refine ⟨ref, ?_, ?_, ?_⟩
      · simpa [Sys.build, Sys.goto, Sys.modify, hjk] using href
      · rwa [hlists ref (.inr ⟨j, href⟩)]
      · rcases hwhere with hown | ⟨hnone, honly⟩
        · exact .inl hown
        refine .inr ⟨(hsession σ).trans hnone, ?_⟩
        intro q' j' hσ' hq'
        have hq'r : q' ≠ r := by
          rintro rfl
          exact hother (hσ.trans hσ'.symm)
        exact honly q' j' hσ' ((Function.update_of_ne hq'r _ _).symm.trans hq')
  · intro q σ hσ hq
    have hold := h.returned q σ hσ (pc_of_update (by simp) hq).1
    rwa [← hsession σ] at hold
  · intro q σ hσ hq
    exact h.saved q σ hσ (pc_of_update (by simp) hq).1

/-- A run of a session with history takes over the session's list. -/
theorem turns_alias (ho : Owned prog s) (h : Turns prog s) {context : String} {σ' : ℕ}
    (hpc : s.pc r = .resuming k) (hr : (prog r).session = some σ')
    (hne : s.lists (s.sessions σ').messages ≠ []) :
    Turns prog (s.alias (prog r) r k (s.sessions σ').messages context) := by
  constructor
  · intro q j σ hσ hq
    by_cases hqr : q = r
    · subst hqr
      rw [hr] at hσ
      cases hσ
      simp only [Sys.alias, Sys.goto, Function.update_self, Pc.looping.injEq] at hq
      subst hq
      refine ⟨(s.sessions σ').messages, ?_, ?_, .inl rfl⟩
      · simp [Sys.alias, Sys.goto, Sys.modify]
      · simp [Sys.alias, Sys.goto, Sys.modify, Sys.extend]
    · have hold : s.pc q = .looping j := (Function.update_of_ne hqr _ _).symm.trans hq
      obtain ⟨ref, href, hmem, hwhere⟩ := h.looping q j σ hσ hold
      by_cases hσ' : σ = σ'
      · subst hσ'
        have hshared := h.shared hσ hold hne
        rw [href, Option.some.injEq] at hshared
        subst hshared
        refine ⟨(s.sessions σ).messages, ?_, mem_extend hmem, .inl rfl⟩
        by_cases hjk : j = k
        · simp [Sys.alias, Sys.goto, Sys.modify, hjk]
        · simpa [Sys.alias, Sys.goto, Sys.modify, Sys.extend, hjk] using href
      · have hjk : j ≠ k := by
          refine ho.copy_ne hpc hold ?_
          rw [hσ, hr]
          exact fun heq => hσ' (Option.some.inj heq)
        refine ⟨ref, ?_, mem_extend hmem, ?_⟩
        · simpa [Sys.alias, Sys.goto, Sys.modify, Sys.extend, hjk] using href
        · rcases hwhere with hown | ⟨hempty, honly⟩
          · exact .inl hown
          refine .inr ⟨ho.empty_of_ne hσ' hempty, ?_⟩
          intro q' j' hσ'' hq'
          have hq'r : q' ≠ r := by
            rintro rfl
            rw [hr, Option.some.injEq] at hσ''
            exact hσ' hσ''.symm
          exact honly q' j' hσ'' ((Function.update_of_ne hq'r _ _).symm.trans hq')
  · intro q σ hσ hq
    exact mem_extend (h.returned q σ hσ (pc_of_update (by simp) hq).1)
  · intro q σ hσ hq
    exact h.saved q σ hσ (pc_of_update (by simp) hq).1

/-- What `session_manager.save` leaves in the store. -/
theorem save_saved (s : Sys) (session : Option ℕ) (σ : ℕ) :
    (s.save session).saved σ = s.saved σ ∨
      (s.save session).saved σ = s.lists (s.sessions σ).messages := by
  cases session with
  | none => exact .inl rfl
  | some σ' =>
      by_cases hσ : σ = σ'
      · exact .inr (by simp [Sys.save, hσ])
      · exact .inl (by simp [Sys.save, hσ])

/-- **One step.**  A step that meets the condition loses no turn. -/
theorem turns_step (ho : Owned prog s) (hf : Fresh s) (h : Turns prog s)
    (hok : KeepsTurns resolver prog s a) (hstep : step resolver systemPrompt prog s a = some t) :
    Turns prog t := by
  obtain ⟨r, e⟩ := a
  cases step_cases hstep with
  | enter =>
      refine h.quiet rfl (fun _ => rfl) (update_messages s.orchs _ rfl) (fun _ => .inl rfl) ?_ ?_
      · exact fun q k hq => (pc_of_update (by simp) hq).1
      · exact fun q hq => (pc_of_update (by simp) hq).1
  | fallback =>
      refine h.quiet rfl (fun _ => rfl) (update_messages s.orchs _ rfl) (fun _ => .inl rfl) ?_ ?_
      · exact fun q k hq => (pc_of_update (by simp) hq).1
      · exact fun q hq => (pc_of_update (by simp) hq).1
  | wait hto =>
      refine h.quiet rfl (fun _ => rfl) (fun _ => rfl) (fun _ => .inl rfl) ?_ ?_
      · intro q k hq
        refine (pc_of_update ?_ hq).1
        rcases hto with rfl | rfl | rfl <;> simp
      · intro q hq
        refine (pc_of_update ?_ hq).1
        rcases hto with rfl | rfl | rfl <;> simp
  | @resume k context hpc =>
      simp only [KeepsTurns, hpc] at hok
      rcases resume_cases s systemPrompt (prog r) r k context with
        ⟨_, heq, hempty⟩ | ⟨σ, hσ, hne, heq⟩ <;> rw [heq]
      · exact turns_build ho hf h hpc hempty hok
      · exact turns_alias ho h hpc hσ hne
  | work hpc href => exact turns_work ho h (fun _ => rfl) hpc href
  | finish hpc href => exact turns_finish h hpc href
  | reply hpc => exact turns_reply ho h hpc hok
  | fail =>
      refine h.quiet (by simp) (by simp) (by simp) (save_saved s _) ?_ ?_
      · intro q k hq
        rw [fail_pc] at hq
        exact (pc_of_update (by simp) hq).1
      · intro q hq
        rw [fail_pc] at hq
        exact (pc_of_update (by simp) hq).1

/-! ## Whole runs -/

/-- **No turn is lost.**  If a run that falls back finds a copy of its own session,
and no run comes to its list, or appends an external turn, while another run of the
session is at work on a list of its own, then after every step a session whose runs
are over has saved the message of each of them. -/
theorem noTurnLost_of_keepsTurns (resolver : Option OrchestratorConfig) (systemPrompt : String)
    (prog : ℕ → Request) (history : ℕ → List Message) (context : ℕ → String) (acts : List Action)
    (hok : Run.Along (step resolver systemPrompt prog) (KeepsTurns resolver prog)
      (init history context) acts) :
    Run.Throughout (step resolver systemPrompt prog) (NoTurnLost prog) (init history context)
      acts := by
  have hstep : ∀ s a t, Owned prog s ∧ Fresh s ∧ Turns prog s → KeepsTurns resolver prog s a →
      step resolver systemPrompt prog s a = some t → Owned prog t ∧ Fresh t ∧ Turns prog t := by
    rintro s a t ⟨ho, hf, h⟩ hkeeps hnext
    exact ⟨owned_step ho hkeeps hnext, fresh_step hf (step_cases hnext),
      turns_step ho hf h hkeeps hnext⟩
  have hinv := Run.throughout_of_invariant hstep
    ⟨owned_init prog history context, fun q _ => uses_init q, turns_init prog history context⟩ hok
  exact hinv.mono fun _ h => h.2.2.noTurnLost

/-! ## Two requests at once -/

/-- Two requests of one session. -/
def sameSession (r : ℕ) : Request :=
  ⟨toString r, some 0, if r = 0 then "build a shop" else "add a cart"⟩

/-- In a session with history two runs at once share the session's list. -/
theorem noTurnLost_with_history :
    Run.Throughout (step none "sys" sameSession) (NoTurnLost sameSession)
      (init (fun _ => [.user "hello", .assistant (some "hi") []]) fun _ => "")
      [⟨0, .start⟩, ⟨0, .resumed ""⟩, ⟨1, .start⟩, ⟨1, .resumed ""⟩, ⟨0, .finish⟩,
        ⟨1, .finish⟩] := by
  refine noTurnLost_of_keepsTurns _ _ _ _ _ _ ?_
  refine .cons trivial rfl (.cons ?_ rfl (.cons trivial rfl (.cons ?_ rfl
    (.cons trivial rfl (.cons trivial rfl trivial)))))
  · rintro σ - ⟨q, k, hq, -, hpc, -⟩
    have hqueued : Function.update (fun _ => Pc.queued) 0 (.resuming 0) q = .looping k := hpc
    simp [Function.update_of_ne hq] at hqueued
  · rintro σ hσ ⟨q, k, hq, -, hpc, hne⟩
    cases hσ
    match q with
    | 0 =>
        cases hpc
        exact hne rfl
    | 1 => exact hq rfl
    | q + 2 => cases hpc

/-- **Two requests on a new session.**  Both find the list empty, and the one that
ends last overwrites what the other has saved. -/
theorem new_session_loses_turn :
    ¬ Run.Throughout (step none "sys" sameSession) (NoTurnLost sameSession)
      (init (fun _ => []) fun _ => "")
      [⟨0, .start⟩, ⟨0, .resumed ""⟩, ⟨1, .start⟩, ⟨1, .resumed ""⟩, ⟨0, .finish⟩,
        ⟨1, .finish⟩] := by
  intro h
  have hmem := h.last rfl 0 ?_ 0 rfl rfl
  · exact absurd hmem (by decide)
  · rintro r -
    match r with
    | 0 => exact .inr rfl
    | 1 => exact .inr rfl
    | r + 2 => exact .inl rfl

end Orchestrator
end AgentSwarm
