import Mathlib.Logic.Function.Basic
import AgentSwarm.Lib.Run
import AgentSwarm.Orchestrator.External

/-!
# The background runs of `POST /api/chat`

Every chat request starts a background run.  It stores a copy of the orchestrator
in the one resolver, and the resolver's `execute` reads it back when it goes into
the builtin orchestrator: at once, or after an external orchestrator has been
tried and has failed.  The copy keeps the fields of a request, among them the
list of messages, which may be the list object of the session itself.

* `OrchestratorConfig`, `Request` — the selection policy, and a request.
* `ListRef` — a list object: the one a session was loaded with, or one that a run
  has built.
* `Orch`, `SessionState` — the fields that are read and written.
* `Pc`, `Event` — the places of a run, and what can happen there.
* `step` — one step of one run.
* `Moved`, `step_cases` — everything a step can do.
* `Fresh` — a list that has not been built yet is in use nowhere.

A copy is known by the run that makes it.  What the tools and the LLM do in the
loop is left open: a step there appends any messages.
-/

namespace AgentSwarm
namespace Orchestrator

/-- `OrchestratorConfig`, less the timeout. -/
structure OrchestratorConfig where
  provider : String := "builtin"
  externalEndpoint : String := ""
  fallback : Bool := true

/-- A chat request, with the session it is served with. -/
structure Request where
  taskId : String
  session : Option ℕ
  userMessage : String

/-- A list object. -/
inductive ListRef where
  | loaded (session : ℕ)
  | built (run : ℕ)
  deriving DecidableEq

/-- The fields of an `Orchestrator` that belong to a request. -/
structure Orch where
  messages : Option ListRef := none
  dispatched : List String := []
  currentTaskId : String := ""
  sharedContext : String := ""
  deriving DecidableEq

/-- A `SessionState`, less what stays as it is. -/
structure SessionState where
  messages : ListRef
  sharedContext : String

/-- Where a run is suspended. -/
inductive Pc where
  /-- At the tenant's semaphore. -/
  | queued
  /-- In the external orchestrator, which was sent the text. -/
  | external (sent : String)
  /-- In `_emit_fallback`. -/
  | fallingBack
  /-- In `execute` of a copy, reading the state of the session service. -/
  | resuming (orch : ℕ)
  /-- In the loop of a copy. -/
  | looping (orch : ℕ)
  | returned
  | failed
  | cancelled
  deriving DecidableEq

/-- The copy whose `execute` the run is in. -/
def Pc.orch : Pc → Option ℕ
  | .resuming k => some k
  | .looping k => some k
  | _ => none

/-- The run has not come to its list of messages. -/
def Pc.early : Pc → Bool
  | .queued => true
  | .external _ => true
  | .fallingBack => true
  | .resuming _ => true
  | _ => false

/-- The server.  `saved` is what `session_manager.save` has written. -/
structure Sys where
  lists : ListRef → List Message
  sessions : ℕ → SessionState
  saved : ℕ → List Message
  orchs : ℕ → Orch
  builtin : Option ℕ
  pc : ℕ → Pc

/-- The server before any request, with the histories of the sessions. -/
def init (history : ℕ → List Message) (context : ℕ → String) : Sys where
  lists
    | .loaded σ => history σ
    | .built _ => []
  sessions σ := ⟨.loaded σ, context σ⟩
  saved := history
  orchs _ := {}
  builtin := none
  pc _ := .queued

/-- What happens to a run at the place where it is. -/
inductive Event where
  /-- It has the semaphore. -/
  | start
  | externalReturns (reply : String)
  | externalRaises
  /-- `_emit_fallback` has returned. -/
  | emitted
  /-- The state of the session service is read; `context` is the shared context
  with what was found there. -/
  | resumed (context : String)
  /-- The loop appends messages, and changes the other fields. -/
  | work (messages : List Message) (dispatched : List String) (context : String)
  /-- The loop is over, and `execute` returns. -/
  | finish
  | raise
  | cancel

structure Action where
  run : ℕ
  event : Event

/-- Run `r` moves to the place `p`. -/
def Sys.goto (s : Sys) (r : ℕ) (p : Pc) : Sys := { s with pc := Function.update s.pc r p }

/-- `list.append` of some messages. -/
def Sys.extend (s : Sys) (ref : ListRef) (messages : List Message) : Sys :=
  { s with lists := Function.update s.lists ref (s.lists ref ++ messages) }

/-- The fields of a copy are set. -/
def Sys.modify (s : Sys) (k : ℕ) (f : Orch → Orch) : Sys :=
  { s with orchs := Function.update s.orchs k (f (s.orchs k)) }

/-- `session_manager.save(sess)`, if there is a session. -/
def Sys.save (s : Sys) : Option ℕ → Sys
  | none => s
  | some σ => { s with saved := Function.update s.saved σ (s.lists (s.sessions σ).messages) }

/-- `session.shared_context`, or an empty one. -/
def Sys.contextOf (s : Sys) : Option ℕ → String
  | none => ""
  | some σ => (s.sessions σ).sharedContext

/-- The messages of the session. -/
def Sys.historyOf (s : Sys) : Option ℕ → List Message
  | none => []
  | some σ => s.lists (s.sessions σ).messages

/-- `execute` of copy `k` by run `r`, up to its first `await`. -/
def Sys.enter (s : Sys) (req : Request) (r k : ℕ) : Sys :=
  (s.modify k fun o => { o with
    currentTaskId := req.taskId, dispatched := [],
    sharedContext := s.contextOf req.session }).goto r (.resuming k)

/-- A new list of messages for copy `k`. -/
def Sys.build (s : Sys) (systemPrompt : String) (req : Request) (r k : ℕ) (context : String) :
    Sys :=
  ({ s with
      lists := Function.update s.lists (.built r)
        [.system systemPrompt, .user req.userMessage] }.modify k fun o =>
    { o with messages := some (.built r), sharedContext := context }).goto r (.looping k)

/-- The session's own list for copy `k`, with the user's message. -/
def Sys.alias (s : Sys) (req : Request) (r k : ℕ) (ref : ListRef) (context : String) : Sys :=
  ((s.extend ref [.user req.userMessage]).modify k fun o =>
    { o with messages := some ref, sharedContext := context }).goto r (.looping k)

/-- `execute` of copy `k`, up to the loop. -/
def Sys.resume (s : Sys) (systemPrompt : String) (req : Request) (r k : ℕ) (context : String) :
    Sys :=
  match req.session with
  | none => s.build systemPrompt req r k ""
  | some σ =>
      if s.lists (s.sessions σ).messages = [] then s.build systemPrompt req r k context
      else s.alias req r k (s.sessions σ).messages context

/-- The end of `execute` of copy `k`: the session gets the copy's list. -/
def Sys.finish (s : Sys) (req : Request) (r k : ℕ) (ref : ListRef) : Sys :=
  let s := match req.session with
    | none => s
    | some σ => { s with
        sessions := Function.update s.sessions σ ⟨ref, (s.orchs k).sharedContext⟩ }.save (some σ)
  (s.modify k fun o => { o with dispatched := [] }).goto r .returned

/-- The external orchestrator has returned: the turn is appended to the session's
messages. -/
def Sys.reply (s : Sys) (req : Request) (r : ℕ) (sent reply : String) : Sys :=
  (match req.session with
    | none => s
    | some σ => (s.extend (s.sessions σ).messages (externalTurn sent reply)).save (some σ)).goto r
      .returned

/-- The `except` branch of `run_orchestration`. -/
def Sys.fail (s : Sys) (req : Request) (r : ℕ) : Sys := (s.save req.session).goto r .failed

/-- The copy of run `r` is stored in the resolver. -/
def Sys.storeCopy (s : Sys) (r : ℕ) : Sys := { s with builtin := some r }

/-- One step of one run.  `resolver` is the resolver's configuration, if there is
a resolver. -/
def step (resolver : Option OrchestratorConfig) (systemPrompt : String) (prog : ℕ → Request)
    (s : Sys) (a : Action) : Option Sys :=
  let r := a.run
  let req := prog r
  match s.pc r, a.event with
  | .queued, .start =>
      match resolver with
      | none => some (s.enter req r r)
      | some cfg =>
          let s := s.storeCopy r
          if cfg.provider = "external" then
            if cfg.externalEndpoint = "" then some (s.goto r .fallingBack)
            else some (s.goto r (.external (withHistory (s.historyOf req.session) req.userMessage)))
          else some (s.enter req r r)
  | .external sent, .externalReturns reply => some (s.reply req r sent reply)
  | .external _, .externalRaises => some (s.goto r .fallingBack)
  | .fallingBack, .emitted =>
      match resolver, s.builtin with
      | some cfg, some k => if cfg.fallback then some (s.enter req r k) else some (s.fail req r)
      | _, _ => none
  | .resuming k, .resumed context => some (s.resume systemPrompt req r k context)
  | .resuming _, .raise => some (s.fail req r)
  | .looping k, .work messages dispatched context =>
      match (s.orchs k).messages with
      | some ref => some ((s.extend ref messages).modify k fun o =>
          { o with dispatched := dispatched, sharedContext := context })
      | none => none
  | .looping k, .finish =>
      match (s.orchs k).messages with
      | some ref => some (s.finish req r k ref)
      | none => none
  | .looping _, .raise => some (s.fail req r)
  | .returned, _ => none
  | .failed, _ => none
  | .cancelled, _ => none
  | _, .cancel => some (s.goto r .cancelled)
  | _, _ => none

/-! ## Everything a step can do -/

/-- The transitions of run `r`. -/
inductive Moved (resolver : Option OrchestratorConfig) (systemPrompt : String) (req : Request)
    (s : Sys) (r : ℕ) : Event → Sys → Prop
  /-- It goes into `execute` of its own copy. -/
  | enter {b} (hpc : s.pc r = .queued) (hb : b = s.builtin ∨ b = some r) :
      Moved resolver systemPrompt req s r .start ({ s with builtin := b }.enter req r r)
  /-- It goes into `execute` of the copy that is in the resolver. -/
  | fallback {cfg k} (hpc : s.pc r = .fallingBack) (hresolver : resolver = some cfg)
      (hfallback : cfg.fallback) (hbuiltin : s.builtin = some k) :
      Moved resolver systemPrompt req s r .emitted (s.enter req r k)
  /-- It waits for an external orchestrator, or for the event of the fallback, or
  is cancelled. -/
  | wait {e p b} (hto : p = .fallingBack ∨ p = .cancelled ∨
        p = .external (withHistory (s.historyOf req.session) req.userMessage))
      (hfrom : p ≠ .cancelled → (s.pc r).early ∧ (s.pc r).orch = none)
      (hb : b = s.builtin ∨ b = some r) :
      Moved resolver systemPrompt req s r e ({ s with builtin := b }.goto r p)
  | resume {k context} (hpc : s.pc r = .resuming k) :
      Moved resolver systemPrompt req s r (.resumed context)
        (s.resume systemPrompt req r k context)
  | work {k ref messages dispatched context} (hpc : s.pc r = .looping k)
      (href : (s.orchs k).messages = some ref) :
      Moved resolver systemPrompt req s r (.work messages dispatched context)
        ((s.extend ref messages).modify k fun o =>
          { o with dispatched := dispatched, sharedContext := context })
  | finish {k ref} (hpc : s.pc r = .looping k) (href : (s.orchs k).messages = some ref) :
      Moved resolver systemPrompt req s r .finish (s.finish req r k ref)
  | reply {sent reply} (hpc : s.pc r = .external sent) :
      Moved resolver systemPrompt req s r (.externalReturns reply) (s.reply req r sent reply)
  | fail {e} : Moved resolver systemPrompt req s r e (s.fail req r)

variable {resolver : Option OrchestratorConfig} {systemPrompt : String} {prog : ℕ → Request}
  {s t : Sys} {r : ℕ} {e : Event}

/-- **Everything a step can do.** -/
theorem step_cases (h : step resolver systemPrompt prog s ⟨r, e⟩ = some t) :
    Moved resolver systemPrompt (prog r) s r e t := by
  unfold step at h
  dsimp only at h
  split at h
  all_goals try have hpc := ‹s.pc r = _›
  case h_1 =>
    split at h
    · cases h
      exact .enter hpc (.inl rfl)
    · split at h
      · split at h <;> cases h
        · exact .wait (.inl rfl) (fun _ => by simp [hpc, Pc.early, Pc.orch]) (.inr rfl)
        · exact .wait (.inr (.inr rfl)) (fun _ => by simp [hpc, Pc.early, Pc.orch]) (.inr rfl)
      · cases h
        exact .enter hpc (.inr rfl)
  case h_2 =>
    cases h
    exact .reply hpc
  case h_3 =>
    cases h
    exact .wait (.inl rfl) (fun _ => by simp [hpc, Pc.early, Pc.orch]) (.inl rfl)
  case h_4 =>
    split at h
    · split at h <;> cases h
      · exact .fallback hpc rfl ‹_› ‹_›
      · exact .fail
    · cases h
  case h_5 =>
    cases h
    exact .resume hpc
  case h_7 =>
    split at h
    · cases h
      exact .work hpc ‹_›
    · cases h
  case h_8 =>
    split at h
    · cases h
      exact .finish hpc ‹_›
    · cases h
  case h_6 | h_9 =>
    cases h
    exact .fail
  case h_13 =>
    cases h
    exact .wait (.inr (.inl rfl)) (fun h => absurd rfl h) (.inl rfl)
  all_goals cases h

/-! ## Lists that are not built yet -/

/-- The list is the one of a session or of a copy. -/
def Sys.Uses (s : Sys) (ref : ListRef) : Prop :=
  (∃ σ, (s.sessions σ).messages = ref) ∨ ∃ k, (s.orchs k).messages = some ref

/-- A run that has not come to its list of messages has not built one. -/
def Fresh (s : Sys) : Prop := ∀ q, (s.pc q).early → ¬ s.Uses (.built q)

@[simp] theorem save_sessions (σ : Option ℕ) : (s.save σ).sessions = s.sessions := by
  cases σ <;> rfl

@[simp] theorem save_orchs (σ : Option ℕ) : (s.save σ).orchs = s.orchs := by cases σ <;> rfl

@[simp] theorem save_lists (σ : Option ℕ) : (s.save σ).lists = s.lists := by cases σ <;> rfl

@[simp] theorem save_pc (σ : Option ℕ) : (s.save σ).pc = s.pc := by cases σ <;> rfl

section Ends

variable (s : Sys) (req : Request) (r k : ℕ) (ref : ListRef) (sent reply : String)

@[simp] theorem finish_lists : (s.finish req r k ref).lists = s.lists := by
  unfold Sys.finish
  split <;> simp [Sys.goto, Sys.modify]

theorem finish_orchs : (s.finish req r k ref).orchs =
    Function.update s.orchs k { s.orchs k with dispatched := [] } := by
  unfold Sys.finish
  split <;> simp [Sys.goto, Sys.modify]

theorem finish_pc : (s.finish req r k ref).pc = Function.update s.pc r .returned := by
  unfold Sys.finish
  split <;> simp [Sys.goto, Sys.modify]

@[simp] theorem reply_orchs : (s.reply req r sent reply).orchs = s.orchs := by
  unfold Sys.reply
  split <;> rfl

@[simp] theorem reply_sessions : (s.reply req r sent reply).sessions = s.sessions := by
  unfold Sys.reply
  split <;> rfl

theorem reply_pc : (s.reply req r sent reply).pc = Function.update s.pc r .returned := by
  unfold Sys.reply
  split <;> rfl

@[simp] theorem fail_lists : (s.fail req r).lists = s.lists := by simp [Sys.fail, Sys.goto]

@[simp] theorem fail_orchs : (s.fail req r).orchs = s.orchs := by simp [Sys.fail, Sys.goto]

@[simp] theorem fail_sessions : (s.fail req r).sessions = s.sessions := by
  simp [Sys.fail, Sys.goto]

theorem fail_pc : (s.fail req r).pc = Function.update s.pc r .failed := by
  simp [Sys.fail, Sys.goto]

end Ends

/-- A copy is changed, and keeps its list. -/
theorem update_messages (orchs : ℕ → Orch) (k : ℕ) {o : Orch}
    (ho : o.messages = (orchs k).messages) (j : ℕ) :
    (Function.update orchs k o j).messages = (orchs j).messages := by
  by_cases hj : j = k
  · subst hj
    simpa using ho
  · rw [Function.update_of_ne hj]

/-- A run that comes to its list builds one, or takes that of its session, which
is not empty. -/
theorem resume_cases (s : Sys) (systemPrompt : String) (req : Request) (r k : ℕ)
    (context : String) :
    (∃ context', s.resume systemPrompt req r k context = s.build systemPrompt req r k context' ∧
        ∀ σ, req.session = some σ → s.lists (s.sessions σ).messages = []) ∨
      ∃ σ, req.session = some σ ∧ s.lists (s.sessions σ).messages ≠ [] ∧
        s.resume systemPrompt req r k context =
          s.alias req r k (s.sessions σ).messages context := by
  unfold Sys.resume
  cases hσ : req.session with
  | none => exact .inl ⟨_, rfl, by simp⟩
  | some σ =>
      by_cases hempty : s.lists (s.sessions σ).messages = []
      · refine .inl ⟨context, if_pos hempty, ?_⟩
        rintro σ' hσ'
        cases hσ'
        exact hempty
      · exact .inr ⟨σ, rfl, hempty, if_neg hempty⟩

theorem uses_init {history : ℕ → List Message} {context : ℕ → String} (q : ℕ) :
    ¬ (init history context).Uses (.built q) := by
  rintro (⟨σ, h⟩ | ⟨k, h⟩) <;> cases h

/-- A step moves only the run that takes it. -/
theorem Moved.pc_of_ne {req : Request} (hm : Moved resolver systemPrompt req s r e t) {q : ℕ}
    (hq : q ≠ r) : t.pc q = s.pc q := by
  cases hm with
  | work => rfl
  | resume =>
      rcases resume_cases s systemPrompt req r _ _ with ⟨_, heq, -⟩ | ⟨σ, -, -, heq⟩ <;>
        rw [heq] <;> exact Function.update_of_ne hq _ _
  | finish => rw [finish_pc, Function.update_of_ne hq]
  | reply => rw [reply_pc, Function.update_of_ne hq]
  | fail => rw [fail_pc, Function.update_of_ne hq]
  | _ => exact Function.update_of_ne hq _ _

/-- A run that has not come to its list had not come to it before. -/
theorem Moved.early {req : Request} (hm : Moved resolver systemPrompt req s r e t) {q : ℕ}
    (hq : (t.pc q).early) : (s.pc q).early := by
  by_cases hqr : q = r
  · subst hqr
    cases hm with
    | enter hpc => simp [hpc, Pc.early]
    | fallback hpc => simp [hpc, Pc.early]
    | wait hto hfrom =>
        refine (hfrom ?_).1
        rintro rfl
        simp [Sys.goto, Pc.early] at hq
    | resume hpc => simp [hpc, Pc.early]
    | work => exact hq
    | finish hpc => simp [finish_pc, Pc.early] at hq
    | reply hpc => simp [hpc, Pc.early]
    | fail => simp [fail_pc, Pc.early] at hq
  · rwa [hm.pc_of_ne hqr] at hq

/-- Nothing is in use that was not, if the lists of sessions and copies stay. -/
theorem Sys.Uses.of_same {ref : ListRef} (h : t.Uses ref)
    (hsessions : ∀ σ, (t.sessions σ).messages = (s.sessions σ).messages)
    (horchs : ∀ k, (t.orchs k).messages = (s.orchs k).messages) : s.Uses ref := by
  rcases h with ⟨σ, hσ⟩ | ⟨k, hk⟩
  · exact .inl ⟨σ, by rw [← hsessions, hσ]⟩
  · exact .inr ⟨k, by rw [← horchs, hk]⟩

/-- A copy that has got the list `new` uses it, and nothing else comes into use. -/
theorem Sys.Uses.of_modify {ref new : ListRef} {k : ℕ} {lists : ListRef → List Message}
    {context : String} {p : Pc} (h : (({ s with lists := lists }.modify k fun o =>
      { o with messages := some new, sharedContext := context }).goto r p).Uses ref) :
    s.Uses ref ∨ ref = new := by
  rcases h with ⟨σ, hσ⟩ | ⟨j, hj⟩
  · exact .inl (.inl ⟨σ, hσ⟩)
  · by_cases hjk : j = k
    · subst hjk
      simp only [Sys.goto, Sys.modify, Function.update_self, Option.some.injEq] at hj
      exact .inr hj.symm
    · refine .inl (.inr ⟨j, ?_⟩)
      simpa [Sys.goto, Sys.modify, hjk] using hj

/-- **What a step puts into use.**  A list in use after a step was in use before,
or the run has built it. -/
theorem Moved.uses {req : Request} (hm : Moved resolver systemPrompt req s r e t) {ref : ListRef}
    (h : t.Uses ref) : s.Uses ref ∨ (ref = .built r ∧ (t.pc r).early = false) := by
  cases hm with
  | enter => exact .inl (h.of_same (fun _ => rfl) (update_messages s.orchs _ rfl))
  | fallback => exact .inl (h.of_same (fun _ => rfl) (update_messages s.orchs _ rfl))
  | wait => exact .inl (h.of_same (fun _ => rfl) fun _ => rfl)
  | resume =>
      rcases resume_cases s systemPrompt req r _ _ with ⟨_, heq, -⟩ | ⟨σ, -, -, heq⟩ <;>
        rw [heq] at h ⊢
      · rcases Sys.Uses.of_modify h with hold | hnew
        · exact .inl hold
        · exact .inr ⟨hnew, by simp [Sys.build, Sys.goto, Pc.early]⟩
      · rcases Sys.Uses.of_modify h with hold | rfl
        · exact .inl hold
        · exact .inl (.inl ⟨σ, rfl⟩)
  | work => exact .inl (h.of_same (fun _ => rfl) (update_messages s.orchs _ rfl))
  | @finish k ref' hpc href =>
      unfold Sys.finish at h
      cases hσ : req.session with
      | none =>
          simp only [hσ] at h
          exact .inl (h.of_same (fun _ => rfl) (update_messages s.orchs _ rfl))
      | some σ =>
          simp only [hσ] at h
          rcases h with ⟨σ', hσ'⟩ | ⟨j, hj⟩
          · by_cases hne : σ' = σ
            · subst hne
              simp only [Sys.goto, Sys.modify, save_sessions, Function.update_self] at hσ'
              exact .inl (.inr ⟨k, hσ' ▸ href⟩)
            · refine .inl (.inl ⟨σ', ?_⟩)
              simpa [Sys.goto, Sys.modify, Sys.save, hne] using hσ'
          · have hsame := update_messages s.orchs k (o := { s.orchs k with dispatched := [] }) rfl j
            exact .inl (.inr ⟨j, hsame.symm.trans hj⟩)
  | reply => exact .inl (h.of_same (by simp) (by simp))
  | fail => exact .inl (h.of_same (by simp) (by simp))

/-- **One step.** -/
theorem fresh_step {req : Request} (h : Fresh s) (hm : Moved resolver systemPrompt req s r e t) :
    Fresh t := by
  intro q hq huses
  rcases hm.uses huses with hold | ⟨hnew, hlate⟩
  · exact h q (hm.early hq) hold
  · cases hnew
    rw [hlate] at hq
    cases hq

end Orchestrator
end AgentSwarm
