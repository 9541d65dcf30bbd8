import AgentSwarm.Dispatcher.Backends
import AgentSwarm.Resilience.Callers
import Mathlib.Tactic.NormNum

/-!
# A thin invoke and a dispatch of one external agent

The gateway's thin invoke calls an adapter through `CircuitBreaker.call`, and
`Dispatcher._try_one` calls it through `ExternalAgentBackend` and a breaker of its
own.  Both are driven here by the same outcomes at the same times.

* `Outcome`, `Attempt` — what the adapter does, and the times of the readings.
* `call`, `invokeAgent` — `CircuitBreaker.call`, and the response of a thin invoke.
* `attempted` — the breaker of the dispatcher; `tryOne_breaker` says that it is.
* `Pair` — the two breakers, with the outcomes since they became `CLOSED`.
* `Told` — the outcomes that fail are **told apart** from success by both breakers.
* `sameState_iff_told` — the breakers go through the same states exactly then.
-/

namespace AgentSwarm
namespace Gateway

open Dispatcher (AgentResult AdapterCall)

/-! ## The two paths -/

/-- What an adapter does that is called. -/
inductive Outcome where
  | returns (result : AgentResult)
  | raises (text : String)

/-- The agent has done what it was asked. -/
def Outcome.succeeded : Outcome → Bool
  | .returns result => result.success
  | .raises _ => false

def Outcome.raised : Outcome → Bool
  | .returns _ => false
  | .raises _ => true

/-- The same, as the dispatcher's backend meets it. -/
def Outcome.toCall : Outcome → AdapterCall
  | .returns result => .returns result
  | .raises text => .raises text

/-- An attempt at an agent: the outcome it has if the adapter is called, and the times
of the state check, of the next reading, of the end, and of the two readings that
recording makes. -/
structure Attempt where
  outcome : Outcome
  now : ℚ
  start : ℚ
  ended : ℚ
  recorded : ℚ
  opened : ℚ

/-- `CircuitBreaker.call` of an adapter's `invoke`.  `retryAfter` is Python's text of a
float with one decimal. -/
def call (retryAfter : ℚ → String) (slowCallThreshold : ℚ) (b : CircuitBreaker) (a : Attempt) :
    Except Dispatcher.Exn AgentResult × CircuitBreaker :=
  let (current, b) := b.checkState a.now
  if current = .opened then
    (.error (.circuitOpenError
      ("Circuit is open; retry after " ++ retryAfter (b.timeout - (a.start - b.openedAt)) ++ "s")), b)
  else
    match a.outcome with
    | .returns result =>
        (.ok result, b.record
          (CircuitBreaker.callOutcome slowCallThreshold (a.ended - a.start) .returns) a.recorded a.opened)
    | .raises text =>
        (.error (.other text), b.record
          (CircuitBreaker.callOutcome slowCallThreshold (a.ended - a.start) .raises) a.recorded a.opened)

/-- The response of a thin invoke: `AgentResult` of the gateway, or an `HTTPException`. -/
inductive Response where
  | ok (agentId : String) (success : Bool) (result : String) (error : Option String)
  | httpException (statusCode : ℕ) (detail : String)
  deriving DecidableEq

/-- `invoke_agent` without a session, for an agent that has an adapter. -/
def invokeAgent (retryAfter : ℚ → String) (slowCallThreshold : ℚ) (agentId : String)
    (b : CircuitBreaker) (a : Attempt) : Response × CircuitBreaker :=
  match call retryAfter slowCallThreshold b a with
  | (.ok result, b) => (.ok agentId result.success result.output result.error, b)
  | (.error (.circuitOpenError e), b) =>
      (.httpException 503 ("Agent " ++ agentId ++ " circuit open: " ++ e), b)
  | (.error e, b) => (.httpException 500 e.text, b)

/-- The breaker of the dispatcher after an attempt at the agent. -/
def attempted (target : Dispatcher.DispatchTarget) (b : CircuitBreaker) (a : Attempt) :
    CircuitBreaker :=
  let (state, b) := b.checkState a.now
  if state = .opened then b
  else b.record (CircuitBreaker.tried (a.outcome.toCall.invoke target)) a.recorded a.opened

/-! ## The paths, as their breakers see them -/

/-- A breaker that is told `ok` of every outcome. -/
def driven (ok : Outcome → Bool) (b : CircuitBreaker) (a : Attempt) : CircuitBreaker :=
  let (state, b) := b.checkState a.now
  if state = .opened then b else b.record (some (ok a.outcome)) a.recorded a.opened

variable {b : CircuitBreaker} {a : Attempt} {o : Outcome} {target : Dispatcher.DispatchTarget}

/-- A result is a success to the thin path, whatever it says. -/
theorem call_breaker (retryAfter : ℚ → String) {slowCallThreshold : ℚ}
    (hquick : ¬ slowCallThreshold < a.ended - a.start) :
    (call retryAfter slowCallThreshold b a).2 = driven (fun o => !o.raised) b a := by
  rw [call, driven]
  dsimp only
  split
  · rfl
  · cases houtcome : a.outcome with
    | returns result => simp [CircuitBreaker.callOutcome, hquick, Outcome.raised]
    | raises text => simp [CircuitBreaker.callOutcome, Outcome.raised]

/-- The response of a thin invoke does not touch the breaker. -/
theorem invokeAgent_breaker (retryAfter : ℚ → String) (slowCallThreshold : ℚ) (agentId : String) :
    (invokeAgent retryAfter slowCallThreshold agentId b a).2 =
      (call retryAfter slowCallThreshold b a).2 := by
  rw [invokeAgent]
  split <;> simp [*]

theorem tried_toCall : CircuitBreaker.tried (o.toCall.invoke target) = some o.succeeded := by
  cases o <;> rfl

theorem attempted_eq : attempted target b a = driven Outcome.succeeded b a := by
  rw [attempted, driven, tried_toCall]

/-- `_try_one` on the agent moves its breaker like `attempted`. -/
theorem tryOne_breaker (env : Dispatcher.Env) (world : Dispatcher.World)
    (request : Dispatcher.DispatchRequest) (d : Dispatcher.Disp) {adapter : Dispatcher.Adapter}
    (hadapter : Dispatcher.adapterOf world (d.reads + 1) target = some adapter)
    (hcall : adapter.invoke (d.reads + 1) request = a.outcome.toCall)
    (hnow : a.now = env.clock d.reads) (hrecorded : a.recorded = env.clock (d.reads + 1))
    (hopened : a.opened = env.clock (d.reads + 2)) :
    (Dispatcher.tryOne env request d target (Dispatcher.externalBackend world)).2.getBreaker target =
      attempted target (d.getBreaker target) a := by
  have htried : CircuitBreaker.tried ((Dispatcher.externalBackend world).invoke
      (d.setBreaker target ((d.getBreaker target).checkState a.now).2 1).reads target request) =
        some a.outcome.succeeded := by
    simp only [Dispatcher.Disp.setBreaker, Dispatcher.externalBackend, Dispatcher.externalInvoke,
      hadapter, hcall]
    exact tried_toCall
  rw [CircuitBreaker.tryOne_records, attempted_eq, driven]
  simp only [Dispatcher.Disp.checkState, ← hnow]
  have hset : (d.setBreaker target ((d.getBreaker target).checkState a.now).2 1).getBreaker target =
      ((d.getBreaker target).checkState a.now).2 := by
    simp [Dispatcher.Disp.getBreaker, Dispatcher.Disp.setBreaker]
  have hrecord : ∀ success, (Dispatcher.Disp.record env
      (d.setBreaker target ((d.getBreaker target).checkState a.now).2 1) target
        success).getBreaker target =
      ((d.getBreaker target).checkState a.now).2.record (some success) a.recorded a.opened := by
    intro success
    rw [hrecorded, hopened]
    cases success <;>
      simp [Dispatcher.Disp.record, Dispatcher.Disp.recordSuccess, Dispatcher.Disp.recordFailure,
        Dispatcher.Disp.getBreaker, Dispatcher.Disp.setBreaker, CircuitBreaker.record]
  cases hstate : ((d.getBreaker target).checkState a.now).1 with
  | opened => exact hset
  | closed =>
      simp only [htried]
      exact hrecord _
  | halfOpen =>
      simp only [htried]
      exact hrecord _

/-! ## Both breakers -/

/-- The breaker of the thin path and that of the dispatcher, with the outcomes of the calls
since the first of them last became `CLOSED`. -/
structure Pair where
  thin : CircuitBreaker
  dispatched : CircuitBreaker
  outcomes : List Outcome := []

namespace Pair

/-- An attempt that is not slow. -/
structure QuickAttempt (slowCallThreshold : ℚ) extends Attempt where
  quick : ¬ slowCallThreshold < ended - start

variable {slowCallThreshold : ℚ} (retryAfter : ℚ → String) (agentId : String)
  (target : Dispatcher.DispatchTarget)

/-- The outcomes since the breaker became `CLOSED`, after an attempt that leaves it as `b`. -/
def noted (p : Pair) (a : Attempt) (b : CircuitBreaker) : List Outcome :=
  match (p.thin.checkState a.now).1 with
  | .opened => p.outcomes
  | .halfOpen => if b.state = .closed then [] else p.outcomes ++ [a.outcome]
  | .closed => p.outcomes ++ [a.outcome]

/-- The same attempt on both paths. -/
def step (p : Pair) (a : QuickAttempt slowCallThreshold) : Option Pair :=
  let (_, thin) := invokeAgent retryAfter slowCallThreshold agentId p.thin a.toAttempt
  some {
    thin := thin
    dispatched := attempted target p.dispatched a.toAttempt
    outcomes := p.noted a.toAttempt thin }

/-- Two new breakers. -/
def start (failureThreshold successThreshold timeout : ℕ) : Pair where
  thin := (CircuitBreaker.fresh failureThreshold successThreshold timeout).breaker
  dispatched := (CircuitBreaker.fresh failureThreshold successThreshold timeout).breaker

/-- The breakers are in the same state. -/
def SameState (p : Pair) : Prop := p.thin.state = p.dispatched.state

/-- The latest outcomes of `kind`, with those of the attempt. -/
def latest (p : Pair) (a : Attempt) (kind : Outcome → Bool) : ℕ :=
  ((p.outcomes ++ [a.outcome]).rtake
    (p.thin.failureThreshold + p.thin.successThreshold)).countP kind

/-- No probe returns `success=False`; and an attempt at the closed breakers that makes
`failure_threshold` of the latest outcomes unsuccessful raises, and so many of them are
exceptions. -/
def Told (p : Pair) (a : QuickAttempt slowCallThreshold) : Prop :=
  match (p.thin.checkState a.now).1 with
  | .opened => True
  | .halfOpen => a.outcome.succeeded = true ∨ a.outcome.raised = true
  | .closed =>
      a.outcome.succeeded = false →
        p.thin.failureThreshold ≤ p.latest a.toAttempt (fun o => !o.succeeded) →
          a.outcome.raised = true ∧
            p.thin.failureThreshold ≤ p.latest a.toAttempt Outcome.raised

/-! ## The check -/

/-- Both breakers after their state checks. -/
def checked (p : Pair) (now : ℚ) : Pair :=
  { p with thin := (p.thin.checkState now).2, dispatched := (p.dispatched.checkState now).2 }

/-- What breakers in the same state have in common. -/
structure Synced (p : Pair) : Prop where
  failureThreshold : p.thin.failureThreshold = p.dispatched.failureThreshold
  successThreshold : p.thin.successThreshold = p.dispatched.successThreshold
  timeout : p.thin.timeout = p.dispatched.timeout
  openedAt : p.thin.state = .opened → p.thin.openedAt = p.dispatched.openedAt
  probes : p.thin.state = .halfOpen → p.thin.halfOpenSuccesses = p.dispatched.halfOpenSuccesses
  thin : CircuitBreaker.Windowed
    { breaker := p.thin, sinceClosed := p.outcomes.map fun o => !o.raised }
  dispatched : CircuitBreaker.Windowed
    { breaker := p.dispatched, sinceClosed := p.outcomes.map Outcome.succeeded }

variable {p q : Pair} {now : ℚ} {retryAfter agentId target}

theorem synced_checked (hs : Synced p) (hp : SameState p) (now : ℚ) :
    Synced (p.checked now) ∧ SameState (p.checked now) := by
  rw [SameState] at hp
  by_cases hdue : p.thin.state = .opened ∧ p.thin.timeout ≤ now - p.thin.openedAt
  · have hdue' : p.dispatched.state = .opened ∧
        p.dispatched.timeout ≤ now - p.dispatched.openedAt := by
      rwa [← hp, ← hs.timeout, ← hs.openedAt hdue.1]
    simp only [checked, CircuitBreaker.checkState, if_pos hdue, if_pos hdue',
      CircuitBreaker.transitionTo]
    refine ⟨⟨hs.failureThreshold, hs.successThreshold, hs.timeout, by simp, fun _ => rfl, ?_, ?_⟩,
      rfl⟩
    · simp [CircuitBreaker.Windowed]
    · simp [CircuitBreaker.Windowed]
  · have hnot : ¬ (p.dispatched.state = .opened ∧
        p.dispatched.timeout ≤ now - p.dispatched.openedAt) := by
      rintro ⟨hopened, htimeout⟩
      rw [← hp] at hopened
      rw [← hs.timeout, ← hs.openedAt hopened] at htimeout
      exact hdue ⟨hopened, htimeout⟩
    simp only [checked, CircuitBreaker.checkState, if_neg hdue, if_neg hnot]
    exact ⟨hs, hp⟩

theorem latest_checked (a : Attempt) (kind : Outcome → Bool) :
    (p.checked now).latest a kind = p.latest a kind := by
  obtain ⟨hfailure, hsuccess, -⟩ := CircuitBreaker.after_thresholds p.thin (.state now)
  rw [CircuitBreaker.after] at hfailure hsuccess
  rw [latest, latest, checked, hfailure, hsuccess]

/-! ## The record -/

/-- Both breakers once the attempt is recorded. -/
def recorded (q : Pair) (a : Attempt) : Pair where
  thin :=
    if q.thin.state = .opened then q.thin
    else q.thin.record (some !a.outcome.raised) a.recorded a.opened
  dispatched :=
    if q.dispatched.state = .opened then q.dispatched
    else q.dispatched.record (some a.outcome.succeeded) a.recorded a.opened
  outcomes :=
    match q.thin.state with
    | .opened => q.outcomes
    | .halfOpen =>
        if (q.thin.record (some !a.outcome.raised) a.recorded a.opened).state = .closed then []
        else q.outcomes ++ [a.outcome]
    | .closed => q.outcomes ++ [a.outcome]

/-- An attempt is a check and a record. -/
theorem step_eq (a : QuickAttempt slowCallThreshold) :
    step retryAfter agentId target p a = some ((p.checked a.now).recorded a.toAttempt) := by
  have hthin := (invokeAgent_breaker retryAfter slowCallThreshold agentId).trans
    (call_breaker (b := p.thin) retryAfter a.quick)
  simp only [step, hthin, attempted_eq, driven, noted, recorded, checked]
  have hthen : (p.thin.checkState a.now).1 = (p.thin.checkState a.now).2.state := rfl
  rw [Option.some.injEq, Pair.mk.injEq]
  refine ⟨rfl, rfl, ?_⟩
  rw [hthen]
  cases hstate : (p.thin.checkState a.now).2.state with
  | opened => rfl
  | closed => rfl
  | halfOpen => exact if_congr (by simp) rfl rfl

theorem windowed_record {b : CircuitBreaker} {outcomes : List Bool}
    (hw : CircuitBreaker.Windowed { breaker := b, sinceClosed := outcomes })
    (hclosed : b.state = .closed) (ok : Bool) (now opened : ℚ) :
    CircuitBreaker.Windowed {
      breaker := b.record (some ok) now opened, sinceClosed := outcomes ++ [ok] } := by
  cases ok
  · have hnext := CircuitBreaker.windowed_next hw (.recordFailure now opened)
    simp only [CircuitBreaker.History.next, hclosed, ne_eq, not_true_eq_false, false_or,
      CircuitBreaker.Call.isReset, Bool.false_eq_true, and_false, if_false] at hnext
    exact hnext
  · have hnext := CircuitBreaker.windowed_next hw (.recordSuccess now)
    simp only [CircuitBreaker.History.next, hclosed, ne_eq, not_true_eq_false, false_or,
      CircuitBreaker.Call.isReset, Bool.false_eq_true, and_false, if_false] at hnext
    exact hnext

/-- The failures among the latest outcomes, the last of which is one. -/
theorem count_latest {ok : Outcome → Bool} {o : Outcome} (ho : ok o = false) (n : ℕ)
    (outcomes : List Outcome) :
    ((outcomes.map ok ++ [false]).rtake n).count false =
      ((outcomes ++ [o]).rtake n).countP fun o => !ok o := by
  have hmap : outcomes.map ok ++ [false] = (outcomes ++ [o]).map ok := by simp [ho]
  rw [hmap, ← Window.map_rtake, List.count_eq_countP, List.countP_map]
  refine List.countP_congr fun o _ => ?_
  cases hok : ok o <;> simp [hok]

theorem record_closed {b : CircuitBreaker} (hclosed : b.state = .closed) (now opened : ℚ) :
    b.record (some true) now opened = b.push true now ∧
      b.record (some false) now opened =
        if b.failureThreshold ≤ (b.push false now).countRecentFailures then
          (b.push false now).transitionTo .opened opened
        else b.push false now := by
  constructor
  · simp [CircuitBreaker.record, CircuitBreaker.recordSuccess, hclosed]
  · simp only [CircuitBreaker.record, CircuitBreaker.recordFailure, CircuitBreaker.push_state, hclosed]
    rfl

theorem record_halfOpen {b : CircuitBreaker} (hhalf : b.state = .halfOpen) (now opened : ℚ) :
    b.record (some true) now opened =
        (if b.successThreshold ≤ b.halfOpenSuccesses + 1 then
          { b.push true now with halfOpenSuccesses := b.halfOpenSuccesses + 1 }.transitionTo .closed now
        else { b.push true now with halfOpenSuccesses := b.halfOpenSuccesses + 1 }) ∧
      b.record (some false) now opened = (b.push false now).transitionTo .opened opened := by
  simp [CircuitBreaker.record, CircuitBreaker.recordSuccess, CircuitBreaker.recordFailure, hhalf]

/-- When a closed breaker opens that is told `ok` of every outcome. -/
theorem opens_iff {b : CircuitBreaker} {ok : Outcome → Bool} {outcomes : List Outcome}
    (hw : CircuitBreaker.Windowed { breaker := b, sinceClosed := outcomes.map ok })
    (hclosed : b.state = .closed) (o : Outcome) (now opened : ℚ) :
    (b.record (some (ok o)) now opened).state = .opened ↔ ok o = false ∧
      b.failureThreshold ≤
        ((outcomes ++ [o]).rtake (b.failureThreshold + b.successThreshold)).countP fun o => !ok o := by
  cases ho : ok o with
  | true =>
      rw [(record_closed hclosed now opened).1, CircuitBreaker.push_state, hclosed]
      exact iff_of_false (by simp) (by simp)
  | false =>
      have htrips := CircuitBreaker.trips_iff hw hclosed now
      rw [(record_closed hclosed now opened).2, ← count_latest ho, and_iff_right rfl]
      refine Iff.trans ?_ htrips
      split
      · exact iff_of_true rfl ‹_›
      · refine iff_of_false ?_ ‹_›
        rw [CircuitBreaker.push_state, hclosed]
        decide

theorem record_closed_state {b : CircuitBreaker} (hclosed : b.state = .closed) (ok : Bool)
    (now opened : ℚ) :
    (b.record (some ok) now opened).state = .closed ∨
      (b.record (some ok) now opened).state = .opened ∧ ok = false ∧
        (b.record (some ok) now opened).openedAt = opened := by
  cases ok
  · rw [(record_closed hclosed now opened).2]
    split
    · exact .inr ⟨rfl, rfl, rfl⟩
    · exact .inl hclosed
  · rw [(record_closed hclosed now opened).1]
    exact .inl hclosed

/-- An exception is no success. -/
theorem succeeded_of_raised {o : Outcome} (h : o.raised = true) : o.succeeded = false := by
  cases o with
  | returns result => cases h
  | raises text => rfl

theorem latest_raised_le (a : Attempt) :
    q.latest a Outcome.raised ≤ q.latest a fun o => !o.succeeded :=
  List.countP_mono_left fun o _ h => by rw [succeeded_of_raised h]; rfl

/-- The record of an attempt at the closed breakers. -/
theorem sameState_recorded_closed (hs : Synced q) (hp : SameState q) (a : Attempt)
    (hclosed : q.thin.state = .closed) :
    SameState (q.recorded a) ↔
      (a.outcome.succeeded = false →
        q.thin.failureThreshold ≤ q.latest a (fun o => !o.succeeded) →
          a.outcome.raised = true ∧ q.thin.failureThreshold ≤ q.latest a Outcome.raised) := by
  have hclosed' : q.dispatched.state = .closed := hp.symm.trans hclosed
  have hthin := opens_iff hs.thin hclosed a.outcome a.recorded a.opened
  have hdispatched := opens_iff hs.dispatched hclosed' a.outcome a.recorded a.opened
  rw [← hs.failureThreshold, ← hs.successThreshold] at hdispatched
  simp only [Bool.not_not, Bool.not_eq_false'] at hthin
  have hstates : SameState (q.recorded a) ↔
      ((q.thin.record (some !a.outcome.raised) a.recorded a.opened).state = .opened ↔
        (q.dispatched.record (some a.outcome.succeeded) a.recorded a.opened).state = .opened) := by
    simp only [SameState, recorded, hclosed, hclosed', reduceCtorEq, if_false]
    rcases record_closed_state hclosed (!a.outcome.raised) a.recorded a.opened with h | ⟨h, -⟩ <;>
      rcases record_closed_state hclosed' a.outcome.succeeded a.recorded a.opened with h' | ⟨h', -⟩ <;>
      simp [h, h']
  rw [hstates, hthin, hdispatched]
  have hle : q.latest a Outcome.raised ≤ q.latest a fun o => !o.succeeded := latest_raised_le a
  constructor
  · exact fun h hfailed hmany => h.2 ⟨hfailed, hmany⟩
  · intro h
    constructor
    · exact fun hraised => ⟨succeeded_of_raised hraised.1, hraised.2.trans hle⟩
    · exact fun hfailed => h hfailed.1 hfailed.2

theorem synced_recorded_closed (hs : Synced q) (hp : SameState q) (a : Attempt)
    (hclosed : q.thin.state = .closed) (hsame : SameState (q.recorded a)) :
    Synced (q.recorded a) := by
  have hclosed' : q.dispatched.state = .closed := hp.symm.trans hclosed
  simp only [SameState, recorded, hclosed, hclosed', reduceCtorEq, if_false] at hsame ⊢
  obtain ⟨hf, hsu, ht⟩ :=
    CircuitBreaker.record_thresholds q.thin (some !a.outcome.raised) a.recorded a.opened
  obtain ⟨hf', hsu', ht'⟩ :=
    CircuitBreaker.record_thresholds q.dispatched (some a.outcome.succeeded) a.recorded a.opened
  have hthin := record_closed_state hclosed (!a.outcome.raised) a.recorded a.opened
  have hdispatched := record_closed_state hclosed' a.outcome.succeeded a.recorded a.opened
  refine ⟨?_, ?_, ?_, fun hopened => ?_, fun hhalf => ?_, ?_, ?_⟩
  · rw [hf, hf', hs.failureThreshold]
  · rw [hsu, hsu', hs.successThreshold]
  · rw [ht, ht', hs.timeout]
  · rcases hthin with h | ⟨-, -, hat⟩
    · simp [h] at hopened
    · rw [hsame] at hopened
      rcases hdispatched with h | ⟨-, -, hat'⟩
      · simp [h] at hopened
      · rw [hat, hat']
  · rcases hthin with h | ⟨h, -⟩ <;> simp [h] at hhalf
  · simpa using windowed_record hs.thin hclosed (!a.outcome.raised) a.recorded a.opened
  · simpa using windowed_record hs.dispatched hclosed' a.outcome.succeeded a.recorded a.opened

/-- The record of a probe. -/
theorem sameState_recorded_halfOpen (hs : Synced q) (hp : SameState q) (a : Attempt)
    (hhalf : q.thin.state = .halfOpen) :
    (SameState (q.recorded a) ↔ a.outcome.succeeded = true ∨ a.outcome.raised = true) ∧
      (SameState (q.recorded a) → Synced (q.recorded a)) := by
  have hhalf' : q.dispatched.state = .halfOpen := hp.symm.trans hhalf
  obtain ⟨hsucceeds, hfails⟩ := record_halfOpen hhalf a.recorded a.opened
  obtain ⟨hsucceeds', hfails'⟩ := record_halfOpen hhalf' a.recorded a.opened
  rw [← hs.successThreshold, ← hs.probes hhalf] at hsucceeds'
  cases houtcome : a.outcome with
  | raises text =>
      refine ⟨iff_of_true ?_ (.inr rfl), fun _ => ?_⟩
      · simp [SameState, recorded, hhalf, hhalf', houtcome, Outcome.raised, Outcome.succeeded,
          hfails, hfails', CircuitBreaker.transitionTo]
      · simp only [recorded, hhalf, hhalf', houtcome, Outcome.raised, Outcome.succeeded,
          reduceCtorEq, if_false, Bool.not_true, hfails, hfails', CircuitBreaker.transitionTo]
        exact ⟨hs.failureThreshold, hs.successThreshold, hs.timeout, fun _ => rfl, fun _ => rfl,
          by simp [CircuitBreaker.Windowed], by simp [CircuitBreaker.Windowed]⟩
  | returns result =>
      cases hsuccess : result.success with
      | true =>
          have hrecorded : SameState (q.recorded a) ∧ Synced (q.recorded a) := by
            simp only [SameState, recorded, hhalf, hhalf', houtcome, Outcome.raised,
              Outcome.succeeded, hsuccess, reduceCtorEq, if_false, Bool.not_false, hsucceeds,
              hsucceeds']
            by_cases henough : q.thin.successThreshold ≤ q.thin.halfOpenSuccesses + 1
            · simp only [if_pos henough, CircuitBreaker.transitionTo]
              exact ⟨trivial, hs.failureThreshold, hs.successThreshold, hs.timeout, by simp,
                by simp, by simp [CircuitBreaker.Windowed], by simp [CircuitBreaker.Windowed]⟩
            · simp only [if_neg henough]
              exact ⟨hp, hs.failureThreshold, hs.successThreshold, hs.timeout, by simp [hhalf],
                fun _ => rfl, by simp [CircuitBreaker.Windowed, hhalf],
                by simp [CircuitBreaker.Windowed, hhalf']⟩
          exact ⟨iff_of_true hrecorded.1 (.inl hsuccess), fun _ => hrecorded.2⟩
      | false =>
          have hdiffers : ¬ SameState (q.recorded a) := by
            simp only [SameState, recorded, hhalf, hhalf', houtcome, Outcome.raised,
              Outcome.succeeded, hsuccess, reduceCtorEq, if_false, Bool.not_false, hsucceeds,
              hfails', CircuitBreaker.transitionTo]
            split <;> simp [hhalf]
          refine ⟨iff_of_false hdiffers ?_, fun h => absurd h hdiffers⟩
          simp [Outcome.succeeded, Outcome.raised, hsuccess]

/-! ## Runs -/

/-- **One attempt.**  Breakers in the same state stay so exactly if the outcome is told
apart from a success by both. -/
theorem sameState_step (hs : Synced p) (hp : SameState p) (a : QuickAttempt slowCallThreshold)
    (h : step retryAfter agentId target p a = some q) :
    (SameState q ↔ Told p a) ∧ (SameState q → Synced q) := by
  rw [step_eq, Option.some.injEq] at h
  subst h
  obtain ⟨hsynced, hsame⟩ := synced_checked hs hp a.now
  have hthen : (p.thin.checkState a.now).1 = (p.checked a.now).thin.state := rfl
  have hthreshold : (p.checked a.now).thin.failureThreshold = p.thin.failureThreshold :=
    (CircuitBreaker.after_thresholds p.thin (.state a.now)).1
  rw [Told, hthen]
  cases hstate : (p.checked a.now).thin.state with
  | opened =>
      have hstate' : (p.checked a.now).dispatched.state = .opened := hsame.symm.trans hstate
      have hidle : (p.checked a.now).recorded a.toAttempt = p.checked a.now := by
        simp [recorded, hstate, hstate']
      rw [hidle]
      exact ⟨iff_of_true hsame trivial, fun _ => hsynced⟩
  | halfOpen => exact sameState_recorded_halfOpen hsynced hsame a.toAttempt hstate
  | closed =>
      have hiff := sameState_recorded_closed hsynced hsame a.toAttempt hstate
      rw [latest_checked, latest_checked, hthreshold] at hiff
      exact ⟨hiff, synced_recorded_closed hsynced hsame a.toAttempt hstate⟩

/-- **Two breakers, one rule.**  On every sequence of attempts the breaker of the thin path
and that of the dispatcher go through the same states exactly when no probe returns
`success=False` and what opens one of the closed breakers opens the other. -/
theorem sameState_iff_told (failureThreshold successThreshold timeout : ℕ)
    (attempts : List (QuickAttempt slowCallThreshold)) :
    Run.Throughout (step retryAfter agentId target) SameState
        (.start failureThreshold successThreshold timeout) attempts ↔
      Run.Along (step retryAfter agentId target) Told
        (.start failureThreshold successThreshold timeout) attempts := by
  refine Run.throughout_iff_along_while (B := Synced) ?_ ?_ ?_ ?_ rfl
  · exact fun s a t hs hp hpt h => (sameState_step hs hp a h).2 hpt
  · exact fun s a t hs hp h => (sameState_step hs hp a h).1
  · intro s a _ h
    simp [step] at h
  · refine ⟨rfl, rfl, rfl, fun _ => rfl, fun _ => rfl, ?_, ?_⟩ <;>
      simp [CircuitBreaker.Windowed, start, CircuitBreaker.fresh]

/-- An answer of the agent that it could not do what it was asked. -/
def refused (now : ℚ) : QuickAttempt 15 where
  outcome := .returns { success := false, error := some "unavailable" }
  now := now
  start := now
  ended := now
  recorded := now
  opened := now
  quick := by norm_num

/-- Five answers with `success=False` open the breaker of the dispatcher, and not that of the
thin path. -/
theorem refusals_seen_by_one :
    ¬ Run.Throughout (step (fun _ => "30.0") "agent-1"
        { kind := .external, agentType := "audit", agentId := some "agent-1" }) SameState
        (.start 5 3 30) (List.replicate 5 (refused 0)) := by
  intro h
  have hstates : ((Run.exec (step (fun _ => "30.0") "agent-1"
      { kind := .external, agentType := "audit", agentId := some "agent-1" })
      (.start 5 3 30) (List.replicate 5 (refused 0))).map fun p =>
        (p.thin.state, p.dispatched.state)) = some (.closed, .opened) := by
    decide +kernel
  obtain ⟨p, hp, hpair⟩ := Option.map_eq_some_iff.1 hstates
  have hsame : p.thin.state = p.dispatched.state := h.last hp
  rw [Prod.mk.injEq] at hpair
  rw [hpair.1, hpair.2] at hsame
  cases hsame

/-- The thin path never cuts off an agent whose adapter returns, whatever it returns. -/
theorem thin_closed_of_returns (failureThreshold successThreshold timeout : ℕ)
    {attempts : List (QuickAttempt slowCallThreshold)}
    (hreturns : ∀ a ∈ attempts, a.outcome.raised = false) :
    Run.Throughout (step retryAfter agentId target) (fun p => p.thin.state = .closed)
      (.start failureThreshold successThreshold timeout) attempts := by
  have hok : Run.Along (step retryAfter agentId target) (fun _ a => a.outcome.raised = false)
      (.start failureThreshold successThreshold timeout) attempts := Run.along_of_mem _ hreturns
  refine Run.throughout_of_invariant ?_ rfl hok
  intro p a q hp hok h
  rw [step_eq, Option.some.injEq] at h
  have hchecked : (p.checked a.now).thin = p.thin := by
    simp [checked, CircuitBreaker.checkState, hp]
  have hthin : ((p.checked a.now).recorded a.toAttempt).thin = p.thin.push true a.recorded := by
    rw [recorded, hchecked, hp, hok]
    exact (record_closed hp a.recorded a.opened).1
  rw [← h, hthin]
  exact hp

end Pair
end Gateway
end AgentSwarm
