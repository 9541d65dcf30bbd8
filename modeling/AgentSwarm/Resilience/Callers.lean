import AgentSwarm.Dispatcher.Dispatcher
import AgentSwarm.Resilience.Laws
import Mathlib.Tactic.Linarith

/-!
# The concurrent callers of one breaker

A caller asks the breaker for its state, waits for the work it wants done, and
records what came of it.  Asking and recording are two critical sections, and
anything may happen between them.

* `Work`, `callOutcome` — how the coroutine of `CircuitBreaker.call` ends, and what
  is recorded for it; `tried` is the same for `Dispatcher._try_one`.
* `Callers` — the breaker, and the calls that were let through and have not ended.
* `step` — a caller arrives, or ends; the state is checked, or reset.
* `Limited` — no more probes are under way than `success_threshold`.
* `limited_iff_room` — that is so as long as no caller arrives at a **full** period.
* `ProbesDecide` — successes that count toward recovery are those of probes.
* `probesDecide_iff` — that is so whenever a slow call is shorter than the timeout.
-/

namespace AgentSwarm
namespace CircuitBreaker

/-! ## What a call records -/

/-- How the coroutine given to `CircuitBreaker.call` ends. -/
inductive Work where
  | returns
  | raises
  | cancelled

/-- The outcome that `call` records; a cancellation passes it by. -/
def callOutcome (slowCallThreshold elapsed : ℚ) : Work → Option Bool
  | .returns => if slowCallThreshold < elapsed then some false else some true
  | .raises => some false
  | .cancelled => none

/-- The outcome that `_try_one` records for its invoke task. -/
def tried (invokeTask : Dispatcher.Invoke) : Option Bool :=
  match invokeTask.waitFor with
  | .error (.circuitOpenError _) => none
  | .error _ =>
      match invokeTask.awaitAgain with
      | .error _ => none
      | .ok _ => some false
  | .ok attempt => some attempt.success

/-- `_try_one` asks the breaker of its target, and records what `tried` says. -/
theorem tryOne_records (env : Dispatcher.Env) (request : Dispatcher.DispatchRequest)
    (d : Dispatcher.Disp) (target : Dispatcher.DispatchTarget) (backend : Dispatcher.Backend) :
    (Dispatcher.tryOne env request d target backend).2 =
      match d.checkState env target with
      | (.opened, d) => d
      | (_, d) =>
          match tried (backend.invoke d.reads target request) with
          | none => d
          | some success => d.record env target success := by
  rw [Dispatcher.tryOne]
  rcases d.checkState env target with ⟨state, d'⟩
  cases state
  case opened => rfl
  all_goals
    cases hinvoke : backend.invoke d'.reads target request with
    | returns attempt => simp [tried, hinvoke, Dispatcher.Invoke.waitFor]
    | raises e => cases e <;> simp [tried, hinvoke, Dispatcher.Invoke.waitFor, Dispatcher.Invoke.awaitAgain]
    | outlives onCancel =>
        cases onCancel with
        | cancelled =>
            simp [tried, hinvoke, Dispatcher.Invoke.waitFor, Dispatcher.Invoke.awaitAgain,
              Dispatcher.Disp.record]
        | raises e =>
            cases e <;>
              simp [tried, hinvoke, Dispatcher.Invoke.waitFor, Dispatcher.Invoke.awaitAgain]
        | returns attempt => simp [tried, hinvoke, Dispatcher.Invoke.waitFor]

/-- How a call that was let through ends. -/
inductive Ending where
  /-- A `CircuitBreaker.call`. -/
  | worked (work : Work)
  /-- A `_try_one`. -/
  | invoked (invokeTask : Dispatcher.Invoke)

/-- The breaker once an outcome is recorded. -/
def record (b : CircuitBreaker) (outcome : Option Bool) (now opened : ℚ) : CircuitBreaker :=
  match outcome with
  | none => b
  | some true => b.recordSuccess now
  | some false => b.recordFailure now opened

theorem record_thresholds (b : CircuitBreaker) (outcome : Option Bool) (now opened : ℚ) :
    (b.record outcome now opened).failureThreshold = b.failureThreshold ∧
      (b.record outcome now opened).successThreshold = b.successThreshold ∧
      (b.record outcome now opened).timeout = b.timeout := by
  rcases outcome with - | ok
  · exact ⟨rfl, rfl, rfl⟩
  · cases ok
    · exact after_thresholds b (.recordFailure now opened)
    · exact after_thresholds b (.recordSuccess now)

/-! ## The callers -/

/-- A call that was let through and has not ended. -/
structure Admitted where
  start : ℚ
  /-- The `HALF_OPEN` period in which it was let through, if it was in one. -/
  period : Option ℕ
  deriving DecidableEq

/-- A breaker and its callers. -/
structure Callers where
  breaker : CircuitBreaker
  slowCallThreshold : ℚ
  /-- The calls under way, by the number of their caller. -/
  calls : Dict ℕ Admitted := []
  arrived : ℕ := 0
  /-- How many times the breaker has become `HALF_OPEN`. -/
  halfOpens : ℕ := 0
  /-- The successes counted toward recovery: the period it was counted in, and the one
  in which the call was let through. -/
  counted : List (ℕ × Option ℕ) := []
  /-- The last reading of the clock. -/
  clock : ℚ := 0

namespace Callers

inductive Event where
  /-- A caller checks the state at `now`; the call starts at `start` unless it is
  rejected. -/
  | arrive (now start : ℚ)
  /-- A call ends at `ended`; `now` and `opened` are the readings of `_push` and
  `_transition_to`. -/
  | ends (caller : ℕ) (ending : Ending) (ended now opened : ℚ)
  /-- `state` or `allow`, by others. -/
  | check (now : ℚ)
  | reset (now : ℚ)

/-- The period the breaker is in. -/
def period (s : Callers) : Option ℕ :=
  if s.breaker.state = .halfOpen then some s.halfOpens else none

/-- A state check. -/
def check (s : Callers) (now : ℚ) : Callers :=
  let (state, breaker) := s.breaker.checkState now
  { s with
    breaker := breaker
    halfOpens :=
      if state = .halfOpen ∧ s.breaker.state ≠ .halfOpen then s.halfOpens + 1 else s.halfOpens
    clock := now }

/-- The caller is let through. -/
def letThrough (s : Callers) (start : ℚ) : Callers :=
  { s with
    calls := s.calls ++ [(s.arrived, { start := start, period := s.period })]
    arrived := s.arrived + 1
    clock := start }

/-- The outcome a call has. -/
def outcome (s : Callers) (call : Admitted) (ending : Ending) (ended : ℚ) : Option Bool :=
  match ending with
  | .worked work => callOutcome s.slowCallThreshold (ended - call.start) work
  | .invoked invokeTask => tried invokeTask

/-- A call ends with an outcome. -/
def finish (s : Callers) (caller : ℕ) (call : Admitted) (outcome : Option Bool)
    (now opened : ℚ) : Callers :=
  { s with
    breaker := s.breaker.record outcome now opened
    calls := s.calls.erase caller
    counted :=
      if outcome = some true ∧ s.breaker.state = .halfOpen then
        s.counted ++ [(s.halfOpens, call.period)]
      else s.counted
    clock := opened }

/-- One step of a caller. -/
def step (s : Callers) : Event → Option Callers
  | .arrive now start =>
      let s := s.check now
      if s.breaker.state = .opened then some { s with arrived := s.arrived + 1, clock := start }
      else some (s.letThrough start)
  | .ends caller ending ended now opened =>
      match s.calls.get caller with
      | none => none
      | some call => some (s.finish caller call (s.outcome call ending ended) now opened)
  | .check now => some (s.check now)
  | .reset now => some { s with breaker := s.breaker.reset now, clock := now }

/-- A new breaker that nobody has called. -/
def start (failureThreshold successThreshold timeout : ℕ) (slowCallThreshold : ℚ) : Callers where
  breaker := (fresh failureThreshold successThreshold timeout).breaker
  slowCallThreshold := slowCallThreshold

/-! ## How many probes are under way -/

/-- The calls let through in period `p` that have not ended. -/
def unfinished (s : Callers) (p : ℕ) : ℕ := s.calls.countP fun c => c.2.period == some p

/-- In no period are more than `success_threshold` calls under way at once. -/
def Limited (s : Callers) : Prop := ∀ p, s.unfinished p ≤ s.breaker.successThreshold

/-- A caller that finds the breaker `HALF_OPEN` finds fewer than `success_threshold` calls
of the period under way. -/
def Room (s : Callers) : Event → Prop
  | .arrive now _ =>
      (s.check now).breaker.state = .halfOpen →
        (s.check now).unfinished (s.check now).halfOpens < s.breaker.successThreshold
  | _ => True

variable {s t : Callers} {ev : Event} {now start : ℚ}

@[simp] theorem check_calls : (s.check now).calls = s.calls := rfl

@[simp] theorem check_slowCallThreshold :
    (s.check now).slowCallThreshold = s.slowCallThreshold := rfl

@[simp] theorem check_successThreshold :
    (s.check now).breaker.successThreshold = s.breaker.successThreshold :=
  (after_thresholds s.breaker (.state now)).2.1

theorem unfinished_check (p : ℕ) : (s.check now).unfinished p = s.unfinished p := rfl

/-- Letting a caller through makes one call more in the period the breaker is in. -/
theorem unfinished_letThrough (p : ℕ) :
    (s.letThrough start).unfinished p = s.unfinished p + if s.period = some p then 1 else 0 := by
  simp [unfinished, letThrough, List.countP_append, List.countP_cons]

theorem unfinished_erase (caller : ℕ) (p : ℕ) :
    (s.calls.erase caller).countP (fun c => c.2.period == some p) ≤ s.unfinished p :=
  List.filter_sublist.countP_le

theorem limited_letThrough (hs : Limited s) :
    Limited (s.letThrough start) ↔
      (s.breaker.state = .halfOpen → s.unfinished s.halfOpens < s.breaker.successThreshold) := by
  constructor
  · intro h hhalf
    have hthis := h s.halfOpens
    rw [unfinished_letThrough, period, if_pos hhalf, if_pos rfl] at hthis
    exact hthis
  · intro hroom p
    rw [unfinished_letThrough]
    by_cases hp : s.period = some p
    · rw [if_pos hp]
      rw [period] at hp
      split at hp
      · rename_i hhalf
        cases hp
        exact hroom hhalf
      · cases hp
    · rw [if_neg hp]
      exact hs p

/-- **One step.**  The limit is kept exactly when a caller that arrives finds room. -/
theorem limited_step (hs : Limited s) (h : step s ev = some t) : Limited t ↔ Room s ev := by
  cases ev with
  | arrive now start =>
      have hchecked : Limited (s.check now) := fun p => by simpa [unfinished_check] using hs p
      simp only [step] at h
      split at h
      · rename_i hopened
        cases h
        refine iff_of_true hchecked ?_
        simp [Room, hopened]
      · cases h
        rw [limited_letThrough hchecked, Room, check_successThreshold]
  | ends caller ending ended now opened =>
      simp only [step] at h
      split at h
      · cases h
      · cases h
        refine iff_of_true (fun p => ?_) trivial
        have hless := (unfinished_erase (s := s) caller p).trans (hs p)
        simpa [unfinished, finish, (record_thresholds _ _ _ _).2.1] using hless
  | check now =>
      cases h
      exact iff_of_true (fun p => by simpa [unfinished_check] using hs p) trivial
  | reset now =>
      cases h
      exact iff_of_true hs trivial

theorem room_of_stuck (h : step s ev = none) : Room s ev := by
  cases ev with
  | arrive now start =>
      simp only [step] at h
      split at h <;> cases h
  | ends caller ending ended now opened => trivial
  | check now => trivial
  | reset now => trivial

/-- **How many probes are under way.**  The limit holds throughout a run exactly when no
caller of the run arrives at a period that is full: the breaker itself turns none away. -/
theorem limited_iff_room (failureThreshold successThreshold timeout : ℕ) (slowCallThreshold : ℚ)
    (evs : List Event) :
    Run.Throughout step Limited
        (.start failureThreshold successThreshold timeout slowCallThreshold) evs ↔
      Run.Along step Room
        (.start failureThreshold successThreshold timeout slowCallThreshold) evs := by
  refine Run.throughout_iff_along (B := fun _ => True) (fun _ _ _ _ _ => trivial) ?_ ?_ trivial ?_
  · exact fun s ev t _ hs h => limited_step hs h
  · exact fun s ev _ h => room_of_stuck h
  · exact fun p => Nat.zero_le _

/-- `n` calls that fail at once, the first of them with the given number. -/
def outage (now : ℚ) (caller : ℕ) : ℕ → List Event
  | 0 => []
  | n + 1 =>
      .arrive now now :: .ends caller (.worked .raises) now now now :: outage now (caller + 1) n

/-- Five failures open the breaker; half a minute later four callers arrive, and all of
them are let through. -/
theorem fourth_probe_let_through :
    ¬ Run.Throughout step Limited (.start 5 3 30 15)
        (outage 0 0 5 ++ List.replicate 4 (.arrive 30 30)) := by
  intro h
  have hfour : ((Run.exec step (.start 5 3 30 15)
      (outage 0 0 5 ++ List.replicate 4 (.arrive 30 30))).map fun s =>
        (s.unfinished 1, s.breaker.successThreshold)) = some (4, 3) := by
    decide +kernel
  obtain ⟨s, hs, hprobes⟩ := Option.map_eq_some_iff.1 hfour
  have hlimit := h.last hs 1
  rw [Prod.mk.injEq] at hprobes
  rw [hprobes.1, hprobes.2] at hlimit
  exact absurd hlimit (by decide)

/-! ## Which successes count -/

/-- Every success counted toward recovery is that of a probe of the same period. -/
def ProbesDecide (s : Callers) : Prop := ∀ c ∈ s.counted, c.2 = some c.1

/-- The clock does not go back, and the callers use `CircuitBreaker.call`. -/
def CallsInTime (s : Callers) : Event → Prop
  | .arrive now start => s.clock ≤ now ∧ now ≤ start
  | .ends _ (.worked _) ended now opened => s.clock ≤ ended ∧ ended ≤ now ∧ now ≤ opened
  | .ends _ (.invoked _) _ _ _ => False
  | .check now => s.clock ≤ now
  | .reset now => s.clock ≤ now

/-- What the times say about the calls under way. -/
structure Dated (s : Callers) : Prop where
  started : ∀ c ∈ s.calls, c.2.start ≤ s.clock
  /-- No caller is let through while the breaker is open. -/
  opened : s.breaker.state = .opened →
    s.breaker.openedAt ≤ s.clock ∧ ∀ c ∈ s.calls, c.2.start ≤ s.breaker.openedAt
  /-- A call that is no probe has lasted as long as the timeout. -/
  stale : s.breaker.state = .halfOpen →
    ∀ c ∈ s.calls, c.2.period = some s.halfOpens ∨ c.2.start + s.breaker.timeout ≤ s.clock

/-- Time passes. -/
theorem Dated.later (hs : Dated s) (hnow : s.clock ≤ now) : Dated { s with clock := now } where
  started c hc := (hs.started c hc).trans hnow
  opened h := ⟨(hs.opened h).1.trans hnow, (hs.opened h).2⟩
  stale h c hc := (hs.stale h c hc).imp_right fun hle => hle.trans hnow

theorem dated_check (hs : Dated s) (hnow : s.clock ≤ now) : Dated (s.check now) := by
  have hmoved := checkState_moved (b := s.breaker) (c := .state now) rfl
  have hsame : (s.breaker.checkState now).1 = (s.breaker.checkState now).2.state := rfl
  rw [check]
  dsimp only
  rw [hsame]
  generalize (s.breaker.checkState now).2 = b at hmoved ⊢
  cases hmoved with
  | halfOpen hc hopened hdue =>
      cases hc
      -- the calls under way started before the breaker opened
      refine ⟨(hs.later hnow).started, by simp, fun _ c hcalls => .inr ?_⟩
      have hstart := (hs.opened hopened).2 c hcalls
      dsimp only
      linarith
  | stays hc hnot =>
      have hno : ¬ (s.breaker.state = .halfOpen ∧ s.breaker.state ≠ .halfOpen) := fun h => h.2 h.1
      rw [if_neg hno]
      exact hs.later hnow
  | success hc hstate => cases hc
  | probe hc hstate hmore => cases hc
  | recover hc hstate henough => cases hc
  | failure hc hstate hfew => cases hc
  | trip hc hstate => cases hc
  | reset hc => cases hc

theorem dated_letThrough (hs : Dated s) (hstart : s.clock ≤ start)
    (hstate : s.breaker.state ≠ .opened) : Dated (s.letThrough start) where
  started c hc := by
    rcases List.mem_append.1 hc with hc | hc
    · exact (hs.started c hc).trans hstart
    · rw [List.mem_singleton.1 hc]
      exact le_rfl
  opened h := absurd h hstate
  stale h c hc := by
    rcases List.mem_append.1 hc with hc | hc
    · exact (hs.later hstart).stale h c hc
    · rw [List.mem_singleton.1 hc]
      exact .inl (if_pos h)

/-- What recording an outcome can do to the breaker. -/
theorem record_state (b : CircuitBreaker) (outcome : Option Bool) (now opened : ℚ) :
    ((b.record outcome now opened).state = .halfOpen → b.state = .halfOpen) ∧
      ((b.record outcome now opened).state = .opened →
        (b.record outcome now opened).openedAt = opened ∨
          b.state = .opened ∧ (b.record outcome now opened).openedAt = b.openedAt) := by
  have hafter : ∀ c : Call, c.outcome.isSome → c.time = opened ∨ c.outcome = some true →
      ((b.after c).state = .halfOpen → b.state = .halfOpen) ∧
        ((b.after c).state = .opened → (b.after c).openedAt = opened ∨
          b.state = .opened ∧ (b.after c).openedAt = b.openedAt) := by
    intro c hsome htime
    have hmoved := after_moved b c
    generalize b.after c = b' at hmoved ⊢
    cases hmoved with
    | success hc hstate => exact ⟨id, fun h => .inr ⟨h, rfl⟩⟩
    | probe hc hstate hmore => exact ⟨id, fun h => .inr ⟨h, rfl⟩⟩
    | recover hc hstate henough => exact ⟨by simp, by simp⟩
    | failure hc hstate hfew => exact ⟨id, fun h => .inr ⟨h, rfl⟩⟩
    | trip hc hstate =>
        refine ⟨by simp, fun _ => .inl ?_⟩
        rcases htime with htime | htrue
        · exact htime
        · simp [hc] at htrue
    | halfOpen hc hstate hdue => simp [outcome_of_checked hc] at hsome
    | stays hc hnot => simp [outcome_of_checked hc] at hsome
    | reset hc => simp [outcome_of_isReset hc] at hsome
  rcases outcome with - | ok
  · exact ⟨id, fun h => .inr ⟨h, rfl⟩⟩
  · cases ok
    · exact hafter (.recordFailure now opened) rfl (.inl rfl)
    · exact hafter (.recordSuccess now) rfl (.inr rfl)

theorem dated_finish (hs : Dated s) {opened : ℚ} (hopened : s.clock ≤ opened) (caller : ℕ)
    (call : Admitted) (outcome : Option Bool) (now : ℚ) :
    Dated (s.finish caller call outcome now opened) := by
  have hkept : ∀ c ∈ s.calls.erase caller, c ∈ s.calls := fun c hc => List.mem_of_mem_filter hc
  have htimeout := (record_thresholds s.breaker outcome now opened).2.2
  obtain ⟨hhalf, hopen⟩ := record_state s.breaker outcome now opened
  have hlater := hs.later hopened
  refine ⟨fun c hc => hlater.started c (hkept c hc), fun h => ?_, fun h c hc => ?_⟩
  · rcases hopen h with hat | ⟨hstate, hat⟩
    · refine ⟨hat.le, fun c hc => ?_⟩
      exact (hlater.started c (hkept c hc)).trans hat.ge
    · simp only [finish, hat]
      exact ⟨(hlater.opened hstate).1, fun c hc => (hlater.opened hstate).2 c (hkept c hc)⟩
  · have hstale := hlater.stale (hhalf h) c (hkept c hc)
    simpa only [finish, htimeout] using hstale

/-! ### Slow calls that are shorter than the timeout -/

@[simp] theorem check_timeout : (s.check now).breaker.timeout = s.breaker.timeout :=
  (after_thresholds s.breaker (.state now)).2.2

/-- A call that is no probe is recorded as a failure, for it was slow. -/
theorem period_of_success (hs : Dated s) (hslow : s.slowCallThreshold < s.breaker.timeout)
    (hhalf : s.breaker.state = .halfOpen) {caller : ℕ} {call : Admitted} {work : Work} {ended : ℚ}
    (hcall : s.calls.get caller = some call) (hended : s.clock ≤ ended)
    (hsuccess : s.outcome call (.worked work) ended = some true) :
    call.period = some s.halfOpens := by
  rcases hs.stale hhalf _ (Dict.mem_of_get hcall) with hperiod | hlong
  · exact hperiod
  · have helapsed : s.slowCallThreshold < ended - call.start := by
      dsimp only at hlong
      linarith
    cases work <;> simp [outcome, callOutcome, helapsed] at hsuccess

theorem probesDecide_step (hs : Dated s) (hprobes : ProbesDecide s)
    (hslow : s.slowCallThreshold < s.breaker.timeout) (hok : CallsInTime s ev)
    (h : step s ev = some t) :
    Dated t ∧ ProbesDecide t ∧ t.slowCallThreshold < t.breaker.timeout := by
  cases ev with
  | arrive now start =>
      have hchecked := dated_check hs hok.1
      simp only [step] at h
      split at h
      · cases h
        have hlater := hchecked.later hok.2
        exact ⟨⟨hlater.started, hlater.opened, hlater.stale⟩, hprobes, by simpa using hslow⟩
      · cases h
        exact ⟨dated_letThrough hchecked hok.2 ‹_›, hprobes, by
          simpa [letThrough] using hslow⟩
  | ends caller ending ended now opened =>
      rcases ending with work | invokeTask
      · obtain ⟨hended, hnow, hopened⟩ := hok
        simp only [step] at h
        split at h
        · cases h
        · rename_i call hcall
          cases h
          have hclock : s.clock ≤ opened := hended.trans (hnow.trans hopened)
          refine ⟨dated_finish hs hclock _ _ _ _, ?_, ?_⟩
          · intro c hc
            simp only [finish] at hc
            split at hc
            · rename_i hcounts
              rcases List.mem_append.1 hc with hc | hc
              · exact hprobes c hc
              · rw [List.mem_singleton.1 hc]
                exact period_of_success hs hslow hcounts.2 hcall hended hcounts.1
            · exact hprobes c hc
          · simp only [finish, (record_thresholds _ _ _ _).2.2]
            exact hslow
      · cases hok
  | check now =>
      cases h
      exact ⟨dated_check hs hok, hprobes, by simpa using hslow⟩
  | reset now =>
      cases h
      have hlater := hs.later hok
      exact ⟨⟨hlater.started, by simp [CircuitBreaker.reset, transitionTo],
        by simp [CircuitBreaker.reset, transitionTo]⟩, hprobes, hslow⟩

/-! ### Calls that outlast the timeout -/

/-- No call has the number of the caller that comes next. -/
def Numbered (s : Callers) : Prop := ∀ c ∈ s.calls, c.1 < s.arrived

/-- A caller arrives at a closed breaker and fails at once. -/
theorem failing_call (hclosed : s.breaker.state = .closed) (hnum : Numbered s) (now : ℚ) :
    step s (.arrive now now) = some (s.letThrough now) ∧
      step (s.letThrough now) (.ends s.arrived (.worked .raises) now now now) =
        some { s with
          breaker := s.breaker.recordFailure now now, arrived := s.arrived + 1, clock := now } := by
  have hcheck : s.check now = { s with clock := now } := by
    simp [check, checkState, hclosed]
  have hnew : s.calls.get s.arrived = none := by
    refine Dict.get_eq_none_of_not_mem_keys fun hmem => ?_
    obtain ⟨c, hc, hkey⟩ := List.mem_map.1 hmem
    exact absurd hkey (hnum c hc).ne
  have hkeep : s.calls.erase s.arrived = s.calls :=
    List.filter_eq_self.2 fun c hc => by simpa using (hnum c hc).ne
  have herase : Dict.erase (s.calls ++ [(s.arrived, { start := now, period := s.period })])
      s.arrived = s.calls := by
    have hlast : Dict.erase [(s.arrived, ({ start := now, period := s.period } : Admitted))]
        s.arrived = [] := by
      simp [Dict.erase]
    rw [Dict.erase, List.filter_append]
    exact (congrArg₂ (· ++ ·) hkeep hlast).trans (List.append_nil _)
  constructor
  · simp [step, hcheck, hclosed, letThrough, period]
  · simp [step, letThrough, Dict.get_append, hnew, Dict.get_cons, finish, outcome, callOutcome,
      record, herase]

/-- A window of failures that is short of the threshold takes another one. -/
theorem push_outage {b : CircuitBreaker} (hall : ∀ r ∈ b.results, r.2 = false)
    (hlen : b.results.length < max b.failureThreshold 1) (now : ℚ) :
    (b.push false now).results = b.results ++ [(now, false)] ∧
      (b.push false now).countRecentFailures = b.results.length + 1 := by
  have hpush : (b.push false now).results = b.results ++ [(now, false)] := by
    rw [push]
    dsimp only
    refine if_neg ?_
    rw [List.length_append, List.length_singleton, windowSize]
    omega
  have hfalse : ∀ r ∈ b.results ++ [(now, false)], (!r.2) = true := by
    intro r hr
    rcases List.mem_append.1 hr with hr | hr
    · rw [hall r hr]
      rfl
    · rw [List.mem_singleton.1 hr]
      rfl
  refine ⟨hpush, ?_⟩
  rw [countRecentFailures, hpush, List.countP_eq_length.2 hfalse]
  simp

/-- The failure that reaches the threshold opens the breaker. -/
theorem recordFailure_outage {b : CircuitBreaker} (hclosed : b.state = .closed)
    (hall : ∀ r ∈ b.results, r.2 = false) (hlen : b.results.length < max b.failureThreshold 1)
    (now : ℚ) :
    b.recordFailure now now =
      if b.results.length + 1 = max b.failureThreshold 1 then (b.push false now).transitionTo .opened now
      else b.push false now := by
  have hcount : (b.push false now).countRecentFailures = b.results.length + 1 :=
    (push_outage hall hlen now).2
  have hpushed : (b.push false now).state = .closed := hclosed
  rw [recordFailure]
  simp only [hpushed, hcount, push_failureThreshold]
  exact if_congr (by omega) rfl rfl

/-- While a breaker that has only seen failures stays closed, they add up. -/
theorem outage_opens (now : ℚ) (n : ℕ) : ∀ {s : Callers}, s.breaker.state = .closed →
    Numbered s → s.clock ≤ now → (∀ r ∈ s.breaker.results, r.2 = false) →
    s.breaker.results.length + (n + 1) = max s.breaker.failureThreshold 1 →
    Run.Along step CallsInTime s (outage now s.arrived (n + 1)) ∧
      ∃ breaker arrived, breaker.state = .opened ∧ breaker.openedAt = now ∧
        breaker.timeout = s.breaker.timeout ∧
        Run.exec step s (outage now s.arrived (n + 1)) =
          some { s with breaker := breaker, arrived := arrived, clock := now } := by
  induction n with
  | zero =>
      intro s hclosed hnum hclock hall hlen
      obtain ⟨harrive, hend⟩ := failing_call hclosed hnum now
      rw [recordFailure_outage hclosed hall (by omega), if_pos hlen] at hend
      refine ⟨.cons ⟨hclock, le_rfl⟩ harrive (.cons ⟨le_rfl, le_rfl, le_rfl⟩ hend trivial),
        (s.breaker.push false now).transitionTo .opened now, s.arrived + 1, rfl, rfl, rfl, ?_⟩
      rw [outage, outage, Run.exec_cons harrive, Run.exec_cons hend, Run.exec_nil]
  | succ n ih =>
      intro s hclosed hnum hclock hall hlen
      obtain ⟨harrive, hend⟩ := failing_call hclosed hnum now
      obtain ⟨hresults, -⟩ := push_outage hall (by omega) now
      rw [recordFailure_outage hclosed hall (by omega), if_neg (by omega)] at hend
      obtain ⟨hrest, breaker, arrived, hopened, hat, htimeout, hexec⟩ :=
        ih (s := { s with
            breaker := s.breaker.push false now, arrived := s.arrived + 1, clock := now })
          hclosed (fun c hc => (hnum c hc).trans (Nat.lt_succ_self _)) le_rfl
          (by
            rw [hresults]
            intro r hr
            rcases List.mem_append.1 hr with hr | hr
            · exact hall r hr
            · rw [List.mem_singleton.1 hr])
          (by
            rw [hresults, List.length_append, List.length_singleton, push_failureThreshold]
            omega)
      refine ⟨.cons ⟨hclock, le_rfl⟩ harrive (.cons ⟨le_rfl, le_rfl, le_rfl⟩ hend hrest),
        breaker, arrived, hopened, hat, htimeout, ?_⟩
      rw [outage, Run.exec_cons harrive, Run.exec_cons hend, hexec]

/-- A call that starts before an outage, and ends when the breaker has just become
`HALF_OPEN`. -/
def lateSuccess (failureThreshold timeout : ℕ) : List Event :=
  .arrive 0 0 :: outage 0 1 (max failureThreshold 1) ++
    [.arrive timeout timeout, .ends 0 (.worked .returns) timeout timeout timeout]

/-- The success of such a call counts, unless it is a slow one. -/
theorem lateSuccess_counts (failureThreshold successThreshold : ℕ) {timeout : ℕ}
    {slowCallThreshold : ℚ} (hslow : ¬ slowCallThreshold < timeout) :
    Run.Along step CallsInTime
        (.start failureThreshold successThreshold timeout slowCallThreshold)
        (lateSuccess failureThreshold timeout) ∧
      ∃ t, Run.exec step (.start failureThreshold successThreshold timeout slowCallThreshold)
        (lateSuccess failureThreshold timeout) = some t ∧ (1, none) ∈ t.counted := by
  obtain ⟨n, hn⟩ : ∃ n, max failureThreshold 1 = n + 1 := ⟨max failureThreshold 1 - 1, by omega⟩
  let s : Callers := (Callers.start failureThreshold successThreshold timeout
    slowCallThreshold).letThrough 0
  obtain ⟨hrest, breaker, arrived, hopened, hat, htimeout, hexec⟩ :=
    outage_opens 0 n (s := s) rfl (by simp [s, Numbered, letThrough, Callers.start])
      le_rfl (by simp [s, letThrough, Callers.start, fresh])
      (by simp [s, letThrough, Callers.start, fresh, hn])
  let u : Callers := { s with breaker := breaker, arrived := arrived, clock := 0 }
  have hcheck : (u.check timeout).breaker.state = .halfOpen ∧ (u.check timeout).halfOpens = 1 := by
    simp [u, s, check, checkState, transitionTo, hopened, hat, htimeout, letThrough,
      Callers.start, fresh]
  have harrive : step u (.arrive timeout timeout) = some ((u.check timeout).letThrough timeout) := by
    simp [step, hcheck.1]
  let v : Callers := (u.check timeout).letThrough timeout
  have hcall : v.calls.get 0 = some { start := 0, period := none } := rfl
  have hsuccess : v.outcome { start := 0, period := none } (.worked .returns) timeout = some true := by
    have hquick : ¬ slowCallThreshold < (timeout : ℚ) - 0 := by rwa [sub_zero]
    exact if_neg hquick
  have hend : step v (.ends 0 (.worked .returns) timeout timeout timeout) =
      some (v.finish 0 { start := 0, period := none } (some true) timeout timeout) := by
    simp [step, hcall, hsuccess]
  have hlate : (0 : ℚ) ≤ timeout := Nat.cast_nonneg _
  have hbefore : Run.exec step (.start failureThreshold successThreshold timeout slowCallThreshold)
      (.arrive 0 0 :: outage 0 1 (n + 1)) = some u :=
    hexec
  rw [lateSuccess, hn]
  refine ⟨Run.Along.append (.cons ⟨le_rfl, le_rfl⟩ rfl hrest) hbefore
    (.cons ⟨hlate, le_rfl⟩ harrive (.cons ⟨le_rfl, le_rfl, le_rfl⟩ hend trivial)),
    v.finish 0 { start := 0, period := none } (some true) timeout timeout, ?_, ?_⟩
  · rw [Run.exec_append, hbefore, Option.bind_some, Run.exec_cons harrive, Run.exec_cons hend,
      Run.exec_nil]
  · have hhalf : v.breaker.state = .halfOpen := hcheck.1
    have hperiod : v.halfOpens = 1 := hcheck.2
    simp [finish, hhalf, hperiod]

/-- **Which successes count.**  Whatever `CircuitBreaker.call` is given to do, and however
its invocations overlap, only probes decide about recovery, exactly when a call that lasts
as long as the timeout is a slow one. -/
theorem probesDecide_iff (failureThreshold successThreshold timeout : ℕ)
    (slowCallThreshold : ℚ) :
    (∀ evs,
      Run.Along step CallsInTime
        (.start failureThreshold successThreshold timeout slowCallThreshold) evs →
      Run.Throughout step ProbesDecide
        (.start failureThreshold successThreshold timeout slowCallThreshold) evs) ↔
      slowCallThreshold < timeout := by
  constructor
  · intro h
    by_contra hslow
    obtain ⟨hok, t, ht, hcounted⟩ := lateSuccess_counts failureThreshold successThreshold hslow
    have hprobe := (h _ hok).last ht (1, none) hcounted
    cases hprobe
  · intro hslow evs hok
    refine Run.Throughout.mono (P := fun s =>
      Dated s ∧ ProbesDecide s ∧ s.slowCallThreshold < s.breaker.timeout) (fun _ h => h.2.1) ?_
    refine Run.throughout_of_invariant ?_ ?_ hok
    · rintro s ev t ⟨hs, hprobes, hslow⟩ hok h
      exact probesDecide_step hs hprobes hslow hok h
    · have hnone : ∀ c ∈ (Callers.start failureThreshold successThreshold timeout
          slowCallThreshold).calls, False := by simp [Callers.start]
      refine ⟨⟨fun c hc => (hnone c hc).elim, ?_, ?_⟩, ?_, hslow⟩
      · simp [Callers.start, fresh]
      · simp [Callers.start, fresh]
      · simp [ProbesDecide, Callers.start]

/-- With a timeout of ten seconds, the success of a call that began before the outage counts
as that of a probe. -/
theorem late_success_is_counted :
    Run.Along step CallsInTime (.start 5 3 10 15) (lateSuccess 5 10) ∧
      ¬ Run.Throughout step ProbesDecide (.start 5 3 10 15) (lateSuccess 5 10) := by
  have hslow : ¬ (15 : ℚ) < (10 : ℕ) := by norm_num
  obtain ⟨hok, t, ht, hcounted⟩ := lateSuccess_counts 5 3 hslow
  refine ⟨hok, fun h => ?_⟩
  have hprobe := h.last ht (1, none) hcounted
  cases hprobe

end Callers
end CircuitBreaker
end AgentSwarm
