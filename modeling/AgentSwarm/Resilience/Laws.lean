import AgentSwarm.Lib.Run
import AgentSwarm.Lib.Window
import AgentSwarm.Resilience.CircuitBreaker

/-!
# When a breaker trips, and how it recovers

A breaker keeps a trimmed list of outcomes and two numbers.  What it does is
compared here with a record of everything that was ever reported to it.

* `Call`, `CircuitBreaker.after` — a call of one method, and the breaker after it.
* `History` — a breaker, with all the outcomes since it was last `CLOSED`, all since
  it was last `HALF_OPEN`, and the time at which it was last `OPEN`.
* `TripLaw` — a closed breaker opens at a failure that is one too many among the latest
  outcomes, and at nothing else.
* `RecoveryLaw` — the ways from `OPEN` to `HALF_OPEN` and from there to `CLOSED`.
* `Windowed`, `Recovering` — what the breaker keeps of its history.
* `tripLaw_throughout`, `recoveryLaw_throughout` — the laws hold in **every run**.
-/

namespace AgentSwarm
namespace CircuitBreaker

/-- `allow`. -/
def allow (b : CircuitBreaker) (now : ℚ) : Bool × CircuitBreaker :=
  let (state, b) := b.checkState now
  (state != .opened, b)

/-- A call of a method, with the clock readings that it makes. -/
inductive Call where
  | recordSuccess (now : ℚ)
  | recordFailure (now opened : ℚ)
  | state (now : ℚ)
  | allow (now : ℚ)
  | reset (now : ℚ)

/-- The breaker after a call. -/
def after (b : CircuitBreaker) : Call → CircuitBreaker
  | .recordSuccess now => b.recordSuccess now
  | .recordFailure now opened => b.recordFailure now opened
  | .state now => (b.checkState now).2
  | .allow now => (b.allow now).2
  | .reset now => b.reset now

/-- The outcome that a call reports. -/
def Call.outcome : Call → Option Bool
  | .recordSuccess _ => some true
  | .recordFailure _ _ => some false
  | _ => none

/-- The time at which a call checks whether the timeout has run out. -/
def Call.checked : Call → Option ℚ
  | .state now => some now
  | .allow now => some now
  | _ => none

/-- The reading that a call makes last. -/
def Call.time : Call → ℚ
  | .recordSuccess now => now
  | .recordFailure _ opened => opened
  | .state now => now
  | .allow now => now
  | .reset now => now

def Call.isReset : Call → Bool
  | .reset _ => true
  | _ => false

/-! ## The whole history -/

/-- A breaker, and what it would know if it forgot nothing. -/
structure History where
  breaker : CircuitBreaker
  /-- The outcomes since it last became `CLOSED`: when it was built, by recovery, or by
  `reset`. -/
  sinceClosed : List Bool := []
  /-- The outcomes since it last became `HALF_OPEN`. -/
  sinceHalfOpen : List Bool := []
  /-- When it last became `OPEN`. -/
  lastOpened : Option ℚ := none

namespace History

/-- One call more. -/
def next (h : History) (c : Call) : History :=
  let b := h.breaker.after c
  { breaker := b
    sinceClosed :=
      if b.state = .closed ∧ (h.breaker.state ≠ .closed ∨ c.isReset) then []
      else h.sinceClosed ++ c.outcome.toList
    sinceHalfOpen :=
      if b.state = .halfOpen ∧ h.breaker.state ≠ .halfOpen then []
      else h.sinceHalfOpen ++ c.outcome.toList
    lastOpened :=
      if b.state = .opened ∧ h.breaker.state ≠ .opened then some c.time else h.lastOpened }

/-- Every call is possible. -/
def step (h : History) (c : Call) : Option History := some (h.next c)

end History

/-- A breaker that has just been built. -/
def fresh (failureThreshold successThreshold timeout : ℕ) : History where
  breaker := {
    failureThreshold := failureThreshold
    successThreshold := successThreshold
    timeout := timeout }

/-! ## The laws -/

/-- The call reports a failure, and with it at least `failure_threshold` of the latest
`failure_threshold + success_threshold` outcomes are failures. -/
def Trips (h : History) (c : Call) : Prop :=
  c.outcome = some false ∧
    h.breaker.failureThreshold ≤
      ((h.sinceClosed ++ [false]).rtake
        (h.breaker.failureThreshold + h.breaker.successThreshold)).count false

/-- A closed breaker opens when the history says so, and stays closed otherwise. -/
def TripLaw (h : History) (c : Call) (h' : History) : Prop :=
  h.breaker.state = .closed →
    (Trips h c → h'.breaker.state = .opened) ∧ (¬ Trips h c → h'.breaker.state = .closed)

/-- The call checks the state when `timeout` has passed since the breaker opened. -/
def Due (h : History) (c : Call) : Prop :=
  ∃ now opened, c.checked = some now ∧ h.lastOpened = some opened ∧
    h.breaker.timeout ≤ now - opened

/-- How a breaker recovers, `reset` aside. -/
structure RecoveryLaw (h : History) (c : Call) (h' : History) : Prop where
  fromOpened : h.breaker.state = .opened → c.isReset = false →
    (Due h c → h'.breaker.state = .halfOpen) ∧ (¬ Due h c → h'.breaker.state = .opened)
  /-- The call reports the last of `success_threshold` successes without a failure. -/
  fromHalfOpen : h.breaker.state = .halfOpen → c.isReset = false →
    (h'.breaker.state = .closed ↔ c.outcome = some true ∧
      h.sinceHalfOpen ++ [true] = List.replicate h.breaker.successThreshold true)
  /-- A failure reopens it and restarts the timeout. -/
  reopens : h.breaker.state = .halfOpen → c.outcome = some false →
    h'.breaker.state = .opened ∧ h'.breaker.openedAt = c.time ∧ h'.lastOpened = some c.time
  /-- An outcome that comes late counts for nothing. -/
  whileOpened : h.breaker.state = .opened → c.outcome.isSome →
    h'.breaker.state = .opened ∧ h'.breaker.openedAt = h.breaker.openedAt ∧
      h'.breaker.halfOpenSuccesses = h.breaker.halfOpenSuccesses
  idle : h'.breaker.state ≠ .halfOpen → h'.breaker.halfOpenSuccesses = 0

/-! ## One call -/

variable {b : CircuitBreaker} {h h' : History} {c : Call} {now opened : ℚ} {success : Bool}

@[simp] theorem push_state : (b.push success now).state = b.state := rfl
@[simp] theorem push_openedAt : (b.push success now).openedAt = b.openedAt := rfl
@[simp] theorem push_timeout : (b.push success now).timeout = b.timeout := rfl

@[simp] theorem push_halfOpenSuccesses :
    (b.push success now).halfOpenSuccesses = b.halfOpenSuccesses := rfl

@[simp] theorem push_failureThreshold :
    (b.push success now).failureThreshold = b.failureThreshold := rfl

@[simp] theorem push_successThreshold :
    (b.push success now).successThreshold = b.successThreshold := rfl

/-- A window of positive size slides. -/
theorem push_results (hsize : b.windowSize ≠ 0) :
    (b.push success now).results = Window.slide b.windowSize b.results (now, success) := by
  rw [push]
  dsimp only
  split
  · rfl
  · rename_i hshort
    have hle : (b.results ++ [(now, success)]).length ≤ b.windowSize := by
      rw [not_and_or, not_not, or_iff_left hsize, not_lt] at hshort
      exact hshort
    rw [Window.slide, List.rtake, Nat.sub_eq_zero_of_le hle, List.drop_zero]

/-- **Everything a call can do**, by the state before it. -/
inductive Moved (b : CircuitBreaker) (c : Call) : CircuitBreaker → Prop
  /-- A success is recorded that closes nothing. -/
  | success {now : ℚ} (hc : c.outcome = some true) (hstate : b.state ≠ .halfOpen) :
      Moved b c (b.push true now)
  | probe {now : ℚ} (hc : c.outcome = some true) (hstate : b.state = .halfOpen)
      (hmore : b.halfOpenSuccesses + 1 < b.successThreshold) :
      Moved b c { b.push true now with halfOpenSuccesses := b.halfOpenSuccesses + 1 }
  | recover (hc : c.outcome = some true) (hstate : b.state = .halfOpen)
      (henough : b.successThreshold ≤ b.halfOpenSuccesses + 1) :
      Moved b c { b with state := .closed, results := [], halfOpenSuccesses := 0 }
  /-- A failure is recorded that opens nothing. -/
  | failure {now : ℚ} (hc : c.outcome = some false) (hstate : b.state ≠ .halfOpen)
      (hfew : b.state = .closed →
        (b.push false now).countRecentFailures < b.failureThreshold) :
      Moved b c (b.push false now)
  | trip {now : ℚ} (hc : c.outcome = some false)
      (hstate : b.state = .halfOpen ∨ b.state = .closed ∧
        b.failureThreshold ≤ (b.push false now).countRecentFailures) :
      Moved b c { b.push false now with state := .opened, openedAt := c.time, halfOpenSuccesses := 0 }
  | halfOpen {now : ℚ} (hc : c.checked = some now) (hstate : b.state = .opened)
      (hdue : b.timeout ≤ now - b.openedAt) :
      Moved b c { b with state := .halfOpen, halfOpenSuccesses := 0 }
  | stays {now : ℚ} (hc : c.checked = some now)
      (hnot : b.state = .opened → ¬ b.timeout ≤ now - b.openedAt) : Moved b c b
  | reset (hc : c.isReset = true) :
      Moved b c { b with state := .closed, results := [], halfOpenSuccesses := 0 }

theorem checkState_moved (hc : c.checked = some now) : Moved b c (b.checkState now).2 := by
  rw [checkState]
  dsimp only
  split
  · rename_i hdue
    exact .halfOpen hc hdue.1 hdue.2
  · rename_i hnot
    exact .stays hc fun hstate hdue => hnot ⟨hstate, hdue⟩

theorem after_moved (b : CircuitBreaker) (c : Call) : Moved b c (b.after c) := by
  cases c with
  | recordSuccess now =>
      rw [after, recordSuccess]
      dsimp only
      split
      · rename_i hstate
        split
        · exact .recover rfl hstate ‹_›
        · exact .probe rfl hstate (not_le.1 ‹_›)
      · exact .success rfl ‹_›
  | recordFailure now opened =>
      rw [after, recordFailure]
      split
      · exact .trip rfl (.inl ‹_›)
      · rename_i hstate
        split
        · exact .trip rfl (.inr ⟨hstate, ‹_›⟩)
        · refine .failure rfl ?_ fun _ => not_le.1 ‹_›
          rw [push_state] at hstate
          simp [hstate]
      · rename_i hstate
        rw [push_state] at hstate
        exact .failure rfl (by simp [hstate]) (by simp [hstate])
  | state now => exact checkState_moved rfl
  | allow now => exact checkState_moved rfl
  | reset now => exact .reset rfl

theorem isReset_of_outcome (hc : c.outcome = some success) : c.isReset = false := by
  cases c <;> first | rfl | cases hc

theorem isReset_of_checked (hc : c.checked = some now) : c.isReset = false := by
  cases c <;> first | rfl | cases hc

theorem outcome_of_checked (hc : c.checked = some now) : c.outcome = none := by
  cases c <;> first | rfl | cases hc

theorem outcome_of_isReset (hc : c.isReset = true) : c.outcome = none := by
  cases c <;> first | rfl | cases hc

theorem after_thresholds (b : CircuitBreaker) (c : Call) :
    (b.after c).failureThreshold = b.failureThreshold ∧
      (b.after c).successThreshold = b.successThreshold ∧ (b.after c).timeout = b.timeout := by
  have hmoved := after_moved b c
  generalize b.after c = b' at hmoved
  cases hmoved <;> exact ⟨rfl, rfl, rfl⟩

/-! ## The trip law -/

/-- The window of a closed breaker is the end of the outcomes since it was closed. -/
def Windowed (h : History) : Prop :=
  h.breaker.state = .closed → h.breaker.windowSize ≠ 0 →
    h.breaker.results.map Prod.snd = h.sinceClosed.rtake h.breaker.windowSize

theorem push_outcomes (hw : Windowed h) (hstate : h.breaker.state = .closed)
    (hsize : h.breaker.windowSize ≠ 0) (success : Bool) (now : ℚ) :
    (h.breaker.push success now).results.map Prod.snd =
      (h.sinceClosed ++ [success]).rtake h.breaker.windowSize := by
  rw [push_results hsize, Window.slide, Window.map_rtake, List.map_append, hw hstate hsize]
  exact Window.slide_rtake _ _ _

/-- The failures the breaker counts are those among the latest outcomes. -/
theorem countRecentFailures_push (hw : Windowed h) (hstate : h.breaker.state = .closed)
    (hsize : h.breaker.windowSize ≠ 0) (now : ℚ) :
    (h.breaker.push false now).countRecentFailures =
      ((h.sinceClosed ++ [false]).rtake h.breaker.windowSize).count false := by
  rw [← push_outcomes hw hstate hsize false now, List.count_eq_countP, List.countP_map,
    countRecentFailures]
  refine List.countP_congr fun r _ => ?_
  cases hr : r.2 <;> simp [hr]

theorem trips_iff (hw : Windowed h) (hstate : h.breaker.state = .closed) (now : ℚ) :
    h.breaker.failureThreshold ≤ (h.breaker.push false now).countRecentFailures ↔
      h.breaker.failureThreshold ≤
        ((h.sinceClosed ++ [false]).rtake
          (h.breaker.failureThreshold + h.breaker.successThreshold)).count false := by
  by_cases hsize : h.breaker.windowSize = 0
  · -- a threshold of zero is always reached
    have hzero : h.breaker.failureThreshold = 0 := by
      rw [windowSize] at hsize
      omega
    rw [hzero]
    exact iff_of_true (Nat.zero_le _) (Nat.zero_le _)
  · rw [countRecentFailures_push hw hstate hsize]
    rfl

theorem windowed_next (hw : Windowed h) (c : Call) : Windowed (h.next c) := by
  intro hclosed hsize
  have hmoved := after_moved h.breaker c
  simp only [History.next] at hclosed hsize ⊢
  generalize h.breaker.after c = b' at hmoved hclosed hsize ⊢
  cases hmoved with
  | success hc _ =>
      have hstate : h.breaker.state = .closed := hclosed
      simp only [push_state, hstate, isReset_of_outcome hc, hc]
      exact push_outcomes hw hstate hsize true _
  | probe hc hstate hmore =>
      rw [push_state, hstate] at hclosed
      cases hclosed
  | recover hc hstate henough => simp [hstate]
  | failure hc _ _ =>
      have hstate : h.breaker.state = .closed := hclosed
      simp only [push_state, hstate, isReset_of_outcome hc, hc]
      exact push_outcomes hw hstate hsize false _
  | trip hc hstate => cases hclosed
  | halfOpen hc hstate hdue => cases hclosed
  | stays hc hnot =>
      simp only [hclosed, isReset_of_checked hc, outcome_of_checked hc]
      simpa using hw hclosed hsize
  | reset hc => simp [hc]

theorem tripLaw_next (hw : Windowed h) (c : Call) : TripLaw h c (h.next c) := by
  intro hstate
  have hmoved := after_moved h.breaker c
  simp only [History.next, Trips]
  generalize h.breaker.after c = b' at hmoved ⊢
  cases hmoved with
  | success hc _ => exact ⟨fun ht => by simp [hc] at ht, fun _ => hstate⟩
  | probe hc hhalf hmore => simp [hstate] at hhalf
  | recover hc hhalf henough => simp [hstate] at hhalf
  | failure hc _ hfew =>
      refine ⟨fun ht => ?_, fun _ => hstate⟩
      exact absurd ((trips_iff hw hstate _).2 ht.2) (not_le.2 (hfew hstate))
  | trip hc hwhy =>
      refine ⟨fun _ => rfl, fun ht => absurd ⟨hc, ?_⟩ ht⟩
      rcases hwhy with hhalf | ⟨-, hmany⟩
      · rw [hstate] at hhalf
        cases hhalf
      · exact (trips_iff hw hstate _).1 hmany
  | halfOpen hc hopened hdue => simp [hstate] at hopened
  | stays hc hnot => exact ⟨fun ht => by simp [outcome_of_checked hc] at ht, fun _ => hstate⟩
  | reset hc => exact ⟨fun ht => by simp [outcome_of_isReset hc] at ht, fun _ => rfl⟩

/-- **The trip law.**  In every run a closed breaker opens at the first failure that makes
`failure_threshold` failures among the latest outcomes since it became closed, and in no
other way. -/
theorem tripLaw_throughout (failureThreshold successThreshold timeout : ℕ) (calls : List Call) :
    Run.Obeys History.step TripLaw (fresh failureThreshold successThreshold timeout) calls := by
  have hfresh : Windowed (fresh failureThreshold successThreshold timeout) := by
    simp [Windowed, fresh]
  refine Run.obeys_of_preserved (I := Windowed) ?_ ?_ hfresh calls
  · rintro h c _ hw ⟨⟩
    exact windowed_next hw c
  · rintro h c _ hw ⟨⟩
    exact tripLaw_next hw c

/-! ## The recovery law -/

/-- What the breaker keeps of its way back. -/
structure Recovering (h : History) : Prop where
  probes : h.breaker.state = .halfOpen →
    h.sinceHalfOpen = List.replicate h.breaker.halfOpenSuccesses true ∧
      h.breaker.halfOpenSuccesses < h.breaker.successThreshold
  idle : h.breaker.state ≠ .halfOpen → h.breaker.halfOpenSuccesses = 0
  opened : h.breaker.state = .opened → h.lastOpened = some h.breaker.openedAt
  positive : 0 < h.breaker.successThreshold

theorem due_iff (hr : Recovering h) (hstate : h.breaker.state = .opened) :
    Due h c ↔ ∃ now, c.checked = some now ∧ h.breaker.timeout ≤ now - h.breaker.openedAt := by
  simp [Due, hr.opened hstate]

theorem recovering_next (hr : Recovering h) (c : Call) : Recovering (h.next c) := by
  have hmoved := after_moved h.breaker c
  simp only [History.next]
  generalize h.breaker.after c = b' at hmoved ⊢
  cases hmoved with
  | success hc hstate =>
      refine ⟨fun hhalf => absurd hhalf hstate, hr.idle, fun hopened => ?_, hr.positive⟩
      simpa [show h.breaker.state = .opened from hopened] using hr.opened hopened
  | probe hc hstate hmore =>
      refine ⟨fun _ => ?_, fun hne => absurd hstate hne, fun hopened => ?_, hr.positive⟩
      · simp only [push_state, hstate, hc, (hr.probes hstate).1]
        exact ⟨by simp [List.replicate_succ'], hmore⟩
      · simp [hstate] at hopened
  | recover hc hstate henough => exact ⟨by simp, fun _ => rfl, by simp, hr.positive⟩
  | failure hc hstate hfew =>
      refine ⟨fun hhalf => absurd hhalf hstate, hr.idle, fun hopened => ?_, hr.positive⟩
      simpa [show h.breaker.state = .opened from hopened] using hr.opened hopened
  | trip hc hstate =>
      have hne : h.breaker.state ≠ .opened := by
        rcases hstate with hstate | ⟨hstate, -⟩ <;> simp [hstate]
      exact ⟨by simp, fun _ => rfl, fun _ => by simp [hne], hr.positive⟩
  | halfOpen hc hstate hdue =>
      exact ⟨fun _ => ⟨by simp [hstate], hr.positive⟩, by simp, by simp, hr.positive⟩
  | stays hc hnot =>
      refine ⟨fun hhalf => ?_, hr.idle, fun hopened => ?_, hr.positive⟩
      · simpa [hhalf, outcome_of_checked hc] using hr.probes hhalf
      · simpa [hopened] using hr.opened hopened
  | reset hc => exact ⟨by simp, fun _ => rfl, by simp, hr.positive⟩

theorem fromOpened_next (hr : Recovering h) (hopened : h.breaker.state = .opened)
    (hreset : c.isReset = false) :
    (Due h c → (h.next c).breaker.state = .halfOpen) ∧
      (¬ Due h c → (h.next c).breaker.state = .opened) := by
  rw [due_iff hr hopened]
  have hmoved := after_moved h.breaker c
  simp only [History.next]
  generalize h.breaker.after c = b' at hmoved ⊢
  have hrecords {o : Bool} (ho : c.outcome = some o) :
      ¬ ∃ now, c.checked = some now ∧ h.breaker.timeout ≤ now - h.breaker.openedAt := by
    rintro ⟨now, hnow, -⟩
    rw [outcome_of_checked hnow] at ho
    cases ho
  cases hmoved with
  | success hc hstate => exact ⟨fun hdue => absurd hdue (hrecords hc), fun _ => hopened⟩
  | probe hc hstate hmore => simp [hopened] at hstate
  | recover hc hstate henough => simp [hopened] at hstate
  | failure hc hstate hfew => exact ⟨fun hdue => absurd hdue (hrecords hc), fun _ => hopened⟩
  | trip hc hstate => simp [hopened] at hstate
  | halfOpen hc hstate hdue => exact ⟨fun _ => rfl, fun hnot => absurd ⟨_, hc, hdue⟩ hnot⟩
  | stays hc hnot =>
      refine ⟨?_, fun _ => hopened⟩
      rintro ⟨now, hnow, hdue⟩
      rw [hc, Option.some.injEq] at hnow
      exact absurd (hnow ▸ hdue) (hnot hopened)
  | reset hc => simp [hreset] at hc

/-- `success_threshold` successes, counted. -/
theorem append_eq_replicate_iff {n k : ℕ} :
    List.replicate n true ++ [true] = List.replicate k true ↔ n + 1 = k := by
  rw [← List.replicate_succ']
  exact List.replicate_left_inj.trans (by simp)

theorem fromHalfOpen_next (hr : Recovering h) (hhalf : h.breaker.state = .halfOpen)
    (hreset : c.isReset = false) :
    (h.next c).breaker.state = .closed ↔ c.outcome = some true ∧
      h.sinceHalfOpen ++ [true] = List.replicate h.breaker.successThreshold true := by
  obtain ⟨hprobes, hless⟩ := hr.probes hhalf
  rw [hprobes, append_eq_replicate_iff]
  have hmoved := after_moved h.breaker c
  simp only [History.next]
  generalize h.breaker.after c = b' at hmoved ⊢
  cases hmoved with
  | success hc hstate => exact absurd hhalf hstate
  | probe hc hstate hmore => simp [hstate, hmore.ne]
  | recover hc hstate henough => simp [hc, le_antisymm hless henough]
  | failure hc hstate hfew => exact absurd hhalf hstate
  | trip hc hstate => simp [hc]
  | halfOpen hc hstate hdue => simp [hhalf] at hstate
  | stays hc hnot => simp [hhalf, outcome_of_checked hc]
  | reset hc => simp [hreset] at hc

theorem reopens_next (hhalf : h.breaker.state = .halfOpen) (hfailed : c.outcome = some false) :
    (h.next c).breaker.state = .opened ∧ (h.next c).breaker.openedAt = c.time ∧
      (h.next c).lastOpened = some c.time := by
  have hmoved := after_moved h.breaker c
  simp only [History.next]
  generalize h.breaker.after c = b' at hmoved ⊢
  cases hmoved with
  | trip hc hstate => simp [hhalf]
  | failure hc hstate hfew => exact absurd hhalf hstate
  | success hc hstate => exact absurd hhalf hstate
  | probe hc hstate hmore => simp [hfailed] at hc
  | recover hc hstate henough => simp [hfailed] at hc
  | halfOpen hc hstate hdue => simp [hhalf] at hstate
  | stays hc hnot => simp [outcome_of_checked hc] at hfailed
  | reset hc => simp [outcome_of_isReset hc] at hfailed

theorem whileOpened_next (hopened : h.breaker.state = .opened) (hsome : c.outcome.isSome) :
    (h.next c).breaker.state = .opened ∧ (h.next c).breaker.openedAt = h.breaker.openedAt ∧
      (h.next c).breaker.halfOpenSuccesses = h.breaker.halfOpenSuccesses := by
  have hmoved := after_moved h.breaker c
  simp only [History.next]
  generalize h.breaker.after c = b' at hmoved ⊢
  cases hmoved with
  | success hc hstate => exact ⟨hopened, rfl, rfl⟩
  | failure hc hstate hfew => exact ⟨hopened, rfl, rfl⟩
  | probe hc hstate hmore => simp [hopened] at hstate
  | recover hc hstate henough => simp [hopened] at hstate
  | trip hc hstate => simp [hopened] at hstate
  | halfOpen hc hstate hdue => simp [outcome_of_checked hc] at hsome
  | stays hc hnot => simp [outcome_of_checked hc] at hsome
  | reset hc => simp [outcome_of_isReset hc] at hsome

theorem recoveryLaw_next (hr : Recovering h) (c : Call) : RecoveryLaw h c (h.next c) where
  fromOpened := fromOpened_next hr
  fromHalfOpen := fromHalfOpen_next hr
  reopens := reopens_next
  whileOpened := whileOpened_next
  idle := (recovering_next hr c).idle

/-- **The recovery law**, in every run. -/
theorem recoveryLaw_throughout (failureThreshold successThreshold timeout : ℕ)
    (hpos : 1 ≤ successThreshold) (calls : List Call) :
    Run.Obeys History.step RecoveryLaw (fresh failureThreshold successThreshold timeout) calls := by
  have hfresh : Recovering (fresh failureThreshold successThreshold timeout) := by
    refine ⟨?_, ?_, ?_, hpos⟩ <;> simp [fresh]
  refine Run.obeys_of_preserved (I := Recovering) ?_ ?_ hfresh calls
  · rintro h c _ hr ⟨⟩
    exact recovering_next hr c
  · rintro h c _ hr ⟨⟩
    exact recoveryLaw_next hr c

/-- A breaker that trips at its first failure, is checked when its timeout of thirty
seconds is over, and recovers with its first success. -/
theorem recoveryLaw_one_success :
    Run.Obeys History.step RecoveryLaw (fresh 1 1 30)
      [.recordFailure 0 0, .allow 30, .recordSuccess 31] :=
  recoveryLaw_throughout 1 1 30 le_rfl _

end CircuitBreaker
end AgentSwarm
