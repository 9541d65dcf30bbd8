import Mathlib.Data.Rat.Init
import Mathlib.Algebra.Order.Ring.Rat

/-!
# The circuit breaker

A breaker counts the outcomes of the calls to one target and opens when too many
of the latest ones failed.  Every method runs under the breaker's lock without
an `await` of its own, so a method is one function on the breaker; the clock
readings it makes are arguments.

* `CircuitBreaker` — the thresholds, the window of outcomes and the state.
* `checkState` — `state()`, which leaves `OPEN` once the timeout has run out.
* `recordSuccess`, `recordFailure`, `reset`.
-/

namespace AgentSwarm

/-- `CircuitState`. -/
inductive CircuitState where
  | closed
  | opened
  | halfOpen
  deriving DecidableEq, Repr

/-- A circuit breaker.  Its window holds `failureThreshold + successThreshold`
outcomes, each with the time it was recorded at. -/
structure CircuitBreaker where
  failureThreshold : ℕ := 5
  successThreshold : ℕ := 3
  timeout : ℕ := 30
  results : List (ℚ × Bool) := []
  state : CircuitState := .closed
  openedAt : ℚ := 0
  halfOpenSuccesses : ℕ := 0
  deriving DecidableEq

namespace CircuitBreaker

/-- `_window_size`. -/
def windowSize (b : CircuitBreaker) : ℕ := b.failureThreshold + b.successThreshold

/-- `_push`: record an outcome and trim the window.  The slice `[-0:]` of a
window of size zero is the whole list. -/
def push (b : CircuitBreaker) (success : Bool) (now : ℚ) : CircuitBreaker :=
  let results := b.results ++ [(now, success)]
  { b with
    results :=
      if b.windowSize < results.length ∧ b.windowSize ≠ 0 then
        results.drop (results.length - b.windowSize)
      else results }

/-- `_count_recent_failures`. -/
def countRecentFailures (b : CircuitBreaker) : ℕ := b.results.countP fun r => !r.2

/-- `_transition_to`. -/
def transitionTo (b : CircuitBreaker) (newState : CircuitState) (now : ℚ) : CircuitBreaker :=
  match newState with
  | .opened => { b with state := .opened, openedAt := now, halfOpenSuccesses := 0 }
  | .halfOpen => { b with state := .halfOpen, halfOpenSuccesses := 0 }
  | .closed => { b with state := .closed, results := [], halfOpenSuccesses := 0 }

/-- `state()`: the state, after leaving `OPEN` when `timeout` has passed. -/
def checkState (b : CircuitBreaker) (now : ℚ) : CircuitState × CircuitBreaker :=
  let b :=
    if b.state = .opened ∧ b.timeout ≤ now - b.openedAt then b.transitionTo .halfOpen now else b
  (b.state, b)

/-- `record_success`. -/
def recordSuccess (b : CircuitBreaker) (now : ℚ) : CircuitBreaker :=
  let b := b.push true now
  match b.state with
  | .halfOpen =>
      let b := { b with halfOpenSuccesses := b.halfOpenSuccesses + 1 }
      if b.successThreshold ≤ b.halfOpenSuccesses then b.transitionTo .closed now else b
  | _ => b

/-- `record_failure`.  `now` is read by `_push`, `opened` by `_transition_to`. -/
def recordFailure (b : CircuitBreaker) (now opened : ℚ) : CircuitBreaker :=
  let b := b.push false now
  match b.state with
  | .halfOpen => b.transitionTo .opened opened
  | .closed =>
      if b.failureThreshold ≤ b.countRecentFailures then b.transitionTo .opened opened else b
  | .opened => b

/-- `reset`. -/
def reset (b : CircuitBreaker) (now : ℚ) : CircuitBreaker :=
  { b with results := [], halfOpenSuccesses := 0 }.transitionTo .closed now

end CircuitBreaker
end AgentSwarm
