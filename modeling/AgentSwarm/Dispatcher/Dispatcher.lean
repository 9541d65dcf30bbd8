import AgentSwarm.Dispatcher.ResultCache
import AgentSwarm.Resilience.CircuitBreaker

/-!
# The dispatcher

`Dispatcher.dispatch` resolves the candidates of a request across the backends,
drops the unhealthy ones, and tries the rest in order until one succeeds.

* `Env` — the clock, and the texts Python gives to floats and hashes.
* `Disp` — a dispatcher: its configuration, its breakers and its cache.
* `resolve`, `filterHealthy` — the candidates that are left.
* `tryOne` — one candidate, under its breaker and its timeout.
* `tryAll`, `doDispatch` — the loop over the candidates and what follows it.

An exception that leaves a method is the value `Except.error` of its model.
The semaphore is left out, as no value depends on it, and so are the metrics.
-/

namespace AgentSwarm
namespace Dispatcher

/-- `DispatcherConfig`, less the cap on concurrent dispatches. -/
structure DispatcherConfig where
  maxRetries : ℕ := 2
  dispatchTimeout : ℚ := 300
  healthPrecheck : Bool := true

/-- The surroundings: the value of the `n`-th clock reading, `str` of a float and
`str(hash(s))` of a string. -/
structure Env where
  clock : ℕ → ℚ
  floatStr : ℚ → String
  hash : String → String

/-- A breaker is kept under the kind and the name of its target. -/
abbrev BreakerKey := TargetKind × String

/-- A dispatcher.  `reads` counts the clock readings made so far; it is also
the moment at which a backend is called. -/
structure Disp where
  config : DispatcherConfig
  breakers : Dict BreakerKey CircuitBreaker
  resultCache : Option ResultCache
  reads : ℕ

/-- A candidate, with the backend it came from. -/
abbrev Candidate := DispatchTarget × Backend

variable (env : Env)

/-! ## Breakers -/

/-- `_breaker_key`. -/
def breakerKey (target : DispatchTarget) : BreakerKey :=
  (target.kind, orElse target.agentId target.agentType)

/-- `_get_breaker`: the breaker of the target, a new one if it has none yet. -/
def Disp.getBreaker (d : Disp) (target : DispatchTarget) : CircuitBreaker :=
  (d.breakers.get (breakerKey target)).getD {}

/-- The breaker of the target, after one of its methods made `reads` readings. -/
def Disp.setBreaker (d : Disp) (target : DispatchTarget) (breaker : CircuitBreaker)
    (reads : ℕ) : Disp :=
  { d with
    breakers := d.breakers.set (breakerKey target) breaker
    reads := d.reads + reads }

/-- `(await self._get_breaker(target)).state()`. -/
def Disp.checkState (d : Disp) (target : DispatchTarget) : CircuitState × Disp :=
  let (state, breaker) := (d.getBreaker target).checkState (env.clock d.reads)
  (state, d.setBreaker target breaker 1)

/-- `breaker.record_success()`. -/
def Disp.recordSuccess (d : Disp) (target : DispatchTarget) : Disp :=
  d.setBreaker target ((d.getBreaker target).recordSuccess (env.clock d.reads)) 1

/-- `breaker.record_failure()`. -/
def Disp.recordFailure (d : Disp) (target : DispatchTarget) : Disp :=
  d.setBreaker target
    ((d.getBreaker target).recordFailure (env.clock d.reads) (env.clock (d.reads + 1))) 2

/-- The outcome an attempt has is recorded on its breaker. -/
def Disp.record (d : Disp) (target : DispatchTarget) (success : Bool) : Disp :=
  if success then d.recordSuccess env target else d.recordFailure env target

/-! ## Candidates -/

/-- `_resolve`: a backend whose `candidates` raises contributes none. -/
def resolve (moment : ℕ) (request : DispatchRequest) : List Backend → List Candidate
  | [] => []
  | backend :: backends =>
      match backend.candidates moment request.agentType request.agentId with
      | .error _ => resolve moment request backends
      | .ok cands => cands.map (·, backend) ++ resolve moment request backends

/-- `_filter_healthy`: a candidate stays whose circuit is not open and whose
health check returns true. -/
def filterHealthy (d : Disp) : List Candidate → List Candidate × Disp
  | [] => ([], d)
  | (target, backend) :: pairs =>
      match d.checkState env target with
      | (.opened, d) => filterHealthy d pairs
      | (_, d) =>
          match backend.healthCheck d.reads target with
          | .ok true =>
              let (healthy, d) := filterHealthy d pairs
              ((target, backend) :: healthy, d)
          | _ => filterHealthy d pairs

/-- The candidates that are tried: resolved, and filtered when the health check
is on. -/
def select (d : Disp) (backends : List Backend) (request : DispatchRequest) :
    List Candidate × Disp :=
  let pairs := resolve d.reads request backends
  if d.config.healthPrecheck then filterHealthy env d pairs else (pairs, d)

/-! ## One candidate -/

/-- `await asyncio.wait_for(invoke_task, timeout)`.  When the time is up the task
is cancelled and waited for: an exception it then raises, or a value it then
returns, is the outcome; a cancelled task gives a `TimeoutError`. -/
def Invoke.waitFor : Invoke → Except Exn DispatchAttempt
  | .returns attempt => .ok attempt
  | .raises e => .error e
  | .outlives .cancelled => .error (.timeoutError "")
  | .outlives (.raises e) => .error e
  | .outlives (.returns attempt) => .ok attempt

/-- `invoke_task.cancel()` and `await invoke_task` under `except CancelledError`,
after `wait_for` has raised.  The task has ended by then, so `cancel` does
nothing, and awaiting the task raises again what it ended with. -/
def Invoke.awaitAgain : Invoke → Except Exn Unit
  | .raises e => .error e
  | .outlives (.raises e) => .error e
  | _ => .ok ()

/-- `_try_one`. -/
def tryOne (request : DispatchRequest) (d : Disp) (target : DispatchTarget) (backend : Backend) :
    Except Exn DispatchAttempt × Disp :=
  match d.checkState env target with
  | (.opened, d) =>
      (.ok { target := target, success := false, error := some "Circuit open" }, d)
  | (_, d) =>
      let timeout := request.timeout.getD d.config.dispatchTimeout
      let invokeTask := backend.invoke d.reads target request
      match invokeTask.waitFor with
      | .error (.timeoutError _) =>
          match invokeTask.awaitAgain with
          | .error e => (.error e, d)
          | .ok _ =>
              (.ok { target := target, success := false
                     error := some ("Dispatch timed out after " ++ env.floatStr timeout ++ "s") },
                d.recordFailure env target)
      | .error (.circuitOpenError _) =>
          match invokeTask.awaitAgain with
          | .error e => (.error e, d)
          | .ok _ => (.ok { target := target, success := false, error := some "Circuit open" }, d)
      | .error e =>
          match invokeTask.awaitAgain with
          | .error e => (.error e, d)
          | .ok _ =>
              (.ok { target := target, success := false
                     error := some ("invoke error: " ++ e.text) },
                d.recordFailure env target)
      | .ok attempt => (.ok attempt, d.record env target attempt.success)

/-! ## All candidates -/

/-- What the loop over the candidates leaves: the attempts, and the target that
succeeded with its attempt. -/
structure Tries where
  attempts : List DispatchAttempt := []
  winner : Option (DispatchTarget × DispatchAttempt) := none

/-- One more attempt, made before the others. -/
def Tries.cons (attempt : DispatchAttempt) (tries : Tries) : Tries :=
  { tries with attempts := attempt :: tries.attempts }

/-- The loop over `pairs[:max_attempts]`, left at the first success. -/
def tryAll (request : DispatchRequest) (d : Disp) : List Candidate → Except Exn Tries × Disp
  | [] => (.ok {}, d)
  | (target, backend) :: pairs =>
      match tryOne env request d target backend with
      | (.error e, d) => (.error e, d)
      | (.ok attempt, d) =>
          if attempt.success then
            (.ok { attempts := [attempt], winner := some (target, attempt) }, d)
          else
            match tryAll request d pairs with
            | (.error e, d) => (.error e, d)
            | (.ok tries, d) => (.ok (tries.cons attempt), d)

/-- The key of a request in the result cache. -/
def cacheKey (request : DispatchRequest) : String :=
  ResultCache.key env.hash request.agentType request.task ""

/-- `_cached`: the cached result of the request, marked as degraded. -/
def Disp.cached (d : Disp) (request : DispatchRequest) : Option DispatchResult × Disp :=
  match d.resultCache with
  | none => (none, d)
  | some cache =>
      let (hit, cache) := cache.get (cacheKey env request) (env.clock d.reads)
      (hit.map fun cached => {
          success := true, degraded := true, output := cached.output
          artifacts := cached.artifacts, target := cached.target },
        { d with resultCache := some cache, reads := d.reads + 1 })

/-- `self._result_cache.put(…)`, when there is a cache. -/
def Disp.putCache (d : Disp) (request : DispatchRequest) (result : DispatchResult) : Disp :=
  match d.resultCache with
  | none => d
  | some cache =>
      { d with
        resultCache := some (cache.put (cacheKey env request) result (env.clock d.reads))
        reads := d.reads + 1 }

/-- The result when no candidate is left to try. -/
def noCandidates (d : Disp) (request : DispatchRequest) : DispatchResult × Disp :=
  match d.cached env request with
  | (some cached, d) => (cached, d)
  | (none, d) =>
      ({ success := false
         error := some ("No candidates for agent_type '" ++ request.agentType ++ "'") }, d)

/-- The result when every candidate failed. -/
def allFailed (d : Disp) (request : DispatchRequest) (attempts : List DispatchAttempt) :
    DispatchResult × Disp :=
  match d.cached env request with
  | (some cached, d) => ({ cached with attempts := attempts }, d)
  | (none, d) =>
      let last := attempts.getLast?
      ({ success := false
         output := (last.map DispatchAttempt.output).getD ""
         error := some (orElse (last.bind DispatchAttempt.error) "All candidates failed")
         attempts := attempts }, d)

/-- `_do_dispatch`, which is `dispatch` less its metrics. -/
def dispatch (d : Disp) (backends : List Backend) (request : DispatchRequest) :
    Except Exn DispatchResult × Disp :=
  let (pairs, d) := select env d backends request
  if pairs = [] then
    let (result, d) := noCandidates env d request
    (.ok result, d)
  else
    let maxAttempts := min pairs.length (d.config.maxRetries + 1)
    match tryAll env request d (pairs.take maxAttempts) with
    | (.error e, d) => (.error e, d)
    | (.ok { attempts := attempts, winner := some (target, attempt) }, d) =>
        let result : DispatchResult := {
          success := true, output := attempt.output, target := some target, attempts := attempts }
        (.ok result, d.putCache env request result)
    | (.ok { attempts := attempts, winner := none }, d) =>
        let (result, d) := allFailed env d request attempts
        (.ok result, d)

end Dispatcher
end AgentSwarm
