import Mathlib.Data.Rat.Init
import AgentSwarm.Common.Json

/-!
# Targets, requests, attempts, results

The dataclasses the dispatcher and its backends exchange, and what a backend may
do when it is called.

* `DispatchTarget`, `DispatchRequest`, `DispatchAttempt`, `DispatchResult`.
* `Exn` — an exception, by the branch of an `except` clause it takes.
* `Invoke` — the behaviour of one `invoke` under a timeout.
* `Backend` — the three methods of a backend.  What a method does may depend on
  the moment it is called at.
-/

namespace AgentSwarm
namespace Dispatcher

/-- `TargetKind`. -/
inductive TargetKind where
  | docker
  | external
  deriving DecidableEq

/-- A candidate for a request. -/
structure DispatchTarget where
  kind : TargetKind
  agentType : String
  agentId : Option String := none
  endpoint : Option String := none
  deriving DecidableEq

/-- A request.  `streaming` tells whether it has a progress callback. -/
structure DispatchRequest where
  agentType : String
  task : String
  context : JsonObj := []
  timeout : Option ℚ := none
  streaming : Bool := false
  agentId : Option String := none

/-- The outcome of trying one candidate. -/
structure DispatchAttempt where
  target : DispatchTarget
  success : Bool
  output : String := ""
  error : Option String := none
  deriving DecidableEq

/-- The outcome of a dispatch. -/
structure DispatchResult where
  success : Bool
  output : String := ""
  artifacts : List String := []
  error : Option String := none
  target : Option DispatchTarget := none
  attempts : List DispatchAttempt := []
  degraded : Bool := false
  deriving DecidableEq

/-- An `Exception`, with its text. -/
inductive Exn where
  | timeoutError (text : String)
  | circuitOpenError (text : String)
  | other (text : String)
  deriving DecidableEq

/-- `str(e)`. -/
def Exn.text : Exn → String
  | .timeoutError text => text
  | .circuitOpenError text => text
  | .other text => text

/-- How a coroutine ends that is cancelled when its timeout runs out. -/
inductive OnCancel where
  /-- The `CancelledError` leaves it. -/
  | cancelled
  /-- It raises another exception while it is cancelled. -/
  | raises (e : Exn)
  /-- It suppresses the cancellation and returns. -/
  | returns (attempt : DispatchAttempt)

/-- What one call of `invoke` does. -/
inductive Invoke where
  | returns (attempt : DispatchAttempt)
  | raises (e : Exn)
  | outlives (onCancel : OnCancel)

/-- A backend.  The first argument of a method is the moment of the call. -/
structure Backend where
  candidates : ℕ → String → Option String → Except Exn (List DispatchTarget)
  healthCheck : ℕ → DispatchTarget → Except Exn Bool
  invoke : ℕ → DispatchTarget → DispatchRequest → Invoke

/-- `s or default`, for an optional text. -/
def orElse (s : Option String) (default : String) : String :=
  match s with
  | some s => if s = "" then default else s
  | none => default

end Dispatcher
end AgentSwarm
