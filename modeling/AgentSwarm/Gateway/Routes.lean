import AgentSwarm.Adapters.AdapterManager
import AgentSwarm.Gateway.ThinInvoke
import AgentSwarm.Registry.SkillIndex

/-!
# The agents' routes of the gateway

An agent registers, sends heartbeats and deregisters at the gateway, and is invoked
through it.  The registry keeps its record, in Redis; the adapter manager keeps its
adapter, in the process, under the same id.

* `AgentRegistration`, `buildAdapterInfo` — a registration, and the settings in it.
* `State` — the two stores, the breakers of the thin invokes, and the latest accepted
  registration under every id.
* `registerAgent`, `heartbeat`, `deregisterAgent`, `invokeAgent` — the routes.
* `reached` — the adapter that a thin invoke calls; `thinInvoke_returns` and
  `thinInvoke_of_unreached` say that it is.
* `step` — a request, the passing of time, or a sweep of the registry.

Requests are served one after another.  The rollback of `register_agent` is left out:
`AdapterManager.register` does not fail.
-/

namespace AgentSwarm
namespace Gateway

open Adapters (AgentBackend createAdapter)

/-- `HTTPException`. -/
structure HTTPException where
  statusCode : ℕ
  detail : String
  deriving DecidableEq

/-- `AgentRegistration`.  `extra` are the fields besides those declared.  `instanceId` is
no field: it is what `uuid4` gives for the record of this registration. -/
structure AgentRegistration where
  name : String
  endpoint : String
  instanceId : String
  protocol : String := "http"
  skills : List String := []
  heartbeatInterval : ℤ := 10
  extra : JsonObj := []

/-- `ADAPTER_PROTOCOLS`. -/
def adapterProtocols : List String := ["openai", "cli", "mcp", "a2a"]

/-- `KNOWN_PROTOCOLS`. -/
def knownProtocols : List String := adapterProtocols ++ ["http"]

/-- `DEFAULT_HEARTBEAT_INTERVAL`. -/
def defaultHeartbeatInterval : ℤ := 10

/-- `_build_adapter_info`. -/
def buildAdapterInfo (body : AgentRegistration) : JsonObj :=
  let extra := body.extra.filter fun item =>
    item.1 ∉ ["name", "endpoint", "protocol", "skills", "heartbeat_interval"]
  let info : JsonObj := ("protocol", .str body.protocol) :: extra
  if body.protocol = "openai" ∨ body.protocol = "a2a" then
    info.setDefault "base_url" (.str body.endpoint)
  else if body.protocol = "cli" then
    (info.setDefault "command" (.str body.endpoint)).setDefault "args" (.arr [])
  else if body.protocol = "mcp" then
    info.setDefault "server_url" (.str body.endpoint)
  else info

/-- `agent_data`. -/
def AgentRegistration.agentData (body : AgentRegistration) : Registry.AgentData where
  name := body.name
  endpoint := body.endpoint
  instanceId := body.instanceId
  protocol := some body.protocol
  skills := some body.skills

/-- The two stores, and the breakers of the thin invokes. -/
structure State where
  redis : Registry.Redis
  now : ℕ
  adapters : Dict String AgentBackend := []
  invokeBreakers : Dict String CircuitBreaker := []
  /-- The latest registration under an id that was accepted. -/
  latest : Dict String AgentRegistration := []

/-- The process has started, on what Redis holds. -/
def State.start (redis : Registry.Redis) (now : ℕ) : State where
  redis := redis
  now := now

/-! ## Routes -/

/-- `RegistrationResponse`. -/
structure RegistrationResponse where
  agentId : String
  heartbeatInterval : ℤ
  status : String

/-- `HeartbeatResponse`. -/
structure HeartbeatResponse where
  status : String
  nextHeartbeatIn : ℤ

/-- `DeregisterResponse`. -/
structure DeregisterResponse where
  status : String

variable (cfg : Registry.Config)

/-- The id that an endpoint is registered under. -/
def agentIdOf (r : Registry.Redis) (endpoint newId : String) : String :=
  (r.endpointIndex.read endpoint).getD newId

/-- The adapter that a registration brings, if its protocol has one. -/
def adapterFor (body : AgentRegistration) : Except HTTPException (Option AgentBackend) :=
  if body.protocol ∈ adapterProtocols then
    match createAdapter (buildAdapterInfo body) with
    | .ok adapter => .ok (some adapter)
    | .error (.valueError e) => .error ⟨400, "Invalid adapter config: " ++ e⟩
    | .error _ => .error ⟨500, "Internal Server Error"⟩
  else .ok none

/-- `register_agent`.  `newId` is what `uuid4` gives it. -/
def registerAgent (s : State) (body : AgentRegistration) (newId : String) :
    Except HTTPException RegistrationResponse × State :=
  if body.protocol ∉ knownProtocols then
    (.error ⟨400, "Unknown protocol '" ++ body.protocol ++ "'. Supported: " ++
      ", ".intercalate knownProtocols⟩, s)
  else
    match adapterFor body with
    | .error e => (.error e, s)
    | .ok adapter =>
        let agentId := agentIdOf s.redis body.endpoint newId
        (.ok ⟨agentId, body.heartbeatInterval, "registered"⟩, { s with
          redis := s.redis.register cfg s.now body.agentData false newId
          adapters :=
            match adapter with
            | some adapter => s.adapters.set agentId adapter
            | none => s.adapters
          latest := s.latest.set agentId body })

/-- `heartbeat`. -/
def heartbeat (s : State) (agentId : String) : Except HTTPException HeartbeatResponse × State :=
  let renewed := (s.redis.agents.read agentId).isSome
  (if renewed then .ok ⟨"ok", defaultHeartbeatInterval⟩
    else .error ⟨404, "Agent " ++ agentId ++ " not found"⟩,
    { s with redis := s.redis.heartbeat cfg s.now agentId })

/-- `deregister_agent`. -/
def deregisterAgent (s : State) (agentId : String) :
    Except HTTPException DeregisterResponse × State :=
  match s.redis.agents.read agentId with
  | none => (.error ⟨404, "Agent " ++ agentId ++ " not found"⟩, s)
  | some _ => (.ok ⟨"deregistered"⟩, { s with redis := s.redis.deregister agentId })

variable (retryAfter : ℚ → String) (slowCallThreshold : ℚ)

/-- `_get_invoke_breaker`. -/
def State.breaker (s : State) (agentId : String) : CircuitBreaker :=
  (s.invokeBreakers.get agentId).getD {}

/-- `invoke_agent` without a session. -/
def thinInvoke (s : State) (agentId : String) (a : Attempt) : Response × State :=
  match s.adapters.get agentId with
  | none => (.httpException 404 ("No adapter for agent " ++ agentId), s)
  | some _ =>
      let (response, breaker) :=
        invokeAgent retryAfter slowCallThreshold agentId (s.breaker agentId) a
      (response, { s with invokeBreakers := s.invokeBreakers.set agentId breaker })

/-- The adapter that a thin invoke calls. -/
def reached (s : State) (agentId : String) (a : Attempt) : Option AgentBackend :=
  match s.adapters.get agentId with
  | none => none
  | some adapter =>
      if ((s.breaker agentId).checkState a.now).1 = .opened then none else some adapter

/-! ## Runs -/

/-- What happens next. -/
inductive Action where
  | register (body : AgentRegistration) (newId : String)
  | heartbeat (agentId : String)
  | deregister (agentId : String)
  | invoke (agentId : String) (attempt : Attempt)
  /-- Time passes, and Redis deletes what has expired. -/
  | tick (dt : ℕ)
  | healthSweep

/-- One step. -/
def step (s : State) : Action → Option State
  | .register body newId => some (registerAgent cfg s body newId).2
  | .heartbeat agentId => some (heartbeat cfg s agentId).2
  | .deregister agentId => some (deregisterAgent s agentId).2
  | .invoke agentId attempt => some (thinInvoke retryAfter slowCallThreshold s agentId attempt).2
  | .tick dt => some { s with redis := s.redis.tick (s.now + dt), now := s.now + dt }
  | .healthSweep => some { s with redis := (s.redis.healthSweep cfg s.now).2 }

variable {cfg retryAfter slowCallThreshold} {s : State} {agentId : String} {a : Attempt}

/-! ## The adapter that is called -/

/-- An adapter is reached through a breaker that is not open. -/
theorem reached_eq_some {adapter : AgentBackend} (h : reached s agentId a = some adapter) :
    s.adapters.get agentId = some adapter ∧ ((s.breaker agentId).checkState a.now).1 ≠ .opened := by
  rw [reached] at h
  split at h
  · cases h
  · rename_i backend hadapter
    split at h
    · cases h
    · rename_i hclosed
      cases h
      exact ⟨hadapter, hclosed⟩

/-- A thin invoke that reaches an adapter answers with what the adapter returns. -/
theorem thinInvoke_returns {adapter : AgentBackend} {result : Dispatcher.AgentResult}
    (hreached : reached s agentId a = some adapter) (hreturns : a.outcome = .returns result) :
    (thinInvoke retryAfter slowCallThreshold s agentId a).1 =
      .ok agentId result.success result.output result.error := by
  obtain ⟨hadapter, hclosed⟩ := reached_eq_some hreached
  rw [thinInvoke, hadapter]
  simp [invokeAgent, call, hclosed, hreturns]

/-- One that reaches none answers the same whatever the adapter would do. -/
theorem thinInvoke_of_unreached (hreached : reached s agentId a = none) (outcome : Outcome) :
    thinInvoke retryAfter slowCallThreshold s agentId { a with outcome := outcome } =
      thinInvoke retryAfter slowCallThreshold s agentId a := by
  rw [reached] at hreached
  split at hreached
  · rename_i hnone
    simp [thinInvoke, hnone]
  · rename_i backend hadapter
    split at hreached
    · rename_i hopened
      simp [thinInvoke, hadapter, invokeAgent, call, hopened]
    · cases hreached

end Gateway
end AgentSwarm
