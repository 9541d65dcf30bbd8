import AgentSwarm.Dispatcher.Dispatcher

/-!
# The backends of production

`DockerBackend` serves an agent type from the container pool, and
`ExternalAgentBackend` serves registered agents through their adapters.  Both are
given here over a `World` that says what the registry, the adapters, the pool and
the workers do at each moment.

* `A2ATask`, `WorkerCall` — a worker's task, and what a call to a worker comes to.
* `AgentResult`, `AdapterCall`, `Adapter` — the same for an adapter.
* `AgentRecord`, `World` — what the registry returns, and everything outside.
* `dockerBackend`, `externalBackend`, `production` — the backends, and their order
  in `main`.
* `directChat` — the request `_invoke_direct_chat` builds for an agent.
* `External` — an invoke that no exception leaves, as those of `externalBackend`.
-/

namespace AgentSwarm
namespace Dispatcher

/-- `A2ATask`, as far as a dispatch reads it. -/
structure A2ATask where
  taskId : String
  state : String
  message : Option String

/-- What `DockerBackend.invoke` meets. -/
inductive WorkerCall where
  /-- `checkout` raises. -/
  | raises (e : Exn)
  | noContainer
  /-- The `try` block is over, with the last state of the worker's task, and the
  text of the exception if one has ended it. -/
  | ended (a2aTask : Option A2ATask) (error : Option String)
  /-- It is still at work when the timeout runs out; the cancellation leaves it. -/
  | outlives

/-- `AgentResult` of an adapter. -/
structure AgentResult where
  success : Bool
  output : String := ""
  error : Option String := none

/-- How a call of an adapter ends that is cancelled. -/
inductive AdapterCancel where
  | cancelled
  | raises (text : String)
  | returns (result : AgentResult)

/-- What a call of `adapter.invoke` does. -/
inductive AdapterCall where
  | returns (result : AgentResult)
  | raises (text : String)
  | outlives (onCancel : AdapterCancel)

/-- An adapter, at each moment. -/
structure Adapter where
  invoke : ℕ → DispatchRequest → AdapterCall
  healthCheck : ℕ → Except Exn Bool

/-- A record of the registry, as far as the backend reads it. -/
structure AgentRecord where
  id : Option String
  endpoint : Option String

/-- Everything outside the dispatcher, at each moment. -/
structure World where
  getAgent : ℕ → String → Except Exn (Option AgentRecord)
  findBySkill : ℕ → String → Except Exn (List AgentRecord)
  adapters : ℕ → String → Option Adapter
  worker : ℕ → DispatchTarget → DispatchRequest → WorkerCall

variable (world : World)

/-! ## Workers of the pool -/

/-- The one target of the pool. -/
def dockerTarget (agentType : String) : DispatchTarget := { kind := .docker, agentType := agentType }

/-- `DockerBackend.invoke`. -/
def dockerInvoke (moment : ℕ) (target : DispatchTarget) (request : DispatchRequest) : Invoke :=
  match world.worker moment target request with
  | .raises e => .raises e
  | .noContainer =>
      .returns { target := target, success := false
                 error := some "No idle worker container available" }
  | .ended none error =>
      .returns { target := target, success := false
                 error := some (orElse (error.map ("A2A send error: " ++ ·))
                   "Worker returned no task") }
  | .ended (some a2aTask) _ =>
      let success := a2aTask.state == "completed"
      .returns { target := target, success := success, output := orElse a2aTask.message ""
                 error := if success then none else some ("Worker task state: " ++ a2aTask.state) }
  | .outlives => .outlives .cancelled

/-- `DockerBackend`.  Its `candidates` do not look at the agent id. -/
def dockerBackend : Backend where
  candidates _ agentType _ := .ok [dockerTarget agentType]
  healthCheck _ _ := .ok true
  invoke := dockerInvoke world

/-! ## Registered agents -/

/-- The target of a registered agent. -/
def externalTarget (agentType agentId : String) (agent : AgentRecord) : DispatchTarget where
  kind := .external
  agentType := agentType
  agentId := some agentId
  endpoint := agent.endpoint

/-- The target of an agent found by its skill, if its record has an id. -/
def foundTarget (agentType : String) (agent : AgentRecord) : Option DispatchTarget :=
  match agent.id with
  | none => none
  | some id => if id = "" then none else some (externalTarget agentType id agent)

/-- `ExternalAgentBackend.candidates`, with its `except` branch. -/
def externalCandidates (moment : ℕ) (agentType : String) (agentId : Option String) :
    List DispatchTarget :=
  match agentId with
  | none => bySkill
  | some id =>
      if id = "" then bySkill
      else
        match world.getAgent moment id with
        | .ok (some agent) => [externalTarget agentType id agent]
        | _ => []
where
  bySkill : List DispatchTarget :=
    match world.findBySkill moment agentType with
    | .ok agents => agents.filterMap (foundTarget agentType)
    | .error _ => []

/-- The attempt that a result of the adapter gives. -/
def AgentResult.attempt (result : AgentResult) (target : DispatchTarget) : DispatchAttempt :=
  { target := target, success := result.success, output := result.output, error := result.error }

/-- The attempt that an exception of the adapter gives. -/
def raisedAttempt (text : String) (target : DispatchTarget) : DispatchAttempt :=
  { target := target, success := false, error := some text }

/-- `ExternalAgentBackend.invoke` with the agent's adapter. -/
def AdapterCall.invoke (call : AdapterCall) (target : DispatchTarget) : Invoke :=
  match call with
  | .returns result => .returns (result.attempt target)
  | .raises text => .returns (raisedAttempt text target)
  | .outlives .cancelled => .outlives .cancelled
  | .outlives (.raises text) => .outlives (.returns (raisedAttempt text target))
  | .outlives (.returns result) => .outlives (.returns (result.attempt target))

/-- `self.adapter_manager.get(target.agent_id)`. -/
def adapterOf (moment : ℕ) (target : DispatchTarget) : Option Adapter :=
  target.agentId.bind (world.adapters moment)

/-- `ExternalAgentBackend.invoke`. -/
def externalInvoke (moment : ℕ) (target : DispatchTarget) (request : DispatchRequest) : Invoke :=
  match adapterOf world moment target with
  | none =>
      .returns { target := target, success := false
                 error := some ("No adapter for external agent " ++ target.agentId.getD "None") }
  | some adapter => (adapter.invoke moment request).invoke target

/-- `ExternalAgentBackend.health_check`. -/
def externalHealthCheck (moment : ℕ) (target : DispatchTarget) : Bool :=
  match adapterOf world moment target with
  | none => false
  | some adapter =>
      match adapter.healthCheck moment with
      | .ok healthy => healthy
      | .error _ => false

/-- `ExternalAgentBackend`. -/
def externalBackend : Backend where
  candidates moment agentType agentId := .ok (externalCandidates world moment agentType agentId)
  healthCheck moment target := .ok (externalHealthCheck world moment target)
  invoke := externalInvoke world

/-- The backends, in the order of `main`. -/
def production : List Backend := [dockerBackend world, externalBackend world]

/-! ## The request of a direct chat -/

/-- The id of an agent in a path, which is not empty. -/
structure AgentId where
  text : String
  nonempty : text ≠ ""

/-- What `_invoke_direct_chat` reads of the agent's record. -/
structure AgentCard where
  skills : List String
  name : Option String

/-- `(agent.get("skills") or [None])[0] or agent.get("name") or agent_id`. -/
def AgentCard.agentType (card : AgentCard) (agentId : AgentId) : String :=
  orElse card.skills.head? (orElse card.name agentId.text)

/-- The request of `_invoke_direct_chat`. -/
def directChat (card : AgentCard) (agentId : AgentId) (task taskId workDir : String) :
    DispatchRequest where
  agentType := card.agentType agentId
  task := task
  context := [("task_id", .str taskId), ("tenant_id", .str "default"), ("shared_dir", .str workDir)]
  streaming := true
  agentId := some agentId.text

/-! ## What can leave an invoke -/

/-- The `except` branch leaves no exception to the caller. -/
theorem externalInvoke_ne_raises (moment : ℕ) (target : DispatchTarget)
    (request : DispatchRequest) (e : Exn) :
    externalInvoke world moment target request ≠ .raises e ∧
      externalInvoke world moment target request ≠ .outlives (.raises e) := by
  unfold externalInvoke AdapterCall.invoke
  split
  · simp
  · split <;> simp

/-- The agent has answered a call with an output, before its timeout or when it was
cancelled. -/
def Answers (moment : ℕ) (agentId : String) (request : DispatchRequest) (output : String) : Prop :=
  ∃ adapter result, world.adapters moment agentId = some adapter ∧ result.success = true ∧
    result.output = output ∧ (adapter.invoke moment request = .returns result ∨
      adapter.invoke moment request = .outlives (.returns result))

end Dispatcher
end AgentSwarm
