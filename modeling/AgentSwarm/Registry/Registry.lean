import AgentSwarm.Common.Json
import AgentSwarm.Lib.Keyspace

/-!
# The agent registry

`AgentRegistry` keeps three families of Redis keys: a record for every agent, an
index from endpoints to agent ids, and a set of agent ids for every skill.  Each
key has a deadline of its own, which the methods refresh in different ways.

* `AgentData`, `AgentRecord` — what an agent sends, and what is stored of it.
* `Redis` — the three families.
* `registerPipeline`, `heartbeatPipeline`, `deregisterPipeline` — the commands
  that one pipeline executes.
* `register`, `heartbeat`, `deregister`, `healthSweep` — the methods, run without
  anything between their commands.
* `listAgents`, `findBySkill` — the queries.

Times count the ticks of one clock, the server's and the program's.  What `uuid4`
gives is an argument, and so is the time: the id of a new agent, and with the data
of a registration the `instance_id` of its record.  The events that are published
are left out: no method reads them.
-/

namespace AgentSwarm
namespace Registry

/-- The settings of a registry.  A lifetime of zero would make `EXPIRE` delete
the key at once. -/
structure Config where
  heartbeatTtl : ℕ
  heartbeatTtl_pos : 0 < heartbeatTtl

/-- What an agent registers with.  A field that is `none` is not given.  `instanceId` is
not sent: it is what `uuid4` gives for the record. -/
structure AgentData where
  name : String
  endpoint : String
  instanceId : String
  protocol : Option String := none
  skills : Option (List String) := none
  capabilities : Option Json := none
  version : Option String := none

/-- The record of an agent. -/
structure AgentRecord where
  id : String
  name : String
  endpoint : String
  protocol : String
  skills : List String
  capabilities : Json
  version : String
  status : String
  registeredAt : ℕ
  lastHeartbeat : ℕ
  instanceId : String
  internal : Bool

/-- `agent_data["skills"]` after the defaults have been merged in. -/
def AgentData.skillList (data : AgentData) : List String := data.skills.getD []

/-- The record that `register` stores. -/
def AgentData.record (data : AgentData) (agentId : String) (now : ℕ) (internal : Bool) :
    AgentRecord where
  id := agentId
  name := data.name
  endpoint := data.endpoint
  protocol := data.protocol.getD "http"
  skills := data.skillList
  capabilities := data.capabilities.getD (.obj [])
  version := data.version.getD "0.1.0"
  status := "online"
  registeredAt := now
  lastHeartbeat := now
  instanceId := data.instanceId
  internal := internal

/-- The keys of the registry: `agent:registry:…`, `agent:endpoint_index:…` and
`skills:index:…`, each without its prefix. -/
structure Redis where
  agents : Keyspace AgentRecord
  endpointIndex : Keyspace String
  skillIndex : Keyspace (List String)

/-- A server without any key. -/
def Redis.empty : Redis := ⟨.empty, .empty, .empty⟩

/-- Time has passed. -/
def Redis.tick (r : Redis) (now : ℕ) : Redis :=
  ⟨r.agents.tick now, r.endpointIndex.tick now, r.skillIndex.tick now⟩

variable (cfg : Config)

/-! ## Pipelines -/

/-- The pipeline of `register`, executed at `now`.  Internal agents get no
deadlines; a deadline that is there already is kept by `HSET` and `SADD` and
cleared by `SET`. -/
def Redis.registerPipeline (r : Redis) (now : ℕ) (record : AgentRecord) (oldSkills : List String) :
    Redis where
  agents :=
    let agents := r.agents.write record.id record
    if record.internal then agents else agents.expire record.id (now + cfg.heartbeatTtl)
  endpointIndex :=
    let index := r.endpointIndex.overwrite record.endpoint record.id
    if record.internal then index else index.expire record.endpoint (now + cfg.heartbeatTtl)
  skillIndex :=
    (r.skillIndex.sremAll record.id oldSkills).saddAll record.id
      (if record.internal then none else some (now + cfg.heartbeatTtl * 2)) record.skills

/-- The pipeline of `heartbeat`: the record is written back, and the deadlines of
the record and of its skill sets are renewed. -/
def Redis.heartbeatPipeline (r : Redis) (now : ℕ) (agentId : String) (record : AgentRecord) :
    Redis :=
  { r with
    agents := (r.agents.write agentId record).expire agentId (now + cfg.heartbeatTtl)
    skillIndex := r.skillIndex.expireAll (now + cfg.heartbeatTtl * 2) record.skills }

/-- The pipeline of `deregister`. -/
def Redis.deregisterPipeline (r : Redis) (agentId : String) (skills : List String) : Redis :=
  { r with
    agents := r.agents.del agentId
    skillIndex := r.skillIndex.sremAll agentId skills }

/-! ## Methods -/

/-- The skills in the record of an agent, none if it has no record. -/
def Redis.skillsOf (r : Redis) (agentId : String) : List String :=
  ((r.agents.read agentId).map AgentRecord.skills).getD []

/-- `register` by an agent whose endpoint has the id `agentId`, or gets it. -/
def Redis.registerAs (r : Redis) (now : ℕ) (data : AgentData) (internal : Bool)
    (agentId : String) (oldSkills : List String) : Redis :=
  r.registerPipeline cfg now (data.record agentId now internal) oldSkills

/-- `register`: the id is that of the endpoint index, or `newId`. -/
def Redis.register (r : Redis) (now : ℕ) (data : AgentData) (internal : Bool) (newId : String) :
    Redis :=
  match r.endpointIndex.read data.endpoint with
  | some agentId => r.registerAs cfg now data internal agentId (r.skillsOf agentId)
  | none => r.registerAs cfg now data internal newId []

/-- `heartbeat`. -/
def Redis.heartbeat (r : Redis) (now : ℕ) (agentId : String) : Redis :=
  match r.agents.read agentId with
  | none => r
  | some record => r.heartbeatPipeline cfg now agentId { record with lastHeartbeat := now }

/-- `deregister`. -/
def Redis.deregister (r : Redis) (agentId : String) : Redis :=
  r.deregisterPipeline agentId (r.skillsOf agentId)

/-- `last_heartbeat or registered_at or 0`. -/
def AgentRecord.lastSeen (record : AgentRecord) : ℕ :=
  if record.lastHeartbeat ≠ 0 then record.lastHeartbeat else record.registeredAt

/-- `_is_online`. -/
def isOnline (now : ℕ) (record : AgentRecord) : Bool :=
  record.internal || now < record.lastSeen + cfg.heartbeatTtl * 2

/-- The agents whose record is there but stale. -/
def Redis.stale (r : Redis) (now : ℕ) : List String :=
  r.agents.keys.filter fun id => (r.agents.read id).any fun record => !isOnline cfg now record

/-- The members of a skill set that have no record. -/
def Redis.orphans (r : Redis) (skill : String) : List String :=
  (r.skillIndex.members skill).filter fun id => !(r.agents.read id).isSome

/-- Orphaned members are removed from the skill sets of `skills`.  The count is
that of the removed members. -/
def Redis.removeOrphans (r : Redis) : List String → ℕ × Redis
  | [] => (0, r)
  | skill :: skills =>
      let orphans := r.orphans skill
      let (swept, r) := Redis.removeOrphans
        { r with skillIndex := r.skillIndex.sremMembers skill orphans } skills
      (orphans.length + swept, r)

/-- `health_sweep`, by the number it returns and the keys it leaves. -/
def Redis.healthSweep (r : Redis) (now : ℕ) : ℕ × Redis :=
  let stale := r.stale cfg now
  let (swept, r) := Redis.removeOrphans
    { r with agents := stale.foldl (fun agents id => agents.del id) r.agents } r.skillIndex.keys
  (stale.length + swept, r)

/-! ## Queries -/

/-- `_with_status`. -/
def withStatus (now : ℕ) (record : AgentRecord) : AgentRecord :=
  { record with status := if isOnline cfg now record then "online" else "offline" }

/-- The records of the agents of a list, those online only. -/
def Redis.fetch (r : Redis) (now : ℕ) (ids : List String) : List AgentRecord :=
  ((ids.filterMap r.agents.read).map (withStatus cfg now)).filter fun record =>
    record.status = "online"

/-- `list_agents()`. -/
def Redis.listAgents (r : Redis) (now : ℕ) : List AgentRecord := r.fetch cfg now r.agents.keys

/-- `find_by_skill(skill)`. -/
def Redis.findBySkill (r : Redis) (now : ℕ) (skill : String) : List AgentRecord :=
  r.fetch cfg now (r.skillIndex.members skill)

/-! ## What the pipelines leave -/

variable {cfg} {r : Redis}

theorem read_registerPipeline (now : ℕ) (record : AgentRecord) (oldSkills : List String)
    (id : String) :
    (r.registerPipeline cfg now record oldSkills).agents.read id =
      if id = record.id then some record else r.agents.read id := by
  rw [Redis.registerPipeline]
  dsimp only
  split <;> simp [Keyspace.read_write]

theorem index_registerPipeline (now : ℕ) (record : AgentRecord) (oldSkills : List String)
    (endpoint : String) :
    (r.registerPipeline cfg now record oldSkills).endpointIndex.read endpoint =
      if endpoint = record.endpoint then some record.id else r.endpointIndex.read endpoint := by
  rw [Redis.registerPipeline]
  dsimp only
  split <;> simp [Keyspace.read_overwrite]

theorem mem_registerPipeline (now : ℕ) (record : AgentRecord) (oldSkills : List String)
    (skill id : String) :
    id ∈ (r.registerPipeline cfg now record oldSkills).skillIndex.members skill ↔
      (id ∈ r.skillIndex.members skill ∧ ¬ (skill ∈ oldSkills ∧ id = record.id)) ∨
        (skill ∈ record.skills ∧ id = record.id) := by
  rw [Redis.registerPipeline, Keyspace.mem_saddAll, Keyspace.mem_sremAll]

theorem read_heartbeatPipeline (now : ℕ) (agentId : String) (record : AgentRecord) (id : String) :
    (r.heartbeatPipeline cfg now agentId record).agents.read id =
      if id = agentId then some record else r.agents.read id := by
  simp [Redis.heartbeatPipeline, Keyspace.read_write]

theorem read_deregisterPipeline (agentId : String) (skills : List String) (id : String) :
    (r.deregisterPipeline agentId skills).agents.read id =
      if id = agentId then none else r.agents.read id :=
  Keyspace.read_del _ _ _

end Registry
end AgentSwarm
