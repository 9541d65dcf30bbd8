import Mathlib.Logic.Function.Basic
import AgentSwarm.Registry.Registry

/-!
# Concurrent calls on the registry

Between two Redis commands of one method, other calls may execute theirs and
time may pass, so a call is modelled by the place it is at, and a step executes
one command or one pipeline.

* `Call`, `Pc` — the calls, and the places between their commands.
* `Sys`, `Action`, `step` — the server with all the calls; time passes by an
  action of its own.
* `Moved`, `step_cases` — everything a step can do.
-/

namespace AgentSwarm
namespace Registry

/-- A call on the registry. -/
inductive Call where
  | register (data : AgentData) (internal : Bool)
  | heartbeat (agentId : String)
  | deregister (agentId : String)
  | healthSweep

/-- Where a call is, by what it has read so far.  `began` is the time at which
`register` was called. -/
inductive Pc where
  | start
  /-- `register` found an id in the endpoint index; before the `HGET` of the
  record it replaces. -/
  | found (agentId : String) (began : ℕ)
  /-- `register`, before its pipeline. -/
  | storing (agentId : String) (began : ℕ) (oldSkills : List String)
  /-- `heartbeat`, before its pipeline. -/
  | beating (record : AgentRecord)
  /-- `deregister`, before its pipeline. -/
  | leaving (skills : List String)
  /-- `health_sweep`, in the scan of the agent keys. -/
  | scanning (stale : List String)
  /-- `health_sweep`, between two skill sets. -/
  | pruning
  /-- `health_sweep`, in the members of one skill set. -/
  | checking (skill : String) (members orphans : List String)
  | done

/-- The server, the time, and where every call is. -/
structure Sys where
  redis : Redis
  now : ℕ
  pc : ℕ → Pc

/-- A server without keys, before any call. -/
def init : Sys := ⟨.empty, 0, fun _ => .start⟩

/-- Call `i` moves to the place `p`. -/
def Sys.goto (s : Sys) (i : ℕ) (p : Pc) : Sys := { s with pc := Function.update s.pc i p }

/-- The server after a command of call `i`, which moves to the place `p`. -/
def Sys.put (s : Sys) (redis : Redis) (i : ℕ) (p : Pc) : Sys := { s with redis := redis }.goto i p

/-- What happens next. -/
inductive Action where
  /-- Time passes. -/
  | tick (dt : ℕ)
  /-- Call `call` executes its next command.  `newId` is what `uuid4` gives it. -/
  | next (call : ℕ) (newId : String)
  /-- The sweep `call` comes to the key `key` of its scan. -/
  | visit (call : ℕ) (key : String)

/-- One step.  `prog` are the calls. -/
def step (cfg : Config) (prog : ℕ → Call) (s : Sys) : Action → Option Sys
  | .tick dt => some { s with redis := s.redis.tick (s.now + dt), now := s.now + dt }
  | .next i newId =>
      match prog i, s.pc i with
      | .register data _, .start =>
          match s.redis.endpointIndex.read data.endpoint with
          | some agentId => some (s.goto i (.found agentId s.now))
          | none => some (s.goto i (.storing newId s.now []))
      | .register _ _, .found agentId began =>
          some (s.goto i (.storing agentId began (s.redis.skillsOf agentId)))
      | .register data internal, .storing agentId began oldSkills =>
          some (s.put (s.redis.registerPipeline cfg s.now
            (data.record agentId began internal) oldSkills) i .done)
      | .heartbeat agentId, .start =>
          match s.redis.agents.read agentId with
          | none => some (s.goto i .done)
          | some record => some (s.goto i (.beating { record with lastHeartbeat := s.now }))
      | .heartbeat agentId, .beating record =>
          some (s.put (s.redis.heartbeatPipeline cfg s.now agentId record) i .done)
      | .deregister agentId, .start => some (s.goto i (.leaving (s.redis.skillsOf agentId)))
      | .deregister agentId, .leaving skills =>
          some (s.put (s.redis.deregisterPipeline agentId skills) i .done)
      | .healthSweep, .start => some (s.goto i (.scanning []))
      | .healthSweep, .scanning stale =>
          some (s.put { s.redis with
            agents := stale.foldl (fun agents id => agents.del id) s.redis.agents } i .pruning)
      | .healthSweep, .pruning => some (s.goto i .done)
      | .healthSweep, .checking skill (id :: members) orphans =>
          some (s.goto i (.checking skill members
            (if (s.redis.agents.read id).isSome then orphans else orphans ++ [id])))
      | .healthSweep, .checking skill [] orphans =>
          some (s.put { s.redis with
            skillIndex := s.redis.skillIndex.sremMembers skill orphans } i .pruning)
      | _, _ => none
  | .visit i key =>
      match prog i, s.pc i with
      | .healthSweep, .scanning stale =>
          some (s.goto i (.scanning
            (if (s.redis.agents.read key).any fun record => !isOnline cfg s.now record then
              stale ++ [key] else stale)))
      | .healthSweep, .pruning => some (s.goto i (.checking key (s.redis.skillIndex.members key) []))
      | _, _ => none

/-- The endpoint a call registers. -/
def Call.endpoint : Call → Option String
  | .register data _ => some data.endpoint
  | _ => none

/-- The id a registration under way has chosen. -/
def Pc.chosen : Pc → Option String
  | .found agentId _ => some agentId
  | .storing agentId _ _ => some agentId
  | _ => none

/-! ## Everything a step can do -/

/-- The transitions, by what they do to the records, to the endpoint index and to
the ids that registrations have chosen. -/
inductive Moved (cfg : Config) (prog : ℕ → Call) (s : Sys) : Action → Sys → Prop
  | tick {dt} : Moved cfg prog s (.tick dt)
      { s with redis := s.redis.tick (s.now + dt), now := s.now + dt }
  /-- A registration finds its endpoint in the index. -/
  | find {i newId data internal agentId} (hprog : prog i = .register data internal)
      (hpc : s.pc i = .start) (hindex : s.redis.endpointIndex.read data.endpoint = some agentId) :
      Moved cfg prog s (.next i newId) (s.goto i (.found agentId s.now))
  /-- A registration does not find it and takes a new id. -/
  | fresh {i newId data internal} (hprog : prog i = .register data internal)
      (hpc : s.pc i = .start) (hindex : s.redis.endpointIndex.read data.endpoint = none) :
      Moved cfg prog s (.next i newId) (s.goto i (.storing newId s.now []))
  /-- A registration stores its record. -/
  | store {i newId data internal agentId began oldSkills}
      (hprog : prog i = .register data internal) (hpc : s.pc i = .storing agentId began oldSkills) :
      Moved cfg prog s (.next i newId)
        (s.put (s.redis.registerPipeline cfg s.now (data.record agentId began internal) oldSkills)
          i .done)
  /-- A heartbeat writes its record back. -/
  | beat {i newId agentId record} (hprog : prog i = .heartbeat agentId)
      (hpc : s.pc i = .beating record) :
      Moved cfg prog s (.next i newId)
        (s.put (s.redis.heartbeatPipeline cfg s.now agentId record) i .done)
  /-- A command that stores no record and no index entry, by a call that chooses
  no new id. -/
  | other {a i redis p}
      (hagents : ∀ id record, redis.agents.read id = some record →
        s.redis.agents.read id = some record)
      (hindex : redis.endpointIndex = s.redis.endpointIndex)
      (hchosen : ∀ id, p.chosen = some id → (s.pc i).chosen = some id) :
      Moved cfg prog s a (s.put redis i p)

variable {cfg : Config} {prog : ℕ → Call} {s t : Sys} {a : Action}

theorem Moved.look {i : ℕ} {p : Pc} (h : ∀ id, p.chosen = some id → (s.pc i).chosen = some id) :
    Moved cfg prog s a (s.goto i p) := by
  have hput : Moved cfg prog s a (s.put s.redis i p) := .other (fun _ _ h => h) rfl h
  exact hput

/-- **Everything a step can do.** -/
theorem step_cases (h : step cfg prog s a = some t) : Moved cfg prog s a t := by
  cases a with
  | tick dt =>
      cases h
      exact .tick
  | visit i key =>
      rw [step] at h
      split at h <;> cases h <;> exact .look (by simp [Pc.chosen])
  | next i newId =>
      rw [step] at h
      split at h
      all_goals try have hprog := ‹prog i = _›
      all_goals try have hpc := ‹s.pc i = _›
      case h_1 =>
        split at h <;> cases h
        · exact .find hprog hpc ‹_›
        · exact .fresh hprog hpc ‹_›
      case h_2 =>
        cases h
        exact .look (by simp [hpc, Pc.chosen])
      case h_3 =>
        cases h
        exact .store hprog hpc
      case h_4 =>
        split at h <;> cases h <;> exact .look (by simp [Pc.chosen])
      case h_5 =>
        cases h
        exact .beat hprog hpc
      case h_7 =>
        cases h
        refine .other ?_ rfl (by simp [Pc.chosen])
        intro id record hread
        rw [read_deregisterPipeline] at hread
        split at hread
        · cases hread
        · exact hread
      case h_9 =>
        cases h
        refine .other ?_ rfl (by simp [Pc.chosen])
        intro id record hread
        rw [Keyspace.read_foldl_del] at hread
        split at hread
        · cases hread
        · exact hread
      case h_12 =>
        cases h
        exact .other (fun _ _ h => h) rfl (by simp [Pc.chosen])
      case h_13 => cases h
      all_goals
        cases h
        exact .look (by simp [Pc.chosen])

end Registry
end AgentSwarm
