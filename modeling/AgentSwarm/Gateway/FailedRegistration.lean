import AgentSwarm.Gateway.Routes

/-!
# Registrations that fail

`register_agent` checks the protocol, builds the adapter, registers the agent in
Redis and its adapter in the process, in this order.  Every Redis command may
fail, and so may the adapter manager; the route then takes the agent out of the
registry again.

* `Course` — which of the commands fail.
* `register`, `registerAgent` — the registration, as far as it gets.
* `registerAgent_fine` — without a failure it is `Gateway.registerAgent`.
* `SameKeys`, `Same` — what the state consists of, before and after.
* `Repeats`, `Outlived` — the registrations that change nothing although the pipeline
  takes effect, without the rollback and with it.
* `Harmless` — the failure comes before the pipeline takes effect, or it changes nothing.
* `changesNothing_iff_harmless` — a failed registration changes nothing **exactly** then.
* `not_changesNothing` — the last command fails, and the agent is registered.

A pipeline is a transaction: when its execution fails, all of its commands have
taken effect or none.
-/

namespace AgentSwarm
namespace FailedRegistration

open Adapters (AgentBackend)
open Gateway (AgentRegistration HTTPException RegistrationResponse State adapterFor adapterProtocols
  agentIdOf knownProtocols)
open Registry (AgentData Config Redis)

/-! ## A registration that may fail -/

/-- How the commands of a registration go.  A text is that of the exception. -/
structure Course where
  /-- The connection, and `GET` of the endpoint index. -/
  get : Option String := none
  /-- `HGET` of the record that the endpoint had. -/
  hget : Option String := none
  /-- The execution of the pipeline, and whether it took effect all the same. -/
  execute : Option (String × Bool) := none
  publish : Option String := none
  /-- `AdapterManager.register`, and whether the adapter was stored before it raised. -/
  adapter : Option Bool := none
  /-- The pipeline of the rollback takes effect. -/
  rollback : Bool := true

@[simp] theorem endpoint_agentData (body : AgentRegistration) :
    body.agentData.endpoint = body.endpoint := rfl

@[simp] theorem skills_record (body : AgentRegistration) (agentId : String) (now : ℕ) :
    (body.agentData.record agentId now false).skills = body.skills := rfl

section Model

variable (cfg : Config)

/-- The pipeline of `register` and the event after it. -/
def write (r : Redis) (now : ℕ) (data : AgentData) (agentId : String) (oldSkills : List String)
    (c : Course) : Except String String × Redis :=
  let written := r.registerAs cfg now data false agentId oldSkills
  match c.execute, c.publish with
  | some (e, applied), _ => (.error e, if applied then written else r)
  | none, some e => (.error e, written)
  | none, none => (.ok agentId, written)

/-- `AgentRegistry.register`. -/
def register (r : Redis) (now : ℕ) (data : AgentData) (newId : String) (c : Course) :
    Except String String × Redis :=
  match c.get with
  | some e => (.error e, r)
  | none =>
      match r.endpointIndex.read data.endpoint with
      | none => write cfg r now data newId [] c
      | some agentId =>
          match c.hget with
          | some e => (.error e, r)
          | none => write cfg r now data agentId (r.skillsOf agentId) c

/-- The adapter of a registered agent is stored, or the agent is taken out again. -/
def provision (s : State) (body : AgentRegistration) (agentId : String)
    (adapter : Option AgentBackend) (c : Course) :
    Except HTTPException RegistrationResponse × State :=
  let response : RegistrationResponse := ⟨agentId, body.heartbeatInterval, "registered"⟩
  let latest := s.latest.set agentId body
  match adapter, c.adapter with
  | none, _ => (.ok response, { s with latest := latest })
  | some adapter, none =>
      (.ok response, { s with adapters := s.adapters.set agentId adapter, latest := latest })
  | some adapter, some stored =>
      (.error ⟨500, "Failed to provision adapter"⟩, { s with
        redis := if c.rollback then s.redis.deregister agentId else s.redis
        adapters := if stored then s.adapters.set agentId adapter else s.adapters })

/-- `register_agent`. -/
def registerAgent (s : State) (body : AgentRegistration) (newId : String) (c : Course) :
    Except HTTPException RegistrationResponse × State :=
  if body.protocol ∉ knownProtocols then
    (.error ⟨400, "Unknown protocol '" ++ body.protocol ++ "'. Supported: " ++
      ", ".intercalate knownProtocols⟩, s)
  else
    match adapterFor body with
    | .error e => (.error e, s)
    | .ok adapter =>
        match register cfg s.redis s.now body.agentData newId c with
        | (.error e, redis) => (.error ⟨500, e⟩, { s with redis := redis })
        | (.ok agentId, redis) => provision { s with redis := redis } body agentId adapter c

/-- Without a failure, this is the registration of the other models. -/
theorem registerAgent_fine (s : State) (body : AgentRegistration) (newId : String) :
    registerAgent cfg s body newId {} = Gateway.registerAgent cfg s body newId := by
  unfold registerAgent Gateway.registerAgent
  split
  · rfl
  · cases hadapter : adapterFor body with
    | error e => rfl
    | ok adapter =>
        cases hindex : s.redis.endpointIndex.read body.endpoint <;> cases adapter <;>
          simp [register, write, provision, Redis.register, agentIdOf, hindex]

end Model

/-! ## The property -/

/-- Records, endpoint index and skill index are the same. -/
structure SameKeys (r r' : Redis) : Prop where
  agents : ∀ id, r'.agents.read id = r.agents.read id
  endpointIndex : ∀ endpoint, r'.endpointIndex.read endpoint = r.endpointIndex.read endpoint
  skillIndex : ∀ skill id, id ∈ r'.skillIndex.members skill ↔ id ∈ r.skillIndex.members skill

/-- **Nothing has changed.** -/
structure Same (s t : State) : Prop where
  redis : SameKeys s.redis t.redis
  adapters : ∀ id, t.adapters.get id = s.adapters.get id

/-- A registration that is answered with an error changes nothing. -/
def ChangesNothing (cfg : Config) (s : State) (body : AgentRegistration) (newId : String)
    (c : Course) : Prop :=
  ∀ e, (registerAgent cfg s body newId c).1 = .error e →
    Same s (registerAgent cfg s body newId c).2

/-! ## The condition -/

section Condition

variable (s : State) (body : AgentRegistration) (c : Course)

/-- The pipeline of `register` takes effect. -/
def Executes : Prop :=
  body.protocol ∈ knownProtocols ∧ (∃ adapter, adapterFor body = .ok adapter) ∧ c.get = none ∧
    ((s.redis.endpointIndex.read body.endpoint).isSome → c.hget = none) ∧
    ∀ e, c.execute ≠ some (e, false)

/-- The endpoint is registered with this very record, at this very time, and its agent
is in the sets of its skills. -/
def Repeats : Prop :=
  ∃ agentId, s.redis.endpointIndex.read body.endpoint = some agentId ∧
    s.redis.agents.read agentId = some (body.agentData.record agentId s.now false) ∧
    ∀ skill ∈ body.skills, agentId ∈ s.redis.skillIndex.members skill

/-- The endpoint is indexed for an agent that has no record any more, and that is in
none of the sets of these skills. -/
def Outlived : Prop :=
  ∃ agentId, s.redis.endpointIndex.read body.endpoint = some agentId ∧
    s.redis.agents.read agentId = none ∧
    ∀ skill ∈ body.skills, agentId ∉ s.redis.skillIndex.members skill

/-- The failure comes before the pipeline takes effect, or all that it does has been
done before; a rollback finds nothing of the agent but its endpoint. -/
def Harmless (newId : String) : Prop :=
  Executes s body c →
    (c.execute.isSome ∨ c.publish.isSome → Repeats s body) ∧
    (c.execute = none → c.publish = none → ∀ adapter stored, adapterFor body = .ok (some adapter) →
      c.adapter = some stored →
        (if c.rollback then Outlived s body else Repeats s body) ∧
          (stored = true → s.adapters.get (agentIdOf s.redis body.endpoint newId) = some adapter))

end Condition

/-! ## What the commands change -/

variable {cfg : Config} {s : State} {body : AgentRegistration} {newId : String} {c : Course}

/-- The skills of the record that the endpoint had. -/
def oldSkillsOf (r : Redis) (endpoint : String) : List String :=
  match r.endpointIndex.read endpoint with
  | none => []
  | some agentId => r.skillsOf agentId

/-- What the pipeline leaves. -/
def written (cfg : Config) (s : State) (body : AgentRegistration) (newId : String) : Redis :=
  s.redis.registerAs cfg s.now body.agentData false (agentIdOf s.redis body.endpoint newId)
    (oldSkillsOf s.redis body.endpoint)

theorem read_written (id : String) :
    (written cfg s body newId).agents.read id =
      if id = agentIdOf s.redis body.endpoint newId then
        some (body.agentData.record (agentIdOf s.redis body.endpoint newId) s.now false)
      else s.redis.agents.read id :=
  Registry.read_registerPipeline _ _ _ _

theorem index_written (endpoint : String) :
    (written cfg s body newId).endpointIndex.read endpoint =
      if endpoint = body.endpoint then some (agentIdOf s.redis body.endpoint newId)
      else s.redis.endpointIndex.read endpoint :=
  Registry.index_registerPipeline _ _ _ _

theorem mem_written (skill id : String) :
    id ∈ (written cfg s body newId).skillIndex.members skill ↔
      (id ∈ s.redis.skillIndex.members skill ∧
          ¬ (skill ∈ oldSkillsOf s.redis body.endpoint ∧
            id = agentIdOf s.redis body.endpoint newId)) ∨
        (skill ∈ body.skills ∧ id = agentIdOf s.redis body.endpoint newId) :=
  Registry.mem_registerPipeline _ _ _ _ _

/-- The rollback removes the skills of the new record. -/
theorem skillsOf_written :
    (written cfg s body newId).skillsOf (agentIdOf s.redis body.endpoint newId) = body.skills := by
  rw [Redis.skillsOf, read_written, if_pos rfl]
  simp

/-- What the rollback leaves of it. -/
def rolledBack (cfg : Config) (s : State) (body : AgentRegistration) (newId : String) : Redis :=
  (written cfg s body newId).deregister (agentIdOf s.redis body.endpoint newId)

theorem read_rolledBack (id : String) :
    (rolledBack cfg s body newId).agents.read id =
      if id = agentIdOf s.redis body.endpoint newId then none else s.redis.agents.read id := by
  rw [rolledBack, Redis.deregister, Registry.read_deregisterPipeline, read_written]
  split <;> simp_all

theorem index_rolledBack (endpoint : String) :
    (rolledBack cfg s body newId).endpointIndex.read endpoint =
      if endpoint = body.endpoint then some (agentIdOf s.redis body.endpoint newId)
      else s.redis.endpointIndex.read endpoint :=
  index_written endpoint

theorem mem_rolledBack (skill id : String) :
    id ∈ (rolledBack cfg s body newId).skillIndex.members skill ↔
      id ∈ (written cfg s body newId).skillIndex.members skill ∧
        ¬ (skill ∈ body.skills ∧ id = agentIdOf s.redis body.endpoint newId) := by
  rw [rolledBack, Redis.deregister, Redis.deregisterPipeline, skillsOf_written]
  exact Keyspace.mem_sremAll _ _ _ _ _

/-- A pipeline that takes effect changes nothing exactly when it repeats a registration. -/
theorem sameKeys_written : SameKeys s.redis (written cfg s body newId) ↔ Repeats s body := by
  constructor
  · intro h
    refine ⟨agentIdOf s.redis body.endpoint newId, ?_, ?_, ?_⟩
    · rw [← h.endpointIndex, index_written, if_pos rfl]
    · rw [← h.agents, read_written, if_pos rfl]
    · intro skill hskill
      rw [← h.skillIndex, mem_written]
      exact .inr ⟨hskill, rfl⟩
  · rintro ⟨agentId, hid, hrecord, hskills⟩
    have hagentId : agentIdOf s.redis body.endpoint newId = agentId := by simp [agentIdOf, hid]
    have hold : oldSkillsOf s.redis body.endpoint = body.skills := by
      simp [oldSkillsOf, hid, Redis.skillsOf, hrecord]
    refine ⟨fun id => ?_, fun endpoint => ?_, fun skill id => ?_⟩
    · rw [read_written, hagentId]
      split <;> simp_all
    · rw [index_written, hagentId]
      split <;> simp_all
    · rw [mem_written, hold, hagentId]
      by_cases hthis : skill ∈ body.skills ∧ id = agentId
      · simp [hthis, hskills skill hthis.1]
      · simp [hthis]

/-- With the rollback, exactly when the endpoint outlived its agent. -/
theorem sameKeys_rolledBack :
    SameKeys s.redis (rolledBack cfg s body newId) ↔ Outlived s body := by
  constructor
  · intro h
    refine ⟨agentIdOf s.redis body.endpoint newId, ?_, ?_, ?_⟩
    · rw [← h.endpointIndex, index_rolledBack, if_pos rfl]
    · rw [← h.agents, read_rolledBack, if_pos rfl]
    · intro skill hskill
      rw [← h.skillIndex, mem_rolledBack]
      exact fun hin => hin.2 ⟨hskill, rfl⟩
  · rintro ⟨agentId, hid, hnone, hout⟩
    have hagentId : agentIdOf s.redis body.endpoint newId = agentId := by simp [agentIdOf, hid]
    have hold : oldSkillsOf s.redis body.endpoint = [] := by
      simp [oldSkillsOf, hid, Redis.skillsOf, hnone]
    refine ⟨fun id => ?_, fun endpoint => ?_, fun skill id => ?_⟩
    · rw [read_rolledBack, hagentId]
      split <;> simp_all
    · rw [index_rolledBack, hagentId]
      split <;> simp_all
    · rw [mem_rolledBack, mem_written, hold, hagentId]
      by_cases hthis : skill ∈ body.skills ∧ id = agentId
      · simp [hthis, hout skill hthis.1]
      · simp [hthis]

/-- The adapter is there already. -/
theorem get_set_same_iff (adapters : Dict String AgentBackend) (agentId : String)
    (adapter : AgentBackend) :
    (∀ id, (adapters.set agentId adapter).get id = adapters.get id) ↔
      adapters.get agentId = some adapter := by
  constructor
  · intro h
    rw [← h, Dict.get_set_self]
  · intro h id
    rw [Dict.get_set]
    split <;> simp_all

/-! ## The registration -/

variable (cfg newId) in
/-- A pipeline that is not reached, or not applied. -/
theorem register_of_not_executes {adapter : Option AgentBackend}
    (hknown : body.protocol ∈ knownProtocols) (hadapter : adapterFor body = .ok adapter)
    (h : ¬ Executes s body c) :
    ∃ e, register cfg s.redis s.now body.agentData newId c = (.error e, s.redis) := by
  unfold register write
  rw [endpoint_agentData]
  cases hget : c.get with
  | some e => exact ⟨e, rfl⟩
  | none =>
      by_cases hhget : (s.redis.endpointIndex.read body.endpoint).isSome → c.hget = none
      · have hexecute : ∃ e, c.execute = some (e, false) := by
          by_contra hne
          rw [not_exists] at hne
          exact h ⟨hknown, ⟨adapter, hadapter⟩, hget, hhget, hne⟩
        obtain ⟨e, he⟩ := hexecute
        cases hindex : s.redis.endpointIndex.read body.endpoint with
        | none => exact ⟨e, by simp [he]⟩
        | some agentId =>
            have hhget' : c.hget = none := hhget (by simp [hindex])
            exact ⟨e, by simp [he, hhget']⟩
      · rw [Classical.not_imp] at hhget
        obtain ⟨agentId, hindex⟩ := Option.isSome_iff_exists.1 hhget.1
        obtain ⟨e, he⟩ := Option.ne_none_iff_exists'.1 hhget.2
        exact ⟨e, by simp [hindex, he]⟩

/-- A pipeline that is reached, under the agent's id and with its old skills. -/
theorem register_of_executes (h : Executes s body c) :
    register cfg s.redis s.now body.agentData newId c =
      write cfg s.redis s.now body.agentData (agentIdOf s.redis body.endpoint newId)
        (oldSkillsOf s.redis body.endpoint) c := by
  obtain ⟨-, -, hget, hhget, -⟩ := h
  unfold register agentIdOf oldSkillsOf
  rw [endpoint_agentData, hget]
  cases hindex : s.redis.endpointIndex.read body.endpoint with
  | none => rfl
  | some agentId =>
      rw [hindex, Option.isSome_some] at hhget
      simp [hhget rfl]

/-- Before the pipeline takes effect, nothing changes. -/
theorem registerAgent_of_not_executes (h : ¬ Executes s body c) :
    (registerAgent cfg s body newId c).2 = s := by
  unfold registerAgent
  split
  · rfl
  · rename_i hknown
    cases hadapter : adapterFor body with
    | error e => rfl
    | ok adapter =>
        obtain ⟨e, he⟩ :=
          register_of_not_executes cfg newId (not_not.1 hknown) hadapter h
        simp [he]

variable (cfg newId) in
/-- Once it takes effect, what follows decides. -/
theorem registerAgent_of_executes (h : Executes s body c) {adapter : Option AgentBackend}
    (hadapter : adapterFor body = .ok adapter) :
    registerAgent cfg s body newId c =
      match c.execute, c.publish with
      | some (e, _), _ => (.error ⟨500, e⟩, { s with redis := written cfg s body newId })
      | none, some e => (.error ⟨500, e⟩, { s with redis := written cfg s body newId })
      | none, none =>
          provision { s with redis := written cfg s body newId } body
            (agentIdOf s.redis body.endpoint newId) adapter c := by
  simp only [registerAgent, h.1, not_true_eq_false, if_false, hadapter, register_of_executes h,
    write]
  rcases hcase : c.execute with - | ⟨e, applied⟩
  · cases c.publish <;> rfl
  · cases applied with
    | false => exact absurd hcase (h.2.2.2.2 e)
    | true => rfl

theorem same_redis_iff (redis : Redis) :
    Same s { s with redis := redis } ↔ SameKeys s.redis redis :=
  ⟨fun h => h.redis, fun h => ⟨h, fun _ => rfl⟩⟩

/-- The adapter manager fails. -/
theorem same_provision_iff {adapter : AgentBackend} {stored : Bool}
    (hstored : c.adapter = some stored) :
    Same s (provision { s with redis := written cfg s body newId } body
        (agentIdOf s.redis body.endpoint newId) (some adapter) c).2 ↔
      (if c.rollback then Outlived s body else Repeats s body) ∧
        (stored = true →
          s.adapters.get (agentIdOf s.redis body.endpoint newId) = some adapter) := by
  have hkeys : SameKeys s.redis
        (if c.rollback then rolledBack cfg s body newId else written cfg s body newId) ↔
      if c.rollback then Outlived s body else Repeats s body := by
    cases c.rollback
    · exact sameKeys_written
    · exact sameKeys_rolledBack
  have hadapters : (∀ id, (if stored then
        s.adapters.set (agentIdOf s.redis body.endpoint newId) adapter else s.adapters).get id =
      s.adapters.get id) ↔
        (stored = true →
          s.adapters.get (agentIdOf s.redis body.endpoint newId) = some adapter) := by
    cases stored
    · simp
    · simpa using get_set_same_iff _ _ _
  rw [← hkeys, ← hadapters]
  simp only [provision, hstored]
  exact ⟨fun h => ⟨h.redis, h.adapters⟩, fun h => ⟨h.1, h.2⟩⟩

variable (cfg newId) in
/-- After the commands, only the adapter manager can fail. -/
theorem provision_changesNothing_iff {adapter : Option AgentBackend}
    (hadapter : adapterFor body = .ok adapter) :
    (∀ e, (provision { s with redis := written cfg s body newId } body
          (agentIdOf s.redis body.endpoint newId) adapter c).1 = .error e →
        Same s (provision { s with redis := written cfg s body newId } body
          (agentIdOf s.redis body.endpoint newId) adapter c).2) ↔
      ∀ adapter stored, adapterFor body = .ok (some adapter) → c.adapter = some stored →
        (if c.rollback then Outlived s body else Repeats s body) ∧
          (stored = true →
            s.adapters.get (agentIdOf s.redis body.endpoint newId) = some adapter) := by
  cases adapter with
  | none => simp [provision, hadapter]
  | some adapter =>
      rcases hstored : c.adapter with - | stored
      · simp [provision, hstored]
      · have herror : (provision { s with redis := written cfg s body newId } body
            (agentIdOf s.redis body.endpoint newId) (some adapter) c).1 =
              .error ⟨500, "Failed to provision adapter"⟩ := by
          simp [provision, hstored]
        simp only [herror, same_provision_iff hstored]
        constructor
        · intro h adapter' stored' hadapter' hstored'
          obtain rfl : adapter = adapter' := by simpa [hadapter] using hadapter'
          obtain rfl : stored = stored' := Option.some.inj hstored'
          exact h _ rfl
        · intro h e _
          exact h adapter stored hadapter rfl

/-- **A failed registration changes nothing** exactly when it fails before the pipeline
takes effect, or when what is done by then had been done before. -/
theorem changesNothing_iff_harmless (cfg : Config) (s : State) (body : AgentRegistration)
    (newId : String) (c : Course) :
    ChangesNothing cfg s body newId c ↔ Harmless s body c newId := by
  by_cases hexec : Executes s body c
  · obtain ⟨adapter, hadapter⟩ := hexec.2.1
    have hreg := registerAgent_of_executes cfg newId hexec hadapter
    have hrepeats : Same s { s with redis := written cfg s body newId } ↔ Repeats s body :=
      (same_redis_iff _).trans sameKeys_written
    have hprovide := @provision_changesNothing_iff cfg s body newId c adapter hadapter
    rw [ChangesNothing, Harmless, hreg]
    rcases hexecute : c.execute with - | ⟨e, applied⟩
    · rcases hpublish : c.publish with - | e
      · simpa [hexec] using hprovide
      · simp [hexec, hrepeats]
    · simp [hexec, hrepeats]
  · refine iff_of_true (fun e _ => ?_) fun h => absurd h hexec
    rw [registerAgent_of_not_executes hexec]
    exact ⟨⟨fun _ => rfl, fun _ => rfl, fun _ _ => Iff.rfl⟩, fun _ => rfl⟩

/-- An agent that paints, without an adapter protocol. -/
def painter : AgentRegistration where
  name := "painter"
  endpoint := "http://painter:9000"
  instanceId := "9d4f"
  skills := ["paint"]

/-- **The last command fails.**  The registration is answered with an error, and the agent
is registered. -/
theorem not_changesNothing :
    ¬ ChangesNothing ⟨30, by decide⟩ (.start .empty 100) painter "3f2a"
      { publish := some "Connection closed by server." } := by
  have hadapter : adapterFor painter = .ok none := by
    rw [adapterFor, if_neg (by decide +kernel)]
  have hexec : Executes (.start .empty 100) painter
      { publish := some "Connection closed by server." } :=
    ⟨by decide +kernel, ⟨none, hadapter⟩, rfl, fun _ => rfl, by simp⟩
  have hreg := registerAgent_of_executes ⟨30, by decide⟩ "3f2a" hexec hadapter
  intro h
  have hsame := (h ⟨500, "Connection closed by server."⟩ (by rw [hreg])).redis.endpointIndex
    "http://painter:9000"
  rw [hreg] at hsame
  revert hsame
  decide +kernel

end FailedRegistration
end AgentSwarm
