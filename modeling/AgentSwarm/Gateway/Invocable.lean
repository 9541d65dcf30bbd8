import AgentSwarm.Gateway.Routes

/-!
# Whom a thin invoke can reach

A thin invoke looks for an adapter only.  `register_agent` puts one under the agent's id,
and nothing ever takes it away again: not the deregistration of the agent, nor the expiry
of its record, nor a new registration with the protocol `http`.

* `Invocable` — a thin invoke reaches no adapter but that of a registered agent's latest
  registration.
* `Sound` — the same, said of the adapters that are there.
* `Kept` — a step leaves no adapter behind.
* `invocable_iff_kept` — **invocable means registered** in exactly the runs whose steps
  leave none.
* `deregistered_invocable` — an agent that has deregistered is invoked.
-/

namespace AgentSwarm
namespace Gateway

open Adapters (AgentBackend createAdapter)

variable {cfg : Registry.Config} {retryAfter : ℚ → String} {slowCallThreshold : ℚ}
  {s t : State} {agentId : String}

/-- The agent is in the registry, and the adapter is the one that its latest registration
brought. -/
structure Current (s : State) (agentId : String) (adapter : AgentBackend) : Prop where
  present : (s.redis.agents.read agentId).isSome
  latest : ∃ body, s.latest.get agentId = some body ∧
    createAdapter (buildAdapterInfo body) = .ok adapter

/-- Whatever thin invoke arrives, it reaches no adapter but a current one. -/
def Invocable (s : State) : Prop :=
  ∀ agentId a adapter, reached s agentId a = some adapter → Current s agentId adapter

/-- Every adapter is current. -/
def Sound (s : State) : Prop :=
  ∀ agentId adapter, s.adapters.get agentId = some adapter → Current s agentId adapter

/-- The step leaves no adapter behind: a registration with the protocol `http` is under an
id that has none, and neither has an agent that deregisters, one whose record expires, or one
that a sweep removes. -/
def Kept (cfg : Registry.Config) (s : State) : Action → Prop
  | .register body newId =>
      body.protocol = "http" → s.adapters.get (agentIdOf s.redis body.endpoint newId) = none
  | .deregister agentId =>
      (s.redis.agents.read agentId).isSome → s.adapters.get agentId = none
  | .tick dt =>
      ∀ agentId, (s.redis.agents.entry agentId).any (·.expired (s.now + dt)) →
        s.adapters.get agentId = none
  | .healthSweep => ∀ agentId ∈ s.redis.stale cfg s.now, s.adapters.get agentId = none
  | _ => True

/-! ## Adapters that are there -/

/-- Once the timeout has run out, a breaker is not `OPEN`. -/
theorem checkState_of_timeout (b : CircuitBreaker) :
    (b.checkState (b.openedAt + b.timeout)).1 ≠ .opened := by
  rw [CircuitBreaker.checkState]
  by_cases hopened : b.state = .opened <;> simp [hopened, CircuitBreaker.transitionTo]

/-- An adapter that is there is reached by some thin invoke. -/
theorem reached_of_get {adapter : AgentBackend} (h : s.adapters.get agentId = some adapter) :
    ∃ a, reached s agentId a = some adapter := by
  let time := (s.breaker agentId).openedAt + (s.breaker agentId).timeout
  refine ⟨⟨.raises "", time, time, time, time, time⟩, ?_⟩
  rw [reached, h]
  simp only [if_neg (checkState_of_timeout _), time]

theorem invocable_iff_sound : Invocable s ↔ Sound s := by
  constructor
  · intro h agentId adapter hget
    obtain ⟨a, ha⟩ := reached_of_get hget
    exact h agentId a adapter ha
  · intro h agentId a adapter hreached
    exact h agentId adapter (reached_eq_some hreached).1

/-- When the registry alone changes, the agents with an adapter have to stay. -/
theorem sound_iff_stay (hs : Sound s) (redis : Registry.Redis) (now : ℕ) :
    Sound { s with redis := redis, now := now } ↔
      ∀ agentId, (s.redis.agents.read agentId).isSome → redis.agents.read agentId = none →
        s.adapters.get agentId = none := by
  constructor
  · intro h agentId _ hgone
    by_contra hsome
    obtain ⟨adapter, hadapter⟩ := Option.ne_none_iff_exists'.1 hsome
    have hpresent : (redis.agents.read agentId).isSome := (h agentId adapter hadapter).present
    simp [hgone] at hpresent
  · intro h agentId adapter hget
    obtain ⟨hpresent, hlatest⟩ := hs agentId adapter hget
    refine ⟨?_, hlatest⟩
    cases hread : redis.agents.read agentId with
    | some record => simp
    | none => simp [h agentId hpresent hread] at hget

/-! ## Records -/

theorem read_register {r : Registry.Redis} (now : ℕ) (data : Registry.AgentData) (newId : String)
    (id : String) :
    ((r.register cfg now data false newId).agents.read id).isSome =
      (decide (id = agentIdOf r data.endpoint newId) || (r.agents.read id).isSome) := by
  rw [Registry.Redis.register, agentIdOf]
  split
  · rename_i found hfound
    rw [Registry.Redis.registerAs, Registry.read_registerPipeline, hfound, Option.getD_some]
    by_cases hid : id = found <;> simp [Registry.AgentData.record, hid]
  · rename_i hnone
    rw [Registry.Redis.registerAs, Registry.read_registerPipeline, hnone, Option.getD_none]
    by_cases hid : id = newId <;> simp [Registry.AgentData.record, hid]

theorem read_heartbeat (cfg : Registry.Config) (r : Registry.Redis) (now : ℕ) (agentId id : String) :
    ((r.heartbeat cfg now agentId).agents.read id).isSome = (r.agents.read id).isSome := by
  rw [Registry.Redis.heartbeat]
  split
  · rfl
  · rename_i record hrecord
    rw [Registry.read_heartbeatPipeline]
    split
    · rename_i hid
      simp [hid, hrecord]
    · rfl

theorem read_healthSweep {r : Registry.Redis} (now : ℕ) (id : String) :
    (r.healthSweep cfg now).2.agents.read id =
      if id ∈ r.stale cfg now then none else r.agents.read id := by
  have hagents := (Registry.removeOrphans_spec { r with
    agents := (r.stale cfg now).foldl (fun agents id => agents.del id) r.agents }
      r.skillIndex.keys).1
  have hread := congrArg (fun agents => agents.read id) hagents
  exact hread.trans (r.agents.read_foldl_del _ _)

/-! ## Registrations -/

theorem protocol_buildAdapterInfo (body : AgentRegistration) :
    (buildAdapterInfo body).get "protocol" = some (.str body.protocol) := by
  have hkeep : ∀ (info : JsonObj) (key : String) (value : Json), key ≠ "protocol" →
      (info.setDefault key value).get "protocol" = info.get "protocol" := by
    intro info key value hkey
    rw [Dict.setDefault]
    split
    · rfl
    · exact Dict.get_set_of_ne _ _ hkey.symm
  rw [buildAdapterInfo]
  split
  · rw [hkeep _ _ _ (by decide)]
    rfl
  · split
    · rw [hkeep _ _ _ (by decide), hkeep _ _ _ (by decide)]
      rfl
    · split
      · rw [hkeep _ _ _ (by decide)]
        rfl
      · rfl

/-- No adapter is built for the protocol `http`. -/
theorem createAdapter_http {body : AgentRegistration} (h : body.protocol = "http")
    (adapter : AgentBackend) : createAdapter (buildAdapterInfo body) ≠ .ok adapter := by
  intro hcreate
  obtain ⟨protocol, hget, hmem⟩ := Adapters.protocol_of_createAdapter hcreate
  rw [protocol_buildAdapterInfo, Option.some.injEq, Json.str.injEq] at hget
  rw [← hget, h] at hmem
  exact absurd hmem (by decide)

/-- What a registration does: nothing, or it stores a record with its adapter, or, for the
protocol `http`, a record alone. -/
theorem registerAgent_cases (cfg : Registry.Config) (s : State) (body : AgentRegistration)
    (newId : String) :
    (registerAgent cfg s body newId).2 = s ∧ body.protocol ≠ "http" ∨
      ∃ agentId adapters, agentId = agentIdOf s.redis body.endpoint newId ∧
        (registerAgent cfg s body newId).2 = { s with
          redis := s.redis.register cfg s.now body.agentData false newId
          adapters := adapters
          latest := s.latest.set agentId body } ∧
        (body.protocol = "http" ∧ adapters = s.adapters ∨
          body.protocol ≠ "http" ∧ ∃ adapter, adapters = s.adapters.set agentId adapter ∧
            createAdapter (buildAdapterInfo body) = .ok adapter) := by
  rw [registerAgent]
  split
  · rename_i hunknown
    refine .inl ⟨rfl, ?_⟩
    intro hhttp
    exact hunknown (by rw [hhttp]; decide)
  · rename_i hknown
    rw [not_not] at hknown
    by_cases hmem : body.protocol ∈ adapterProtocols
    · have hne : body.protocol ≠ "http" := by
        intro hhttp
        rw [hhttp] at hmem
        exact absurd hmem (by decide)
      rw [adapterFor, if_pos hmem]
      cases hcreate : createAdapter (buildAdapterInfo body) with
      | ok adapter => exact .inr ⟨_, _, rfl, rfl, .inr ⟨hne, adapter, rfl, rfl⟩⟩
      | error e => cases e <;> exact .inl ⟨rfl, hne⟩
    · have hhttp : body.protocol = "http" := by
        simpa [knownProtocols, hmem] using hknown
      rw [adapterFor, if_neg hmem]
      exact .inr ⟨_, _, rfl, rfl, .inl ⟨hhttp, rfl⟩⟩

/-- **A registration, exactly.** -/
theorem sound_register (hs : Sound s) (body : AgentRegistration) (newId : String) :
    Sound (registerAgent cfg s body newId).2 ↔ Kept cfg s (.register body newId) := by
  rw [Kept]
  obtain ⟨heq, hne⟩ | ⟨agentId, adapters, hid, heq, hcase⟩ :=
    registerAgent_cases cfg s body newId
  · rw [heq]
    exact iff_of_true hs fun hhttp => absurd hhttp hne
  have hpresent : ∀ id, id = agentId ∨ (s.redis.agents.read id).isSome →
      ((s.redis.register cfg s.now body.agentData false newId).agents.read id).isSome := by
    intro id hin
    rw [read_register]
    simpa [AgentRegistration.agentData, ← hid] using hin
  have hothers : ∀ id adapter, id ≠ agentId → s.adapters.get id = some adapter →
      Current (registerAgent cfg s body newId).2 id adapter := by
    intro id adapter hne hget
    obtain ⟨hold, body', hlatest, hcreate⟩ := hs id adapter hget
    rw [heq]
    exact ⟨hpresent id (.inr hold), body', by rwa [Dict.get_set_of_ne _ _ hne], hcreate⟩
  rw [← hid]
  rcases hcase with ⟨hhttp, rfl⟩ | ⟨hne, adapter, rfl, hcreate⟩
  · constructor
    · rintro h -
      by_contra hsome
      obtain ⟨adapter, hadapter⟩ := Option.ne_none_iff_exists'.1 hsome
      obtain ⟨body', hlatest, hcreate⟩ := (h agentId adapter (by rw [heq]; exact hadapter)).latest
      rw [heq] at hlatest
      cases (Dict.get_set_self _ _ _).symm.trans hlatest
      exact createAdapter_http hhttp adapter hcreate
    · intro hnone id adapter hget
      rw [heq] at hget
      refine hothers id adapter ?_ hget
      rintro rfl
      simp [hnone hhttp] at hget
  · refine iff_of_true ?_ fun hhttp => absurd hhttp hne
    intro id adapter' hget
    by_cases hsame : id = agentId
    · subst hsame
      rw [heq] at hget ⊢
      cases (Dict.get_set_self _ _ _).symm.trans hget
      exact ⟨hpresent id (.inl rfl), body, Dict.get_set_self _ _ _, hcreate⟩
    · refine hothers id adapter' hsame ?_
      rw [heq] at hget
      exact (Dict.get_set_of_ne _ _ hsame).symm.trans hget

/-! ## Whole runs -/

theorem sound_heartbeat (hs : Sound s) (agentId : String) : Sound (heartbeat cfg s agentId).2 := by
  refine (sound_iff_stay hs _ _).2 ?_
  intro id hpresent hgone
  have hread := read_heartbeat cfg s.redis s.now agentId id
  simp [hgone, hpresent] at hread

theorem sound_deregister (hs : Sound s) (agentId : String) :
    Sound (deregisterAgent s agentId).2 ↔ Kept cfg s (.deregister agentId) := by
  rw [Kept, deregisterAgent]
  split
  · rename_i hnone
    exact iff_of_true hs fun hsome => by simp [hnone] at hsome
  · rename_i record hread
    refine (sound_iff_stay hs _ _).trans ?_
    simp only [Registry.Redis.deregister, Registry.read_deregisterPipeline]
    constructor
    · exact fun h hpresent => h agentId hpresent (if_pos rfl)
    · intro h id hpresent hgone
      split at hgone
      · rename_i hid
        rw [hid] at hpresent ⊢
        exact h hpresent
      · simp [hgone] at hpresent

/-- An agent without a record has no adapter, so that only the others can expire. -/
theorem sound_tick (hs : Sound s) (dt : ℕ) :
    Sound { s with redis := s.redis.tick (s.now + dt), now := s.now + dt } ↔
      Kept cfg s (.tick dt) := by
  refine (sound_iff_stay hs _ _).trans ?_
  simp only [Kept, Registry.Redis.tick, Keyspace.read_tick]
  constructor
  · intro h id hexpired
    refine h id ?_ (if_pos hexpired)
    rw [Keyspace.read, Option.isSome_map]
    cases hentry : s.redis.agents.entry id with
    | none => simp [hentry] at hexpired
    | some e => rfl
  · intro h id hpresent hgone
    split at hgone
    · rename_i hexpired
      exact h id hexpired
    · simp [hgone] at hpresent

theorem sound_healthSweep (hs : Sound s) :
    Sound { s with redis := (s.redis.healthSweep cfg s.now).2 } ↔ Kept cfg s .healthSweep := by
  refine (sound_iff_stay hs _ _).trans ?_
  simp only [Kept, read_healthSweep]
  constructor
  · intro h id hstale
    refine h id ?_ (if_pos hstale)
    have hkey := (List.mem_filter.1 hstale).1
    exact (s.redis.agents.read_isSome_iff_mem_keys id).2 hkey
  · intro h id hpresent hgone
    split at hgone
    · rename_i hstale
      exact h id hstale
    · simp [hgone] at hpresent

theorem sound_thinInvoke (hs : Sound s) (agentId : String) (a : Attempt) :
    Sound (thinInvoke retryAfter slowCallThreshold s agentId a).2 := by
  rw [thinInvoke]
  split
  · exact hs
  · intro id adapter hget
    obtain ⟨hpresent, hlatest⟩ := hs id adapter hget
    exact ⟨hpresent, hlatest⟩

/-- **One step, exactly.** -/
theorem sound_step {a : Action} (hs : Sound s)
    (h : step cfg retryAfter slowCallThreshold s a = some t) : Sound t ↔ Kept cfg s a := by
  cases a with
  | register body newId =>
      cases h
      exact sound_register hs body newId
  | heartbeat agentId =>
      cases h
      exact iff_of_true (sound_heartbeat hs agentId) trivial
  | deregister agentId =>
      cases h
      exact sound_deregister hs agentId
  | invoke agentId attempt =>
      cases h
      exact iff_of_true (sound_thinInvoke hs agentId attempt) trivial
  | tick dt =>
      cases h
      exact sound_tick hs dt
  | healthSweep =>
      cases h
      exact sound_healthSweep hs

/-- **Invocable means registered.**  In a run of the gateway a thin invoke never reaches an
adapter but that of a registered agent's latest registration exactly when no step leaves an
adapter behind. -/
theorem invocable_iff_kept (redis : Registry.Redis) (now : ℕ) (acts : List Action) :
    Run.Throughout (step cfg retryAfter slowCallThreshold) Invocable (.start redis now) acts ↔
      Run.Along (step cfg retryAfter slowCallThreshold) (Kept cfg) (.start redis now) acts := by
  refine Run.throughout_iff_along (B := fun _ => True) (fun _ _ _ _ _ => trivial) ?_ ?_ trivial ?_
  · intro s a t _ hs h
    rw [invocable_iff_sound] at hs ⊢
    exact sound_step hs h
  · intro s a _ h
    cases a <;> simp [step] at h
  · rw [invocable_iff_sound]
    intro agentId adapter hget
    simp [State.start] at hget

/-- An agent with an OpenAI-compatible endpoint. -/
def painter : AgentRegistration where
  name := "painter"
  endpoint := "http://painter:9000"
  instanceId := "9d4f"
  protocol := "openai"

/-- The agent deregisters, and a thin invoke reaches its adapter. -/
theorem deregistered_invocable :
    ¬ Run.Throughout (step ⟨30, by decide⟩ (fun _ => "30.0") 15) Invocable (.start .empty 0)
        [.register painter "a1", .deregister "a1"] := by
  intro h
  have hafter := h.last rfl "a1" ⟨.returns { success := true }, 0, 0, 0, 0, 0⟩
    (.openAIAdapter "http://painter:9000" (.str "") (.str "default") (.num 300)) rfl
  exact absurd hafter.present (by decide)

end Gateway
end AgentSwarm
