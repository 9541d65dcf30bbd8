import AgentSwarm.Registry.Endpoint

/-!
# Agents that are declared

An agent that is registered as internal comes from a file and is to stay: its record gets
no deadline.  But `HSET` keeps a deadline that the key has from an external registration
before, and `heartbeat` sets one whatever the record says.

* `Recalls` — the calls that may take the agent away again.
* `Permanent` — an internal agent is listed until one of them is made.
* `Lasting` — the condition: an internal record is stored under a key without a deadline
  and with no other call on its id under way, and no heartbeat is sent to it.
* `Effect` — everything a step does to the records and to what the calls have chosen.
* `OneEndpoint` — the invariant of the ids: each is claimed for one endpoint.
* `Lasts` — the invariant of an internal agent.
* `permanent_of_lasting` — **internal agents stay** in every run that meets the
  condition.
-/

namespace AgentSwarm
namespace Registry
namespace Permanence

variable (cfg : Config) (prog : ℕ → Call)

/-- The step is the first of `deregister(a)`, or of an external registration of the
endpoint. -/
def Recalls (a endpoint : String) (s : Sys) : Action → Prop
  | .next i _ =>
      match prog i, s.pc i with
      | .deregister id, .start => id = a
      | .register data false, .start => data.endpoint = endpoint
      | _, _ => False
  | _ => False

/-- The step is the pipeline of an internal registration of the endpoint as `a`. -/
def Stores (a endpoint : String) (s : Sys) : Action → Prop
  | .next i _ => ∃ data began oldSkills, prog i = .register data true ∧ data.endpoint = endpoint ∧
      s.pc i = .storing a began oldSkills
  | _ => False

/-- `list_agents()` contains `a`. -/
def Listed (s : Sys) (a : String) : Prop := ∃ record ∈ s.redis.listAgents cfg s.now, record.id = a

/-- In every state of the run after an internal registration, its agent is listed until
it is recalled. -/
def Permanent (acts : List Action) : Prop :=
  ∀ before act between after s u t a endpoint, acts = before ++ act :: (between ++ after) →
    Run.exec (step cfg prog) init before = some s → Stores prog a endpoint s act →
    step cfg prog s act = some u → Run.exec (step cfg prog) u between = some t →
    Run.Along (step cfg prog) (fun s act => ¬ Recalls prog a endpoint s act) u between →
    Listed cfg t a

/-! ## The condition -/

/-- The id is in the index for the endpoint, or a registration of it has chosen it. -/
def Claims (s : Sys) (endpoint id : String) : Prop :=
  s.redis.endpointIndex.read endpoint = some id ∨ UnderWay prog s endpoint id

/-- No call that was made before is about to take the agent away. -/
structure Alone (s : Sys) (a : String) : Prop where
  registering : ∀ i data, prog i = .register data false → (s.pc i).chosen ≠ some a
  leaving : ∀ i skills, prog i = .deregister a → s.pc i ≠ .leaving skills
  sweeping : ∀ i stale, s.pc i = .scanning stale → a ∉ stale

/-- The condition on a step.  `uuid4` gives no id that is in use; an internal record is
stored where the key has no deadline and no other call on the id is under way; and no
heartbeat writes to an internal record. -/
def Lasting (s : Sys) : Action → Prop
  | .next i newId =>
      match prog i, s.pc i with
      | .register data _, .start => s.redis.endpointIndex.read data.endpoint = none →
          s.redis.agents.read newId = none ∧ ∀ endpoint, ¬ Claims prog s endpoint newId
      | .register _ true, .storing a _ _ =>
          (s.redis.agents.entry a).bind Entry.deadline = none ∧ Alone prog s a
      | .heartbeat a, .beating _ =>
          ∀ record, s.redis.agents.read a = some record → record.internal = false
      | _, _ => True
  | _ => True

/-! ## What a step does -/

/-- The transitions, by what they do to the records, to the index, and to the places of
the calls. -/
inductive Effect (s : Sys) : Action → Sys → Prop
  | tick {dt} : Effect s (.tick dt)
      { s with redis := s.redis.tick (s.now + dt), now := s.now + dt }
  | find {i newId data internal id} (hprog : prog i = .register data internal)
      (hpc : s.pc i = .start) (hindex : s.redis.endpointIndex.read data.endpoint = some id) :
      Effect s (.next i newId) (s.goto i (.found id s.now))
  | fresh {i newId data internal} (hprog : prog i = .register data internal)
      (hpc : s.pc i = .start) (hindex : s.redis.endpointIndex.read data.endpoint = none) :
      Effect s (.next i newId) (s.goto i (.storing newId s.now []))
  | reread {i newId id began} (hpc : s.pc i = .found id began) :
      Effect s (.next i newId) (s.goto i (.storing id began (s.redis.skillsOf id)))
  | store {i newId data internal id began oldSkills} (hprog : prog i = .register data internal)
      (hpc : s.pc i = .storing id began oldSkills) :
      Effect s (.next i newId)
        (s.put (s.redis.registerPipeline cfg s.now (data.record id began internal) oldSkills) i .done)
  | beat {i newId id record} (hprog : prog i = .heartbeat id) (hpc : s.pc i = .beating record) :
      Effect s (.next i newId) (s.put (s.redis.heartbeatPipeline cfg s.now id record) i .done)
  | ask {i newId id} (hprog : prog i = .deregister id) (hpc : s.pc i = .start) :
      Effect s (.next i newId) (s.goto i (.leaving (s.redis.skillsOf id)))
  | remove {i newId id skills} (hprog : prog i = .deregister id) (hpc : s.pc i = .leaving skills) :
      Effect s (.next i newId) (s.put (s.redis.deregisterPipeline id skills) i .done)
  | delete {i newId stale} (hpc : s.pc i = .scanning stale) :
      Effect s (.next i newId) (s.put { s.redis with
        agents := stale.foldl (fun agents id => agents.del id) s.redis.agents } i .pruning)
  | visit {i key stale} (hpc : s.pc i = .scanning stale) :
      Effect s (.visit i key) (s.goto i (.scanning
        (if (s.redis.agents.read key).any fun record => !isOnline cfg s.now record then
          stale ++ [key] else stale)))
  /-- A command on a skill set, or none, by a call that has chosen nothing. -/
  | other {act i sets p} (hchosen : p.chosen = none) (hleaving : ∀ skills, p ≠ .leaving skills)
      (hscanning : ∀ stale, p = .scanning stale → stale = []) :
      Effect s act (s.put { s.redis with skillIndex := sets } i p)

variable {cfg prog} {s t : Sys} {act : Action} {a endpoint : String}

theorem Effect.look {i : ℕ} {p : Pc} (hchosen : p.chosen = none)
    (hleaving : ∀ skills, p ≠ .leaving skills)
    (hscanning : ∀ stale, p = .scanning stale → stale = []) :
    Effect cfg prog s act (s.goto i p) := by
  have hput : Effect cfg prog s act (s.put { s.redis with skillIndex := s.redis.skillIndex } i p) :=
    .other hchosen hleaving hscanning
  exact hput

theorem step_effect (h : step cfg prog s act = some t) : Effect cfg prog s act t := by
  cases act with
  | tick dt =>
      cases h
      exact .tick
  | visit i key =>
      rw [step] at h
      split at h
      · cases h
        exact .visit ‹_›
      · cases h
        exact .look rfl (by simp) (by simp)
      · cases h
  | next i newId =>
      rw [step] at h
      split at h
      all_goals try have hprog := ‹prog i = _›
      all_goals try have hpc := ‹s.pc i = _›
      case h_1 =>
        split at h <;> cases h
        · exact .find hprog hpc ‹_›
        · exact .fresh hprog hpc ‹_›
      case h_2 =>
        cases h
        exact .reread hpc
      case h_3 =>
        cases h
        exact .store hprog hpc
      case h_4 => split at h <;> cases h <;> exact .look rfl (by simp) (by simp)
      case h_5 =>
        cases h
        exact .beat hprog hpc
      case h_6 =>
        cases h
        exact .ask hprog hpc
      case h_7 =>
        cases h
        exact .remove hprog hpc
      case h_8 =>
        cases h
        exact .look rfl (by simp) fun _ heq => by cases heq; rfl
      case h_9 =>
        cases h
        exact .delete hpc
      case h_12 =>
        cases h
        exact .other rfl (by simp) (by simp)
      case h_13 => cases h
      all_goals
        cases h
        exact .look rfl (by simp) (by simp)

/-! ## One endpoint for an id -/

variable (prog) in
/-- An id is claimed for one endpoint only. -/
def OneEndpoint (s : Sys) : Prop :=
  ∀ id endpoint endpoint', Claims prog s endpoint id → Claims prog s endpoint' id →
    endpoint = endpoint'

theorem Claims.of_goto {i : ℕ} {p : Pc} {id : String}
    (h : Claims prog (s.goto i p) endpoint id) :
    Claims prog s endpoint id ∨ ((prog i).endpoint = some endpoint ∧ p.chosen = some id) := by
  rcases h with hindex | hway
  · exact Or.inl (Or.inl hindex)
  · exact (UnderWay.of_goto hway).imp_left Or.inr

/-- A claim after a step was there before, or a registration takes a new id. -/
theorem claims_step {id : String} (hstep : step cfg prog s act = some t)
    (h : Claims prog t endpoint id) :
    Claims prog s endpoint id ∨
      ∃ i data internal, act = .next i id ∧ prog i = .register data internal ∧ s.pc i = .start ∧
        s.redis.endpointIndex.read data.endpoint = none ∧ data.endpoint = endpoint := by
  cases step_cases hstep with
  | tick =>
      rcases h with hindex | hway
      · exact Or.inl (Or.inl (Keyspace.read_of_read_tick _ hindex))
      · exact Or.inl (Or.inr hway)
  | find hprog hpc hfound =>
      rcases Claims.of_goto h with hold | ⟨hend, hchosen⟩
      · exact Or.inl hold
      · rw [hprog] at hend
        cases hend
        cases hchosen
        exact Or.inl (Or.inl hfound)
  | fresh hprog hpc hnone =>
      rcases Claims.of_goto h with hold | ⟨hend, hchosen⟩
      · exact Or.inl hold
      · rw [hprog] at hend
        cases hend
        cases hchosen
        exact Or.inr ⟨_, _, _, rfl, hprog, hpc, hnone, rfl⟩
  | @store i _ data internal agentId began oldSkills hprog hpc =>
      rcases h with hindex | hway
      · rw [Sys.put, Sys.goto, index_registerPipeline] at hindex
        split at hindex
        · rename_i hend
          cases hindex
          subst hend
          exact Or.inl (Or.inr ⟨i, by rw [hprog]; rfl, by rw [hpc]; rfl⟩)
        · exact Or.inl (Or.inl hindex)
      · rcases UnderWay.of_put hway with hway | ⟨-, hchosen⟩
        · exact Or.inl (Or.inr hway)
        · cases hchosen
  | beat hprog hpc =>
      rcases h with hindex | hway
      · exact Or.inl (Or.inl hindex)
      · rcases UnderWay.of_put hway with hway | ⟨-, hchosen⟩
        · exact Or.inl (Or.inr hway)
        · cases hchosen
  | @other _ i redis p hagents hkeep hchosen =>
      rcases h with hindex | hway
      · exact Or.inl (Or.inl (hkeep ▸ hindex))
      · rcases UnderWay.of_put hway with hway | ⟨hend, hp⟩
        · exact Or.inl (Or.inr hway)
        · exact Or.inl (Or.inr ⟨i, hend, hchosen _ hp⟩)

/-- A new id is claimed by nobody, and has no record. -/
theorem Lasting.unused {i : ℕ} {id : String} {data : AgentData} {internal : Bool}
    (h : Lasting prog s (.next i id)) (hprog : prog i = .register data internal)
    (hpc : s.pc i = .start) (hnone : s.redis.endpointIndex.read data.endpoint = none) :
    s.redis.agents.read id = none ∧ ∀ endpoint, ¬ Claims prog s endpoint id := by
  simp only [Lasting, hprog, hpc] at h
  exact h hnone

theorem oneEndpoint_step (h : OneEndpoint prog s) (hok : Lasting prog s act)
    (hstep : step cfg prog s act = some t) : OneEndpoint prog t := by
  intro id endpoint endpoint' hclaim hclaim'
  rcases claims_step hstep hclaim with hold | ⟨i, data, internal, rfl, hprog, hpc, hnone, rfl⟩
  · rcases claims_step hstep hclaim' with hold' | ⟨i, data, internal, rfl, hprog, hpc, hnone, rfl⟩
    · exact h id endpoint endpoint' hold hold'
    · exact absurd hold ((hok.unused hprog hpc hnone).2 endpoint)
  · rcases claims_step hstep hclaim' with hold' | ⟨j, data', internal', heq, hprog', -, -, rfl⟩
    · exact absurd hold' ((hok.unused hprog hpc hnone).2 endpoint')
    · cases heq
      rw [hprog] at hprog'
      cases hprog'
      rfl

theorem oneEndpoint_init : OneEndpoint prog init := by
  rintro id endpoint endpoint' (hindex | hway) -
  · cases hindex
  · exact absurd (Or.inr (Or.inr hway)) not_inUse_init

/-! ## The entry of an agent -/

/-- The entry of a registered agent: without a deadline if there was none and it is
internal. -/
theorem entry_registerPipeline (r : Redis) (now : ℕ) (record : AgentRecord)
    (oldSkills : List String) (id : String) :
    (r.registerPipeline cfg now record oldSkills).agents.entry id =
      if id = record.id then
        some ⟨record, if record.internal then (r.agents.entry record.id).bind Entry.deadline
          else some (now + cfg.heartbeatTtl)⟩
      else r.agents.entry id := by
  unfold Redis.registerPipeline
  dsimp only
  cases record.internal with
  | true => simp [Keyspace.entry_write]
  | false =>
      simp only [Bool.false_eq_true, if_false, Keyspace.entry_expire, Keyspace.entry_write]
      split <;> simp

/-- An internal record whose key has no deadline. -/
theorem entry_internal (r : Redis) (now : ℕ) (data : AgentData) (id : String) (began : ℕ)
    (oldSkills : List String) (h : (r.agents.entry id).bind Entry.deadline = none) :
    (r.registerPipeline cfg now (data.record id began true) oldSkills).agents.entry id =
      some ⟨data.record id began true, none⟩ := by
  simp [entry_registerPipeline, AgentData.record, h]

theorem entry_heartbeatPipeline (r : Redis) (now : ℕ) {id j : String} (record : AgentRecord)
    (h : j ≠ id) : (r.heartbeatPipeline cfg now id record).agents.entry j = r.agents.entry j := by
  simp [Redis.heartbeatPipeline, Keyspace.entry_expire, Keyspace.entry_write, h]

/-! ## The invariant of an internal agent -/

/-- The internal agent `a` has a record without a deadline, and nobody is about to take
it away. -/
structure Lasts (prog : ℕ → Call) (a endpoint : String) (s : Sys) : Prop where
  entry : ∃ record, s.redis.agents.entry a = some ⟨record, none⟩ ∧ record.internal = true ∧
    record.id = a
  only : ∀ endpoint', Claims prog s endpoint' a → endpoint' = endpoint
  alone : Alone prog s a

theorem Lasts.read (h : Lasts prog a endpoint s) :
    ∃ record, s.redis.agents.read a = some record ∧ record.internal = true ∧ record.id = a := by
  obtain ⟨record, hentry, hinternal, hid⟩ := h.entry
  exact ⟨record, by rw [Keyspace.read, hentry]; rfl, hinternal, hid⟩

/-- No other endpoint comes to claim it. -/
theorem Lasts.only_step (h : Lasts prog a endpoint s) (hok : Lasting prog s act)
    (hstep : step cfg prog s act = some t) {endpoint' : String}
    (hclaim : Claims prog t endpoint' a) : endpoint' = endpoint := by
  rcases claims_step hstep hclaim with hold | ⟨i, data, internal, rfl, hprog, hpc, hnone, -⟩
  · exact h.only endpoint' hold
  · obtain ⟨record, hread, -, -⟩ := h.read
    rw [(hok.unused hprog hpc hnone).1] at hread
    cases hread

/-- It is listed. -/
theorem Lasts.listed (h : Lasts prog a endpoint s) : Listed cfg s a := by
  obtain ⟨record, hread, hinternal, hid⟩ := h.read
  have hkey : a ∈ s.redis.agents.keys :=
    (Keyspace.read_isSome_iff_mem_keys _ a).1 (by rw [hread]; rfl)
  refine ⟨withStatus cfg s.now record, ?_, hid⟩
  have hmem : withStatus cfg s.now record ∈
      (s.redis.agents.keys.filterMap s.redis.agents.read).map (withStatus cfg s.now) :=
    List.mem_map_of_mem (List.mem_filterMap.2 ⟨a, hkey, hread⟩)
  refine List.mem_filter.2 ⟨hmem, ?_⟩
  simp [withStatus, isOnline, hinternal]

/-- The places of the calls after a step, for what matters to `a`. -/
theorem alone_goto (h : Alone prog s a) {redis : Redis} {i : ℕ} {p : Pc}
    (hchosen : ∀ data, prog i = .register data false → p.chosen ≠ some a)
    (hleaving : ∀ skills, prog i = .deregister a → p ≠ .leaving skills)
    (hscanning : ∀ stale, p = .scanning stale → a ∉ stale) : Alone prog (s.put redis i p) a := by
  have hpc : ∀ j, (s.put redis i p).pc j = if j = i then p else s.pc j := fun j =>
    Function.update_apply _ _ _ _
  refine ⟨fun j data hprog => ?_, fun j skills hprog => ?_, fun j stale hj => ?_⟩
  · rw [hpc]
    split
    · rename_i hji
      exact hchosen data (hji ▸ hprog)
    · exact h.registering j data hprog
  · rw [hpc]
    split
    · rename_i hji
      exact hleaving skills (hji ▸ hprog)
    · exact h.leaving j skills hprog
  · rw [hpc] at hj
    split at hj
    · exact hscanning stale hj
    · exact h.sweeping j stale hj

/-- A call that is at none of these places has nothing to do with `a`. -/
theorem alone_over (h : Alone prog s a) {redis : Redis} {i : ℕ} {p : Pc}
    (hp : p = .done ∨ p = .pruning) : Alone prog (s.put redis i p) a := by
  rcases hp with rfl | rfl <;>
    exact alone_goto h (by simp [Pc.chosen]) (by simp) (by simp)

/-- **The record is stored.** -/
theorem lasts_store (hone : OneEndpoint prog s) (hok : Lasting prog s act)
    (hstores : Stores prog a endpoint s act) (hstep : step cfg prog s act = some t) :
    Lasts prog a endpoint t := by
  cases act with
  | tick dt => cases hstores
  | visit i key => cases hstores
  | next i newId =>
      obtain ⟨data, began, oldSkills, hprog, rfl, hpc⟩ := hstores
      simp only [Lasting, hprog, hpc] at hok
      obtain ⟨hdeadline, halone⟩ := hok
      have hclaim : Claims prog s data.endpoint a :=
        Or.inr ⟨i, by rw [hprog]; rfl, by rw [hpc]; rfl⟩
      have honly : ∀ endpoint', Claims prog t endpoint' a → endpoint' = data.endpoint := by
        intro endpoint' hclaim'
        rcases claims_step hstep hclaim' with hold | ⟨j, -, -, heq, -, hpc', -⟩
        · exact hone a _ _ hold hclaim
        · cases heq
          rw [hpc] at hpc'
          cases hpc'
      simp only [step, hprog, hpc] at hstep
      cases hstep
      exact ⟨⟨data.record a began true,
          entry_internal s.redis s.now data a began oldSkills hdeadline, rfl, rfl⟩, honly,
        alone_over halone (.inl rfl)⟩

/-- **The record stays**, whatever the calls do that do not recall it. -/
theorem lasts_step (h : Lasts prog a endpoint s) (hok : Lasting prog s act)
    (hkeep : ¬ Recalls prog a endpoint s act) (hstep : step cfg prog s act = some t) :
    Lasts prog a endpoint t := by
  obtain ⟨record, hread, hinternal, hid⟩ := h.read
  have honly : ∀ endpoint', Claims prog t endpoint' a → endpoint' = endpoint :=
    fun _ => h.only_step hok hstep
  obtain ⟨stored, hentry, hstored, hstoredid⟩ := h.entry
  cases step_effect hstep with
  | tick =>
      refine ⟨⟨stored, ?_, hstored, hstoredid⟩, honly, ⟨h.alone.1, h.alone.2, h.alone.3⟩⟩
      rw [Redis.tick, Keyspace.entry_tick, hentry]
      rfl
  | @find i newId data internal id hprog hpc hindex =>
      refine ⟨h.entry, honly, alone_goto h.alone ?_ (fun _ _ => nofun) nofun⟩
      -- an external registration that finds `a` is one of its endpoint
      rintro data' hprog' hchosen
      cases hchosen
      rw [hprog] at hprog'
      cases hprog'
      refine hkeep ?_
      simp only [Recalls, hprog, hpc]
      exact h.only _ (Or.inl hindex)
  | @fresh i newId data internal hprog hpc hindex =>
      refine ⟨h.entry, honly, alone_goto h.alone ?_ (fun _ _ => nofun) nofun⟩
      rintro data' hprog' hchosen
      cases hchosen
      rw [(hok.unused hprog hpc hindex).1] at hread
      cases hread
  | @reread i newId id began hpc =>
      refine ⟨h.entry, honly, alone_goto h.alone ?_ (fun _ _ => nofun) nofun⟩
      rintro data hprog hchosen
      cases hchosen
      exact h.alone.registering i data hprog (by rw [hpc]; rfl)
  | @store i newId data internal id began oldSkills hprog hpc =>
      refine ⟨?_, honly, alone_over h.alone (.inl rfl)⟩
      by_cases ha : a = id
      · subst ha
        cases internal with
        | false => exact absurd (by rw [hpc]; rfl) (h.alone.registering i data hprog)
        | true =>
            have hnone : (s.redis.agents.entry a).bind Entry.deadline = none := by rw [hentry]; rfl
            exact ⟨data.record a began true,
              entry_internal s.redis s.now data a began oldSkills hnone, rfl, rfl⟩
      · exact ⟨stored, (entry_registerPipeline s.redis s.now _ oldSkills a).trans
          ((if_neg ha).trans hentry), hstored, hstoredid⟩
  | @beat i newId id record' hprog hpc =>
      refine ⟨?_, honly, alone_over h.alone (.inl rfl)⟩
      have ha : a ≠ id := by
        rintro rfl
        simp only [Lasting, hprog, hpc] at hok
        rw [hok record hread] at hinternal
        cases hinternal
      exact ⟨stored, (entry_heartbeatPipeline s.redis s.now record' ha).trans hentry, hstored,
        hstoredid⟩
  | @ask i newId id hprog hpc =>
      refine ⟨h.entry, honly, alone_goto h.alone (fun _ _ => nofun) ?_ nofun⟩
      rintro skills hprog' -
      rw [hprog] at hprog'
      cases hprog'
      exact hkeep (by simp only [Recalls, hprog, hpc])
  | @remove i newId id skills hprog hpc =>
      refine ⟨?_, honly, alone_over h.alone (.inl rfl)⟩
      have ha : a ≠ id := by
        rintro rfl
        exact h.alone.leaving i skills hprog hpc
      refine ⟨stored, ?_, hstored, hstoredid⟩
      exact (Keyspace.entry_del s.redis.agents id a).trans (by rw [if_neg ha, hentry])
  | @delete i newId stale hpc =>
      refine ⟨⟨stored, ?_, hstored, hstoredid⟩, honly, alone_over h.alone (.inr rfl)⟩
      have hkept : a ∉ stale := h.alone.sweeping i stale hpc
      exact (Keyspace.entry_foldl_del s.redis.agents stale a).trans (by rw [if_neg hkept, hentry])
  | @visit i key stale hpc =>
      refine ⟨h.entry, honly, alone_goto h.alone (fun _ _ => nofun) (fun _ _ => nofun) ?_⟩
      rintro stale' heq
      cases heq
      have hold := h.alone.sweeping i stale hpc
      split
      · rename_i hstale
        rw [List.mem_append, List.mem_singleton, not_or]
        refine ⟨hold, ?_⟩
        rintro rfl
        simp [hread, isOnline, hinternal] at hstale
      · exact hold
  | @other _ i sets p hchosen hleaving hscanning =>
      refine ⟨h.entry, honly, alone_goto h.alone ?_ (fun skills _ => hleaving skills) ?_⟩
      · intro data _
        rw [hchosen]
        nofun
      · intro stale heq
        rw [hscanning stale heq]
        exact List.not_mem_nil

/-! ## Whole runs -/

/-- **Internal agents stay** listed until they are recalled, in a run in which their
records are stored under keys without a deadline, with no other call on them under way,
and get no heartbeats. -/
theorem permanent_of_lasting (cfg : Config) (prog : ℕ → Call) (acts : List Action)
    (hok : Run.Along (step cfg prog) (Lasting prog) init acts) : Permanent cfg prog acts := by
  rintro before act between after s u t a endpoint rfl hs hstores hu ht hkeep
  have hone : OneEndpoint prog s :=
    Run.exec_invariant (fun _ _ _ => oneEndpoint_step) oneEndpoint_init (Run.along_of_append hok) hs
  obtain ⟨hact, hrest⟩ := Run.along_cons (Run.along_suffix hok hs) hu
  have hlasts : Lasts prog a endpoint u := lasts_store hone hact hstores hu
  have hboth := (Run.along_of_append hrest).and hkeep
  exact (Run.exec_invariant (fun _ _ _ h hok hstep => lasts_step h hok.1 hok.2 hstep) hlasts hboth
    ht).listed

/-- The agent of a file, and whatever else is called. -/
def declared (rest : Call) : ℕ → Call
  | 0 => .register { name := "builtin", endpoint := "internal://ui", instanceId := "9d4f" } true
  | _ => rest

/-- A sweep, long after the registration. -/
theorem permanent_swept :
    Permanent thirty (declared .healthSweep)
      [.next 0 "a1", .next 0 "", .tick 100, .next 1 "", .visit 1 "a1", .next 1 ""] := by
  have hfresh : ∀ endpoint, ¬ Claims (declared .healthSweep) init endpoint "a1" := by
    rintro endpoint (hindex | hway)
    · cases hindex
    · exact not_inUse_init (Or.inr (Or.inr hway))
  have halone : ∀ s : Sys, (∀ i stale, s.pc i ≠ .scanning stale) →
      Alone (declared .healthSweep) s "a1" := by
    intro s hscanning
    refine ⟨fun i data hprog => ?_, fun i skills hprog => ?_, fun i stale hpc =>
      absurd hpc (hscanning i stale)⟩ <;> cases i <;> cases hprog
  refine permanent_of_lasting _ _ _ (.cons (fun _ => ⟨rfl, hfresh⟩) rfl
    (.cons ⟨rfl, halone _ ?_⟩ rfl ⟨trivial, trivial, trivial, trivial, trivial⟩))
  intro i stale
  by_cases hi : i = 0 <;> simp [Sys.goto, init, hi]

/-- **A heartbeat makes an internal agent expire**: it sets a deadline. -/
theorem heartbeat_not_permanent :
    ¬ Permanent thirty (declared (.heartbeat "a1"))
      [.next 0 "a1", .next 0 "", .next 1 "", .next 1 "", .tick 31] := by
  intro h
  obtain ⟨record, hmem, -⟩ := h [.next 0 "a1"] (.next 0 "") [.next 1 "", .next 1 "", .tick 31] []
    _ _ _ "a1" "internal://ui" rfl rfl ⟨_, _, _, rfl, rfl, rfl⟩ rfl rfl
    ⟨nofun, nofun, nofun, trivial⟩
  cases hmem

end Permanence
end Registry
end AgentSwarm
