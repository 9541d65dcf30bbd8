import AgentSwarm.Registry.Registry
import AgentSwarm.Lib.Run

/-!
# The skill index and the records

`find_by_skill` looks into the skill sets, `list_agents` into the records.  The
methods keep the two in step, but a skill set has one deadline for all of its
members, and `register` takes an agent out of its old sets only if its old
record is still there to name them.

* `State`, `Op`, `perform` — the registry under methods that run one after
  another, with time between them.
* `SkillsAgree` — the two queries agree.
* `Indexed` — the same, of the records and the sets themselves.
* `Sane` — what every run keeps: every record that is there is online.
* `IndexSafe` — the condition: no skill set expires before the records that list
  it, and no record is stored under an id which some set still has from a record
  that is gone.
* `skillsAgree_iff_indexSafe` — **the queries agree in every state of a run
  exactly when its operations are safe.**
-/

namespace AgentSwarm
namespace Registry

/-- The server and the time. -/
structure State where
  redis : Redis
  now : ℕ

/-- A method call, or the passage of time. -/
inductive Op where
  | register (data : AgentData) (internal : Bool) (newId : String)
  | heartbeat (agentId : String)
  | deregister (agentId : String)
  | healthSweep
  | tick (dt : ℕ)

/-- `uuid4` has never given the id before: no record and no skill set has it. -/
def Redis.Fresh (r : Redis) (newId : String) : Prop :=
  r.agents.read newId = none ∧ ∀ skill ∈ r.skillIndex.keys, newId ∉ r.skillIndex.members skill

instance (r : Redis) (newId : String) : Decidable (r.Fresh newId) :=
  have : Decidable (r.agents.read newId = none) :=
    decidable_of_iff ((r.agents.read newId).isNone = true) Option.isNone_iff_eq_none
  inferInstanceAs (Decidable (_ ∧ _))

variable (cfg : Config)

/-- One operation. -/
def perform (s : State) : Op → Option State
  | .register data internal newId =>
      if s.redis.endpointIndex.read data.endpoint = none → s.redis.Fresh newId then
        some { s with redis := s.redis.register cfg s.now data internal newId }
      else none
  | .heartbeat agentId => some { s with redis := s.redis.heartbeat cfg s.now agentId }
  | .deregister agentId => some { s with redis := s.redis.deregister agentId }
  | .healthSweep => some { s with redis := (s.redis.healthSweep cfg s.now).2 }
  | .tick dt => some ⟨s.redis.tick (s.now + dt), s.now + dt⟩

/-- `find_by_skill` returns exactly the agents of `list_agents` whose record lists
the skill. -/
def SkillsAgree (s : State) : Prop :=
  ∀ skill record, record ∈ s.redis.findBySkill cfg s.now skill ↔
    record ∈ s.redis.listAgents cfg s.now ∧ skill ∈ record.skills

/-- The condition on an operation.  A registration that uses an id again finds its
record, or lists every skill that the id is still indexed for.  The passage of
time does not delete a skill set that a record which stays lists. -/
def IndexSafe (s : State) : Op → Prop
  | .register data _ _ =>
      ∀ agentId, s.redis.endpointIndex.read data.endpoint = some agentId →
        s.redis.agents.read agentId = none →
          ∀ skill, agentId ∈ s.redis.skillIndex.members skill → skill ∈ data.skillList
  | .tick dt =>
      ∀ agentId record skill, (s.redis.tick (s.now + dt)).agents.read agentId = some record →
        skill ∈ record.skills → ¬ (s.redis.skillIndex.entry skill).any (·.expired (s.now + dt))
  | _ => True

/-! ## Records and sets -/

/-- The skill sets are those of the records. -/
structure Indexed (r : Redis) : Prop where
  sound : ∀ id record skill, r.agents.read id = some record →
    id ∈ r.skillIndex.members skill → skill ∈ record.skills
  complete : ∀ id record skill, r.agents.read id = some record →
    skill ∈ record.skills → id ∈ r.skillIndex.members skill

/-- The entry is under the id of its record, has not expired, and belongs to an
internal agent or expires before the record counts as offline. -/
structure EntrySane (now : ℕ) (id : String) (e : Entry AgentRecord) : Prop where
  id_eq : e.value.id = id
  alive : e.expired now = false
  inTime : e.value.internal = true ∨
    ∃ deadline, e.deadline = some deadline ∧ deadline < e.value.lastSeen + cfg.heartbeatTtl * 2

/-- Every entry of the agent keys is sane. -/
def Sane (s : State) : Prop :=
  ∀ id e, s.redis.agents.entry id = some e → EntrySane cfg s.now id e

variable {cfg} {s t : State} {r : Redis}

theorem read_eq_some_iff {id : String} {record : AgentRecord} :
    r.agents.read id = some record ↔ ∃ e, r.agents.entry id = some e ∧ e.value = record :=
  Option.map_eq_some_iff

/-- **Every record is online.** -/
theorem Sane.online (h : Sane cfg s) {id : String} {record : AgentRecord}
    (hread : s.redis.agents.read id = some record) : isOnline cfg s.now record = true := by
  obtain ⟨e, he, rfl⟩ := read_eq_some_iff.1 hread
  have halive := (h id e he).alive
  rw [isOnline, Bool.or_eq_true]
  rcases (h id e he).inTime with hinternal | ⟨deadline, hdeadline, hlt⟩
  · exact .inl hinternal
  · refine .inr (decide_eq_true ?_)
    simp only [Entry.expired, hdeadline, decide_eq_false_iff_not, Nat.not_lt] at halive
    omega

theorem Sane.fetch (h : Sane cfg s) (ids : List String) (record : AgentRecord) :
    record ∈ s.redis.fetch cfg s.now ids ↔
      ∃ id ∈ ids, ∃ stored, s.redis.agents.read id = some stored ∧
        withStatus cfg s.now stored = record := by
  simp only [Redis.fetch, List.mem_filter, List.mem_map, List.mem_filterMap, decide_eq_true_eq]
  constructor
  · rintro ⟨⟨stored, ⟨id, hid, hread⟩, rfl⟩, -⟩
    exact ⟨id, hid, stored, hread, rfl⟩
  · rintro ⟨id, hid, stored, hread, rfl⟩
    exact ⟨⟨stored, ⟨id, hid, hread⟩, rfl⟩, by simp [withStatus, h.online hread]⟩

/-- The queries agree exactly when the sets are those of the records. -/
theorem Sane.skillsAgree_iff (h : Sane cfg s) : SkillsAgree cfg s ↔ Indexed s.redis := by
  have hkeys : ∀ id record, s.redis.agents.read id = some record → id ∈ s.redis.agents.keys := by
    intro id record hread
    have hsome : (s.redis.agents.read id).isSome := by simp [hread]
    exact (Keyspace.read_isSome_iff_mem_keys _ id).1 hsome
  constructor
  · intro hagree
    constructor
    · intro id record skill hread hmem
      have hfound : withStatus cfg s.now record ∈ s.redis.findBySkill cfg s.now skill :=
        (h.fetch _ _).2 ⟨id, hmem, record, hread, rfl⟩
      exact ((hagree skill (withStatus cfg s.now record)).1 hfound).2
    · intro id record skill hread hskill
      have hlisted : withStatus cfg s.now record ∈ s.redis.listAgents cfg s.now :=
        (h.fetch _ _).2 ⟨id, hkeys id record hread, record, hread, rfl⟩
      have hfound : withStatus cfg s.now record ∈ s.redis.findBySkill cfg s.now skill :=
        (hagree skill (withStatus cfg s.now record)).2 ⟨hlisted, hskill⟩
      obtain ⟨id', hmem, record', hread', heq⟩ := (h.fetch _ _).1 hfound
      obtain ⟨e, he, rfl⟩ := read_eq_some_iff.1 hread
      obtain ⟨e', he', rfl⟩ := read_eq_some_iff.1 hread'
      have hid : e'.value.id = e.value.id := by
        simpa [withStatus] using congrArg AgentRecord.id heq
      rw [(h id e he).id_eq, (h id' e' he').id_eq] at hid
      exact hid ▸ hmem
  · intro hindexed skill record
    rw [Redis.findBySkill, Redis.listAgents, h.fetch, h.fetch]
    constructor
    · rintro ⟨id, hmem, stored, hread, rfl⟩
      exact ⟨⟨id, hkeys id stored hread, stored, hread, rfl⟩, hindexed.sound id stored skill hread hmem⟩
    · rintro ⟨⟨id, -, stored, hread, rfl⟩, hskill⟩
      exact ⟨id, hindexed.complete id stored skill hread hskill, stored, hread, rfl⟩

/-! ## The methods on the sets -/

/-- **Registration.**  The sets are those of the records afterwards exactly when
every set that had the id before was listed by its old record, or is by its new
one. -/
theorem indexed_registerAs (h : Indexed r) (now : ℕ) (data : AgentData) (internal : Bool)
    (agentId : String) :
    Indexed (r.registerAs cfg now data internal agentId (r.skillsOf agentId)) ↔
      ∀ skill, agentId ∈ r.skillIndex.members skill →
        skill ∈ r.skillsOf agentId ∨ skill ∈ data.skillList := by
  have hread : ∀ id, (r.registerAs cfg now data internal agentId (r.skillsOf agentId)).agents.read id
      = if id = agentId then some (data.record agentId now internal) else r.agents.read id :=
    read_registerPipeline _ _ _
  have hmem : ∀ skill id,
      id ∈ (r.registerAs cfg now data internal agentId (r.skillsOf agentId)).skillIndex.members skill
        ↔ (id ∈ r.skillIndex.members skill ∧ ¬ (skill ∈ r.skillsOf agentId ∧ id = agentId)) ∨
          (skill ∈ data.skillList ∧ id = agentId) :=
    mem_registerPipeline _ _ _
  constructor
  · intro hindexed skill hin
    by_contra hnot
    rw [not_or] at hnot
    obtain ⟨hold, hnew⟩ := hnot
    have hrecord : (r.registerAs cfg now data internal agentId (r.skillsOf agentId)).agents.read
        agentId = some (data.record agentId now internal) := by
      rw [hread, if_pos rfl]
    have hstill : agentId ∈ (r.registerAs cfg now data internal agentId
        (r.skillsOf agentId)).skillIndex.members skill :=
      (hmem skill agentId).2 (.inl ⟨hin, fun hskill => hold hskill.1⟩)
    exact hnew (hindexed.sound agentId _ skill hrecord hstill)
  · intro hold
    constructor
    · intro id record skill hrecord hin
      rw [hread] at hrecord
      rw [hmem] at hin
      split at hrecord
      · rename_i hid
        cases hrecord
        subst hid
        rcases hin with ⟨hin, hnot⟩ | ⟨hskill, -⟩
        · exact (hold skill hin).resolve_left fun hskill => hnot ⟨hskill, rfl⟩
        · exact hskill
      · rename_i hid
        rcases hin with ⟨hin, -⟩ | ⟨-, heq⟩
        · exact h.sound id record skill hrecord hin
        · exact absurd heq hid
    · intro id record skill hrecord hskill
      rw [hread] at hrecord
      rw [hmem]
      split at hrecord
      · rename_i hid
        cases hrecord
        exact .inr ⟨hskill, hid⟩
      · rename_i hid
        exact .inl ⟨h.complete id record skill hrecord hskill, fun heq => hid heq.2⟩

theorem Redis.Fresh.not_mem {newId : String} (h : r.Fresh newId) (skill : String) :
    newId ∉ r.skillIndex.members skill := by
  intro hin
  refine h.2 skill ?_ hin
  rw [← Keyspace.read_isSome_iff_mem_keys]
  rw [Keyspace.members] at hin
  cases hread : r.skillIndex.read skill with
  | none => simp [hread] at hin
  | some ids => rfl

/-- The id that a registration uses, and that it takes the old skills of that id
out of the index. -/
theorem register_eq {now : ℕ} {data : AgentData} {internal : Bool} {newId : String}
    (hfresh : r.endpointIndex.read data.endpoint = none → r.Fresh newId) :
    r.register cfg now data internal newId =
      r.registerAs cfg now data internal ((r.endpointIndex.read data.endpoint).getD newId)
        (r.skillsOf ((r.endpointIndex.read data.endpoint).getD newId)) := by
  unfold Redis.register
  cases hindex : r.endpointIndex.read data.endpoint with
  | some agentId => rfl
  | none =>
      have hnone : r.skillsOf newId = [] := by simp [Redis.skillsOf, (hfresh hindex).1]
      simp [hnone]

theorem indexed_heartbeat (h : Indexed r) (now : ℕ) (agentId : String) :
    Indexed (r.heartbeat cfg now agentId) := by
  unfold Redis.heartbeat
  split
  · exact h
  · rename_i old hold
    have hmem : ∀ skill id, id ∈ (r.heartbeatPipeline cfg now agentId
        { old with lastHeartbeat := now }).skillIndex.members skill ↔
        id ∈ r.skillIndex.members skill := by
      intro skill id
      simp [Redis.heartbeatPipeline]
    -- the record that is written back lists the skills of the one that was read
    have hskills : ∀ id record, (r.heartbeatPipeline cfg now agentId
        { old with lastHeartbeat := now }).agents.read id = some record →
        ∃ before, r.agents.read id = some before ∧ before.skills = record.skills := by
      intro id record hread
      rw [read_heartbeatPipeline] at hread
      split at hread
      · rename_i hid
        cases hread
        exact ⟨old, hid ▸ hold, rfl⟩
      · exact ⟨record, hread, rfl⟩
    constructor
    · intro id record skill hread hin
      obtain ⟨before, hbefore, heq⟩ := hskills id record hread
      exact heq ▸ h.sound id before skill hbefore ((hmem skill id).1 hin)
    · intro id record skill hread hskill
      obtain ⟨before, hbefore, heq⟩ := hskills id record hread
      exact (hmem skill id).2 (h.complete id before skill hbefore (heq ▸ hskill))

theorem indexed_deregister (h : Indexed r) (agentId : String) : Indexed (r.deregister agentId) := by
  have hread : ∀ id record, (r.deregister agentId).agents.read id = some record →
      id ≠ agentId ∧ r.agents.read id = some record := by
    intro id record hread
    rw [Redis.deregister, read_deregisterPipeline] at hread
    split at hread
    · cases hread
    · exact ⟨‹_›, hread⟩
  have hmem : ∀ skill id, id ∈ (r.deregister agentId).skillIndex.members skill ↔
      id ∈ r.skillIndex.members skill ∧ ¬ (skill ∈ r.skillsOf agentId ∧ id = agentId) := by
    intro skill id
    exact Keyspace.mem_sremAll _ _ _ _ _
  constructor
  · intro id record skill hrecord hin
    exact h.sound id record skill (hread id record hrecord).2 ((hmem skill id).1 hin).1
  · intro id record skill hrecord hskill
    obtain ⟨hne, hrecord⟩ := hread id record hrecord
    exact (hmem skill id).2 ⟨h.complete id record skill hrecord hskill, fun heq => hne heq.2⟩

theorem removeOrphans_spec (r : Redis) (skills : List String) :
    (r.removeOrphans skills).2.agents = r.agents ∧
      ∀ skill id, id ∈ (r.removeOrphans skills).2.skillIndex.members skill ↔
        id ∈ r.skillIndex.members skill ∧ (skill ∈ skills → (r.agents.read id).isSome) := by
  induction skills generalizing r with
  | nil => simp [Redis.removeOrphans]
  | cons k skills ih =>
      obtain ⟨hagents, hmem⟩ := ih
        { r with skillIndex := r.skillIndex.sremMembers k (r.orphans k) }
      refine ⟨hagents, ?_⟩
      intro skill id
      rw [Redis.removeOrphans]
      dsimp only at hmem ⊢
      rw [hmem, Keyspace.mem_sremMembers, Redis.orphans, List.mem_filter]
      simp only [List.mem_cons]
      by_cases hk : skill = k
      · subst hk
        by_cases hsome : (r.agents.read id).isSome = true <;> simp [hsome]
      · simp [hk]

/-- A sweep finds no stale record. -/
theorem healthSweep_eq (hs : Sane cfg s) :
    (s.redis.healthSweep cfg s.now).2 = (s.redis.removeOrphans s.redis.skillIndex.keys).2 := by
  have hstale : s.redis.stale cfg s.now = [] := by
    refine List.filter_eq_nil_iff.2 ?_
    intro id _
    cases hread : s.redis.agents.read id with
    | none => simp
    | some record => simp [hs.online hread]
  simp [Redis.healthSweep, hstale]

/-- A sweep removes no member that has a record. -/
theorem indexed_removeOrphans (h : Indexed r) (skills : List String) :
    Indexed (r.removeOrphans skills).2 := by
  obtain ⟨hagents, hmem⟩ := removeOrphans_spec r skills
  constructor
  · intro id record skill hread hin
    rw [hagents] at hread
    exact h.sound id record skill hread ((hmem skill id).1 hin).1
  · intro id record skill hread hskill
    rw [hagents] at hread
    exact (hmem skill id).2 ⟨h.complete id record skill hread hskill, fun _ => by simp [hread]⟩

/-- **The passage of time.**  The sets stay those of the records exactly when none
of them expires that a record which stays lists. -/
theorem indexed_tick (h : Indexed r) (now : ℕ) :
    Indexed (r.tick now) ↔ ∀ agentId record skill, (r.tick now).agents.read agentId = some record →
      skill ∈ record.skills → ¬ (r.skillIndex.entry skill).any (·.expired now) := by
  have hmem : ∀ skill id, id ∈ (r.tick now).skillIndex.members skill ↔
      ¬ (r.skillIndex.entry skill).any (·.expired now) ∧ id ∈ r.skillIndex.members skill := by
    intro skill id
    rw [Keyspace.members, Redis.tick, Keyspace.members_tick]
    by_cases hexp : (r.skillIndex.entry skill).any (·.expired now) = true <;>
      simp [hexp, Keyspace.members]
  constructor
  · intro hindexed id record skill hread hskill
    exact ((hmem skill id).1 (hindexed.complete id record skill hread hskill)).1
  · intro hkept
    constructor
    · intro id record skill hread hin
      have hbefore : r.agents.read id = some record := Keyspace.read_of_read_tick _ hread
      exact h.sound id record skill hbefore ((hmem skill id).1 hin).2
    · intro id record skill hread hskill
      have hbefore : r.agents.read id = some record := Keyspace.read_of_read_tick _ hread
      exact (hmem skill id).2 ⟨hkept id record skill hread hskill,
        h.complete id record skill hbefore hskill⟩

/-! ## The methods on the deadlines -/

theorem sane_register (h : Sane cfg s) (data : AgentData) (internal : Bool) (agentId : String)
    (oldSkills : List String) :
    Sane cfg { s with redis := s.redis.registerAs cfg s.now data internal agentId oldSkills } := by
  have hpos := cfg.heartbeatTtl_pos
  intro id e he
  cases internal
  case false =>
      simp only [Redis.registerAs, Redis.registerPipeline, AgentData.record, Bool.false_eq_true,
        if_false, Keyspace.entry_expire, Keyspace.entry_write, if_true] at he
      split at he
      · cases he
        refine ⟨by simp [*], ?_, .inr ⟨_, rfl, ?_⟩⟩
        · simp [Entry.expired]
        · simp only [AgentRecord.lastSeen, ite_self]
          omega
      · exact h id e he
  case true =>
      simp only [Redis.registerAs, Redis.registerPipeline, AgentData.record, if_true,
        Keyspace.entry_write] at he
      split at he
      · rename_i hid
        cases he
        refine ⟨by simp [hid], ?_, .inl rfl⟩
        cases hold : s.redis.agents.entry agentId with
        | none => simp [Entry.expired]
        | some old => simpa [Entry.expired] using (h agentId old hold).alive
      · exact h id e he

theorem sane_heartbeat (h : Sane cfg s) (agentId : String) :
    Sane cfg { s with redis := s.redis.heartbeat cfg s.now agentId } := by
  have hpos := cfg.heartbeatTtl_pos
  intro id e he
  simp only [Redis.heartbeat] at he
  split at he
  · exact h id e he
  · rename_i old hold
    obtain ⟨before, hbefore, rfl⟩ := read_eq_some_iff.1 hold
    simp only [Redis.heartbeatPipeline, Keyspace.entry_expire, Keyspace.entry_write, if_true] at he
    split at he
    · rename_i hid
      cases he
      refine ⟨by simp [hid, (h agentId before hbefore).id_eq], by simp [Entry.expired], .inr
        ⟨_, rfl, ?_⟩⟩
      simp only [AgentRecord.lastSeen]
      split <;> omega
    · exact h id e he

/-- **One step.**  Every operation keeps the entries sane. -/
theorem sane_perform (h : Sane cfg s) {op : Op} (hop : perform cfg s op = some t) : Sane cfg t := by
  cases op with
  | register data internal newId =>
      rw [perform] at hop
      split at hop
      · cases hop
        rw [register_eq ‹_›]
        exact sane_register h _ _ _ _
      · cases hop
  | heartbeat agentId =>
      cases hop
      exact sane_heartbeat h agentId
  | deregister agentId =>
      cases hop
      intro id e he
      simp only [Redis.deregister, Redis.deregisterPipeline, Keyspace.entry_del] at he
      split at he
      · cases he
      · exact h id e he
  | healthSweep =>
      cases hop
      intro id e he
      simp only [healthSweep_eq h, (removeOrphans_spec _ _).1] at he
      exact h id e he
  | tick dt =>
      cases hop
      intro id e he
      simp only [Redis.tick, Keyspace.entry_tick, Option.filter_eq_some_iff] at he
      obtain ⟨he, halive⟩ := he
      exact ⟨(h id e he).id_eq, by simpa using halive, (h id e he).inTime⟩

/-! ## Whole runs -/

/-- **One step, exactly.**  After an operation the sets are those of the records
if and only if the operation was safe. -/
theorem indexed_perform_iff (hs : Sane cfg s) (h : Indexed s.redis) {op : Op}
    (hop : perform cfg s op = some t) : Indexed t.redis ↔ IndexSafe s op := by
  cases op with
  | register data internal newId =>
      rw [perform] at hop
      split at hop
      · rename_i hfresh
        cases hop
        rw [register_eq hfresh, indexed_registerAs h]
        cases hindex : s.redis.endpointIndex.read data.endpoint with
        | some agentId =>
            rw [Option.getD_some]
            constructor
            · intro hold agentId' hindex' hgone skill hin
              obtain rfl : agentId = agentId' := Option.some.inj (hindex ▸ hindex')
              simpa [Redis.skillsOf, hgone] using hold skill hin
            · intro hsafe skill hin
              cases hread : s.redis.agents.read agentId with
              | none => exact .inr (hsafe agentId hindex hread skill hin)
              | some record =>
                  refine .inl ?_
                  simpa [Redis.skillsOf, hread] using h.sound agentId record skill hread hin
        | none =>
            have hnew : Redis.Fresh s.redis newId := hfresh hindex
            refine iff_of_true ?_ ?_
            · intro skill hin
              exact absurd hin (hnew.not_mem skill)
            · intro agentId hsome
              rw [hindex] at hsome
              cases hsome
      · cases hop
  | heartbeat agentId =>
      cases hop
      exact iff_of_true (indexed_heartbeat h _ _) trivial
  | deregister agentId =>
      cases hop
      exact iff_of_true (indexed_deregister h _) trivial
  | healthSweep =>
      cases hop
      exact iff_of_true (healthSweep_eq hs ▸ indexed_removeOrphans h _) trivial
  | tick dt =>
      cases hop
      exact indexed_tick h _

/-- The server without keys at the time 0. -/
def start : State := ⟨.empty, 0⟩

theorem sane_start : Sane cfg start := by
  intro id e he
  simp [start, Redis.empty] at he

theorem indexed_start : Indexed start.redis := by
  constructor <;> intro id record skill hread <;> simp [start, Redis.empty] at hread

/-- An operation that is not possible is a registration with an id given before;
it uses no id again. -/
theorem indexSafe_of_none {op : Op} (h : perform cfg s op = none) : IndexSafe s op := by
  cases op with
  | register data internal newId =>
      rw [perform] at h
      split at h
      · cases h
      · rename_i hfresh
        intro agentId hindex
        refine absurd ?_ hfresh
        intro hnone
        rw [hnone] at hindex
        cases hindex
  | _ => cases h

/-- **The skill index.**  In a run of the registry `find_by_skill` agrees with
`list_agents` in every state if and only if every operation of the run is
safe. -/
theorem skillsAgree_iff_indexSafe (cfg : Config) (ops : List Op) :
    Run.Throughout (perform cfg) (SkillsAgree cfg) start ops ↔
      Run.Along (perform cfg) IndexSafe start ops := by
  refine Run.throughout_iff_along (B := Sane cfg) (fun _ _ _ hs hop => sane_perform hs hop) ?_
    (fun _ _ _ hnone => indexSafe_of_none hnone) sane_start
    (sane_start.skillsAgree_iff.2 indexed_start)
  intro s op t hs hagree hop
  rw [(sane_perform hs hop).skillsAgree_iff]
  exact indexed_perform_iff hs (hs.skillsAgree_iff.1 hagree) hop

/-! ## A declared agent that shares a skill -/

/-- An internal agent and an external one that share the skill `css`; the external
one stops, and time passes. -/
def sharedSkill : List Op :=
  [.register { name := "builtin", endpoint := "internal://ui", instanceId := "9d4f"
               skills := some ["css"] } true "a1",
   .register { name := "painter", endpoint := "http://painter:9000", instanceId := "07be"
               skills := some ["css"] } false "b2",
   .tick 61]

/-- **A shared skill set expires.**  The internal agent never expires, but the
skill set got the deadline of the external one: `find_by_skill` finds nobody. -/
theorem shared_skill_expires :
    ¬ Run.Throughout (perform ⟨30, by decide⟩) (SkillsAgree ⟨30, by decide⟩) start sharedSkill := by
  intro h
  have hfound := ((h.last rfl) "css" _).2 ⟨List.mem_cons_self, by decide⟩
  exact absurd hfound List.not_mem_nil

end Registry
end AgentSwarm
