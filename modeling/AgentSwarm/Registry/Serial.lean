import AgentSwarm.Registry.Endpoint

/-!
# A heartbeat and another call

`heartbeat` reads the whole record of its agent and writes it back in a pipeline of its
own.  Between the two the agent may register again, or be deregistered.

* `SameAgents` — the same records and skill sets, times and deadlines aside.
* `Other`, `Turn`, `turn` — the call beside the heartbeat, and the steps of the two.
* `Serialised` — the outcome is that of one of the two orders.
* `Unchanged` — the condition: the heartbeat finds the record that it has read.
* `Under` — the invariant.
* `serialised_iff_unchanged` — the two are serialised **exactly** in the interleavings that
  meet the condition.

No key expires while the two are under way.
-/

namespace AgentSwarm
namespace Registry
namespace Serial

/-- The record without its times.  A new registration has a new `instance_id`, so its record
is another one even if the agent sends the same data. -/
def untimed (record : AgentRecord) : AgentRecord :=
  { record with registeredAt := 0, lastHeartbeat := 0 }

/-- The records are the same but for their times, and the members of the skill sets. -/
structure SameAgents (r r' : Redis) : Prop where
  records : ∀ id, (r.agents.read id).map untimed = (r'.agents.read id).map untimed
  members : ∀ skill id, id ∈ r.skillIndex.members skill ↔ id ∈ r'.skillIndex.members skill

/-- The call beside the heartbeat of `a`. -/
inductive Other where
  | register (data : AgentData) (internal : Bool)
  | deregister

/-- The call as one on the registry. -/
def Other.call (a : String) : Other → Call
  | .register data internal => .register data internal
  | .deregister => .deregister a

/-- The two calls. -/
def both (a : String) (other : Other) : ℕ → Call
  | 0 => .heartbeat a
  | _ => other.call a

/-- Whose turn it is, or how much time passes. -/
inductive Turn where
  | heartbeat
  | other
  | time (dt : ℕ)

/-- No key has expired by then. -/
def Quiet (r : Redis) (now : ℕ) : Prop :=
  (∀ p ∈ r.agents.entries, p.2.expired now = false) ∧
    (∀ p ∈ r.endpointIndex.entries, p.2.expired now = false) ∧
    ∀ p ∈ r.skillIndex.entries, p.2.expired now = false

instance (r : Redis) (now : ℕ) : Decidable (Quiet r now) := inferInstanceAs (Decidable (_ ∧ _ ∧ _))

variable (cfg : Config) (a : String) (other : Other) (newId : String)

/-- One command or pipeline of one of the two, or time in which no key expires.
`newId` is what `uuid4` gives. -/
def turn (s : Sys) : Turn → Option Sys
  | .heartbeat => step cfg (both a other) s (.next 0 newId)
  | .other => step cfg (both a other) s (.next 1 newId)
  | .time dt => if Quiet s.redis (s.now + dt) then step cfg (both a other) s (.tick dt) else none

/-- Before the two calls. -/
def begun (r : Redis) (now : ℕ) : Sys := ⟨r, now, fun _ => .start⟩

/-- The other call by itself. -/
def Other.run (r : Redis) (now : ℕ) : Redis :=
  match other with
  | .register data internal => r.register cfg now data internal newId
  | .deregister => r.deregister a

/-- The outcome of one of the two orders. -/
def Serialised (r : Redis) (now : ℕ) (s : Sys) : Prop :=
  SameAgents s.redis (other.run cfg a newId (r.heartbeat cfg now a) now) ∨
    SameAgents s.redis ((other.run cfg a newId r now).heartbeat cfg now a)

/-- The heartbeat writes back what it finds, times aside. -/
def Unchanged (s : Sys) (t : Turn) : Prop :=
  match t, s.pc 0 with
  | .heartbeat, .beating record => (s.redis.agents.read a).map untimed = some (untimed record)
  | _, _ => True

/-! ## Views -/

variable {cfg a other newId} {r r' r'' : Redis}

theorem SameAgents.refl (r : Redis) : SameAgents r r := ⟨fun _ => rfl, fun _ _ => Iff.rfl⟩

theorem SameAgents.symm (h : SameAgents r r') : SameAgents r' r :=
  ⟨fun id => (h.records id).symm, fun skill id => (h.members skill id).symm⟩

theorem SameAgents.trans (h : SameAgents r r') (h' : SameAgents r' r'') : SameAgents r r'' :=
  ⟨fun id => (h.records id).trans (h'.records id),
    fun skill id => (h.members skill id).trans (h'.members skill id)⟩

theorem SameAgents.skillsOf (h : SameAgents r r') (id : String) : r.skillsOf id = r'.skillsOf id := by
  have hskills : ∀ o : Option AgentRecord,
      (o.map AgentRecord.skills).getD [] = ((o.map untimed).map AgentRecord.skills).getD [] := by
    intro o
    cases o <;> rfl
  rw [Redis.skillsOf, Redis.skillsOf, hskills, h.records id, ← hskills]

/-- Time in which no key expires. -/
theorem sameAgents_tick {now : ℕ} (h : Quiet r now) : SameAgents (r.tick now) r := by
  have hread (V : Type) (ks : Keyspace V) (hks : ∀ p ∈ ks.entries, p.2.expired now = false)
      (k : String) : (ks.tick now).read k = ks.read k := by
    rw [Keyspace.read_tick]
    cases hentry : ks.entry k with
    | none => rfl
    | some e => simp [hks (k, e) (Dict.mem_of_get hentry)]
  refine ⟨fun id => by rw [Redis.tick, hread _ _ h.1], fun skill id => ?_⟩
  rw [Keyspace.members, Redis.tick, hread _ _ h.2.2, ← Keyspace.members]

theorem sameAgents_registerPipeline (h : SameAgents r r') {now now' : ℕ}
    {record record' : AgentRecord} (hrecord : untimed record = untimed record')
    (oldSkills : List String) :
    SameAgents (r.registerPipeline cfg now record oldSkills)
      (r'.registerPipeline cfg now' record' oldSkills) := by
  have hid : (untimed record).id = (untimed record').id := congrArg _ hrecord
  have hskills : (untimed record).skills = (untimed record').skills := congrArg _ hrecord
  change record.id = record'.id at hid
  change record.skills = record'.skills at hskills
  refine ⟨fun id => ?_, fun skill id => ?_⟩
  · rw [read_registerPipeline, read_registerPipeline, hid]
    split
    · exact congrArg some hrecord
    · exact h.records id
  · rw [mem_registerPipeline, mem_registerPipeline, h.members, hid, hskills]

/-- The same for the records of a registration, whenever it was called. -/
theorem sameAgents_store (h : SameAgents r r') (data : AgentData) (internal : Bool) (id : String)
    (now now' began began' : ℕ) (oldSkills : List String) :
    SameAgents (r.registerPipeline cfg now (data.record id began internal) oldSkills)
      (r'.registerPipeline cfg now' (data.record id began' internal) oldSkills) := by
  have hrecord : untimed (data.record id began internal) =
      untimed (data.record id began' internal) := rfl
  exact sameAgents_registerPipeline h hrecord oldSkills

theorem sameAgents_deregisterPipeline (h : SameAgents r r') (id : String) (skills : List String) :
    SameAgents (r.deregisterPipeline id skills) (r'.deregisterPipeline id skills) := by
  refine ⟨fun id' => ?_, fun skill id' => ?_⟩
  · rw [read_deregisterPipeline, read_deregisterPipeline]
    split
    · rfl
    · exact h.records id'
  · rw [Redis.deregisterPipeline, Redis.deregisterPipeline, Keyspace.mem_sremAll,
      Keyspace.mem_sremAll, h.members]

/-- **What the heartbeat writes back** is what was there exactly if it is what it
found. -/
theorem sameAgents_heartbeatPipeline (now : ℕ) (id : String) (record : AgentRecord) :
    SameAgents (r.heartbeatPipeline cfg now id record) r ↔
      (r.agents.read id).map untimed = some (untimed record) := by
  have hread : ((r.heartbeatPipeline cfg now id record).agents.read id).map untimed =
      some (untimed record) := by
    rw [read_heartbeatPipeline, if_pos rfl]
    rfl
  constructor
  · intro h
    rw [← h.records id, hread]
  · intro h
    refine ⟨fun id' => ?_, fun skill id' => ?_⟩
    · by_cases hid : id' = id
      · rw [hid, hread, h]
      · rw [read_heartbeatPipeline, if_neg hid]
    · rw [Redis.heartbeatPipeline, Keyspace.members_expireAll]

/-- A heartbeat by itself changes times and deadlines only. -/
theorem sameAgents_heartbeat (r : Redis) (now : ℕ) (id : String) :
    SameAgents (r.heartbeat cfg now id) r := by
  unfold Redis.heartbeat
  split
  · exact SameAgents.refl r
  · rename_i record hread
    refine (sameAgents_heartbeatPipeline now id _).2 ?_
    rw [hread]
    rfl

theorem index_heartbeat (r : Redis) (now : ℕ) (id : String) :
    (r.heartbeat cfg now id).endpointIndex = r.endpointIndex := by
  unfold Redis.heartbeat
  split <;> rfl

/-- The other call does the same to the same agents. -/
theorem sameAgents_run (h : SameAgents r r') (hindex : r.endpointIndex = r'.endpointIndex)
    (now now' : ℕ) :
    SameAgents (other.run cfg a newId r now) (other.run cfg a newId r' now') := by
  cases other with
  | register data internal =>
      simp only [Other.run, Redis.register, hindex]
      split
      · rw [h.skillsOf]
        exact sameAgents_store h data internal _ now now' now now' _
      · exact sameAgents_store h data internal _ now now' now now' _
  | deregister =>
      simp only [Other.run, Redis.deregister]
      rw [h.skillsOf]
      exact sameAgents_deregisterPipeline h _ _

/-- Either order does what the other call does by itself. -/
theorem serialised_iff {now : ℕ} {s : Sys} :
    Serialised cfg a other newId r now s ↔ SameAgents s.redis (other.run cfg a newId r now) := by
  have hfirst : SameAgents (other.run cfg a newId (r.heartbeat cfg now a) now)
      (other.run cfg a newId r now) :=
    sameAgents_run (sameAgents_heartbeat r now a) (index_heartbeat r now a) now now
  have hlast : SameAgents ((other.run cfg a newId r now).heartbeat cfg now a)
      (other.run cfg a newId r now) := sameAgents_heartbeat _ now a
  constructor
  · rintro (h | h)
    · exact h.trans hfirst
    · exact h.trans hlast
  · exact fun h => Or.inl (h.trans hfirst.symm)

/-! ## The invariant -/

/-- What the other call has read is what was there at the beginning. -/
def Peer (other : Other) (a newId : String) (r : Redis) : Pc → Prop
  | .found id _ => ∀ data internal, other = .register data internal →
      r.endpointIndex.read data.endpoint = some id
  | .storing id _ oldSkills => ∀ data internal, other = .register data internal →
      (r.endpointIndex.read data.endpoint = some id ∧ oldSkills = r.skillsOf id) ∨
        (r.endpointIndex.read data.endpoint = none ∧ id = newId ∧ oldSkills = [])
  | .leaving skills => skills = r.skillsOf a
  | _ => True

variable (cfg a other newId) in
/-- The agents as they should be: with the other call done or not. -/
def expected (r : Redis) (now : ℕ) (s : Sys) : Redis :=
  match s.pc 1 with
  | .done => other.run cfg a newId r now
  | _ => r

variable (cfg a other newId) in
/-- The agents are as they should be. -/
def Agrees (r : Redis) (now : ℕ) (s : Sys) : Prop :=
  SameAgents s.redis (expected cfg a other newId r now s)

variable (cfg a other newId) in
/-- What holds in every interleaving, from the beginning in `r` at `now`. -/
structure Under (r : Redis) (now : ℕ) (s : Sys) : Prop where
  index : s.pc 1 ≠ .done → ∀ endpoint,
    s.redis.endpointIndex.read endpoint = r.endpointIndex.read endpoint
  peer : Peer other a newId r (s.pc 1)
  /-- The heartbeat has read the record of the beginning, unless the other call is over. -/
  beating : s.pc 1 ≠ .done → ∀ record, s.pc 0 = .beating record →
    (r.agents.read a).map untimed = some (untimed record)
  agrees : ¬ (s.pc 0 = .done ∧ s.pc 1 = .done) → Agrees cfg a other newId r now s

variable {s t : Sys} {now : ℕ}

theorem expected_of_ne (h : s.pc 1 ≠ .done) : expected cfg a other newId r now s = r := by
  unfold expected
  split
  · rename_i hpc
    exact absurd hpc h
  · rfl

theorem expected_congr (h : t.pc 1 = s.pc 1) :
    expected cfg a other newId r now t = expected cfg a other newId r now s := by
  unfold expected
  rw [h]

theorem expected_of_done (h : s.pc 1 = .done) :
    expected cfg a other newId r now s = other.run cfg a newId r now := by
  unfold expected
  rw [h]

theorem under_begun (r : Redis) (now : ℕ) : Under cfg a other newId r now (begun r now) where
  index _ _ := rfl
  peer := trivial
  beating _ := nofun
  agrees _ := SameAgents.refl r

/-- Until the other call is over, nothing has changed. -/
theorem Under.same (h : Under cfg a other newId r now s) (hpc : s.pc 1 ≠ .done) :
    SameAgents s.redis r := by
  have hagrees : SameAgents s.redis (expected cfg a other newId r now s) :=
    h.agrees fun hdone => hpc hdone.2
  rwa [expected_of_ne hpc] at hagrees

/-- A turn of the other call: it looks at what was there at the beginning, or does what
it does by itself. -/
theorem other_turn (h : Under cfg a other newId r now s)
    (hstep : turn cfg a other newId s .other = some t) :
    s.pc 1 ≠ .done ∧
      ((∃ p, p ≠ .done ∧ Peer other a newId r p ∧ t = s.goto 1 p) ∨
        ∃ redis, SameAgents redis (other.run cfg a newId r now) ∧ t = s.put redis 1 .done) := by
  have hpeer := h.peer
  cases other with
  | register data internal =>
      have hprog : both a (.register data internal) 1 = .register data internal := rfl
      cases hpc : s.pc 1 with
      | start =>
          have hne : s.pc 1 ≠ .done := by simp [hpc]
          refine ⟨by simp, Or.inl ?_⟩
          simp only [turn, step, hprog, hpc, h.index hne] at hstep
          split at hstep <;> cases hstep
          · rename_i id hindex
            refine ⟨.found id s.now, by simp, ?_, rfl⟩
            rintro data' internal' heq
            cases heq
            exact hindex
          · rename_i hindex
            refine ⟨.storing newId s.now [], by simp, ?_, rfl⟩
            rintro data' internal' heq
            cases heq
            exact Or.inr ⟨hindex, rfl, rfl⟩
      | found id began =>
          have hne : s.pc 1 ≠ .done := by simp [hpc]
          rw [hpc] at hpeer
          simp only [turn, step, hprog, hpc] at hstep
          cases hstep
          refine ⟨by simp, Or.inl ⟨.storing id began (s.redis.skillsOf id), by simp, ?_, rfl⟩⟩
          rintro data' internal' heq
          cases heq
          exact Or.inl ⟨hpeer data internal rfl, (h.same hne).skillsOf id⟩
      | storing id began oldSkills =>
          have hne : s.pc 1 ≠ .done := by simp [hpc]
          rw [hpc] at hpeer
          simp only [turn, step, hprog, hpc] at hstep
          cases hstep
          refine ⟨by simp, Or.inr ⟨_, ?_, rfl⟩⟩
          rcases hpeer data internal rfl with ⟨hindex, rfl⟩ | ⟨hindex, rfl, rfl⟩
          · simp only [Other.run, Redis.register, hindex]
            exact sameAgents_store (h.same hne) data internal id _ _ _ _ _
          · simp only [Other.run, Redis.register, hindex]
            exact sameAgents_store (h.same hne) data internal id _ _ _ _ _
      | _ => simp [turn, step, hprog, hpc] at hstep
  | deregister =>
      have hprog : both a .deregister 1 = .deregister a := rfl
      cases hpc : s.pc 1 with
      | start =>
          have hne : s.pc 1 ≠ .done := by simp [hpc]
          simp only [turn, step, hprog, hpc] at hstep
          cases hstep
          exact ⟨by simp, Or.inl ⟨.leaving (s.redis.skillsOf a), by simp, (h.same hne).skillsOf a, rfl⟩⟩
      | leaving skills =>
          have hne : s.pc 1 ≠ .done := by simp [hpc]
          rw [hpc] at hpeer
          subst hpeer
          simp only [turn, step, hprog, hpc] at hstep
          cases hstep
          exact ⟨by simp, Or.inr ⟨_, sameAgents_deregisterPipeline (h.same hne) a _, rfl⟩⟩
      | _ => simp [turn, step, hprog, hpc] at hstep

/-- A turn of the heartbeat. -/
inductive Beat (cfg : Config) (a : String) (s : Sys) : Sys → Prop
  | misses (hpc : s.pc 0 = .start) : Beat cfg a s (s.goto 0 .done)
  | reads {record} (hpc : s.pc 0 = .start) (hread : s.redis.agents.read a = some record) :
      Beat cfg a s (s.goto 0 (.beating { record with lastHeartbeat := s.now }))
  | writes {record} (hpc : s.pc 0 = .beating record) :
      Beat cfg a s (s.put (s.redis.heartbeatPipeline cfg s.now a record) 0 .done)

theorem heartbeat_turn (hstep : turn cfg a other newId s .heartbeat = some t) : Beat cfg a s t := by
  have hprog : both a other 0 = .heartbeat a := rfl
  cases hpc : s.pc 0 with
  | start =>
      simp only [turn, step, hprog, hpc] at hstep
      split at hstep <;> cases hstep
      · exact .misses hpc
      · exact .reads hpc ‹_›
  | beating record =>
      simp only [turn, step, hprog, hpc] at hstep
      cases hstep
      exact .writes hpc
  | _ => simp [turn, step, hprog, hpc] at hstep

/-- Time in which no key expires. -/
theorem time_turn {dt : ℕ} (hstep : turn cfg a other newId s (.time dt) = some t) :
    Quiet s.redis (s.now + dt) ∧
      t = { s with redis := s.redis.tick (s.now + dt), now := s.now + dt } := by
  simp only [turn, step] at hstep
  split at hstep <;> cases hstep
  exact ⟨‹_›, rfl⟩

theorem goto_pc_of_ne (s : Sys) {i j : ℕ} (p : Pc) (h : j ≠ i) : (s.goto i p).pc j = s.pc j :=
  Function.update_of_ne h _ _

/-- Every turn keeps the invariant. -/
theorem under_turn {turn' : Turn} (h : Under cfg a other newId r now s)
    (hstep : turn cfg a other newId s turn' = some t) : Under cfg a other newId r now t := by
  cases turn' with
  | heartbeat =>
      cases heartbeat_turn hstep with
      | misses hpc =>
          have hkeep : Agrees cfg a other newId r now s := h.agrees fun hdone => by
            rw [hpc] at hdone
            cases hdone.1
          refine ⟨h.index, h.peer, fun hne record hbeating => ?_, fun _ => ?_⟩
          · simp [Sys.goto] at hbeating
          · rw [Agrees, expected_congr (goto_pc_of_ne s _ (by decide))]
            exact hkeep
      | @reads record hpc hread =>
          have hkeep : Agrees cfg a other newId r now s := h.agrees fun hdone => by
            rw [hpc] at hdone
            cases hdone.1
          refine ⟨h.index, h.peer, fun hne record' hbeating => ?_, fun _ => ?_⟩
          · have hrecord : record' = { record with lastHeartbeat := s.now } := by
              simpa [Sys.goto, eq_comm] using hbeating
            rw [hrecord, ← (h.same hne).records a, hread]
            rfl
          · rw [Agrees, expected_congr (goto_pc_of_ne s _ (by decide))]
            exact hkeep
      | @writes record hpc =>
          refine ⟨h.index, h.peer, fun hne record' hbeating => ?_, fun hnot => ?_⟩
          · simp [Sys.put, Sys.goto] at hbeating
          · have hne : s.pc 1 ≠ .done := fun hdone => hnot ⟨by simp [Sys.put, Sys.goto], hdone⟩
            have hnot' : (s.put (s.redis.heartbeatPipeline cfg s.now a record) 0 .done).pc 1 ≠ .done :=
              hne
            have hread := h.beating hne record hpc
            rw [← (h.same hne).records a] at hread
            rw [Agrees, expected_of_ne hnot']
            exact ((sameAgents_heartbeatPipeline s.now a record).2 hread).trans (h.same hne)
  | other =>
      obtain ⟨hne, ⟨p, hp, hpeer, rfl⟩ | ⟨redis, hsame, rfl⟩⟩ := other_turn h hstep
      · have hpc : (s.goto 1 p).pc 1 = p := by simp [Sys.goto]
        refine ⟨fun _ => h.index hne, by rwa [hpc], fun _ record hbeating => h.beating hne record ?_,
          fun _ => ?_⟩
        · rwa [goto_pc_of_ne s p (by decide)] at hbeating
        · rw [Agrees, expected_of_ne (by rwa [hpc])]
          exact h.same hne
      · have hpc : (s.put redis 1 .done).pc 1 = .done := by simp [Sys.put, Sys.goto]
        refine ⟨fun hnot => absurd hpc hnot, by rw [hpc]; trivial,
          fun hnot => absurd hpc hnot, fun _ => ?_⟩
        rw [Agrees, expected_of_done hpc]
        exact hsame
  | time dt =>
      obtain ⟨hquiet, rfl⟩ := time_turn hstep
      refine ⟨fun hne endpoint => ?_, h.peer, h.beating, fun hnot => ?_⟩
      · rw [← h.index hne endpoint, Redis.tick, Keyspace.read_tick]
        cases hentry : s.redis.endpointIndex.entry endpoint with
        | none => rfl
        | some e => simp [hquiet.2.1 (endpoint, e) (Dict.mem_of_get hentry)]
      · exact (sameAgents_tick hquiet).trans (h.agrees hnot)

/-! ## Whole interleavings -/

/-- **One turn.**  The agents stay as they should be exactly if the turn meets the
condition. -/
theorem agrees_turn {turn' : Turn} (h : Under cfg a other newId r now s)
    (hagrees : Agrees cfg a other newId r now s)
    (hstep : turn cfg a other newId s turn' = some t) :
    Agrees cfg a other newId r now t ↔ Unchanged a s turn' := by
  cases turn' with
  | heartbeat =>
      cases heartbeat_turn hstep with
      | misses hpc =>
          refine iff_of_true ?_ (by simp [Unchanged, hpc])
          rw [Agrees, expected_congr (goto_pc_of_ne s _ (by decide))]
          exact hagrees
      | reads hpc hread =>
          refine iff_of_true ?_ (by simp [Unchanged, hpc])
          rw [Agrees, expected_congr (goto_pc_of_ne s _ (by decide))]
          exact hagrees
      | @writes record hpc =>
          have hwrite : SameAgents (s.redis.heartbeatPipeline cfg s.now a record) s.redis ↔
              (s.redis.agents.read a).map untimed = some (untimed record) :=
            sameAgents_heartbeatPipeline s.now a record
          have hexpected : expected cfg a other newId r now
              (s.put (s.redis.heartbeatPipeline cfg s.now a record) 0 .done) =
                expected cfg a other newId r now s := expected_congr rfl
          rw [Agrees, hexpected]
          simp only [Unchanged, hpc]
          rw [← hwrite]
          exact ⟨fun h => h.trans hagrees.symm, fun h => h.trans hagrees⟩
  | other =>
      refine iff_of_true ?_ trivial
      obtain ⟨hne, ⟨p, hp, -, rfl⟩ | ⟨redis, hsame, rfl⟩⟩ := other_turn h hstep
      · rw [Agrees, expected_of_ne (by simpa [Sys.goto] using hp)]
        exact h.same hne
      · rw [Agrees, expected_of_done (by simp [Sys.put, Sys.goto])]
        exact hsame
  | time dt =>
      obtain ⟨hquiet, rfl⟩ := time_turn hstep
      exact iff_of_true ((sameAgents_tick hquiet).trans hagrees) trivial

/-- What has gone wrong stays so: both calls are over. -/
theorem agrees_of_turn {turn' : Turn} (h : Under cfg a other newId r now s)
    (hlost : ¬ Agrees cfg a other newId r now s)
    (hstep : turn cfg a other newId s turn' = some t) : ¬ Agrees cfg a other newId r now t := by
  have hdone : s.pc 0 = .done ∧ s.pc 1 = .done := by
    by_contra hnot
    exact hlost (h.agrees hnot)
  cases turn' with
  | heartbeat => cases heartbeat_turn hstep <;> simp_all
  | other => exact absurd hdone.2 (other_turn h hstep).1
  | time dt =>
      obtain ⟨hquiet, rfl⟩ := time_turn hstep
      exact fun hagrees => hlost ((sameAgents_tick hquiet).symm.trans hagrees)

/-- **A heartbeat and another call** come out as one of the two orders exactly when the
heartbeat writes its record back over the one that it has read, times aside. -/
theorem serialised_iff_unchanged (cfg : Config) (a : String) (other : Other) (newId : String)
    (r : Redis) (now : ℕ) (turns : List Turn) (t : Sys)
    (hrun : Run.exec (turn cfg a other newId) (begun r now) turns = some t)
    (hdone : t.pc 0 = .done ∧ t.pc 1 = .done) :
    Serialised cfg a other newId r now t ↔
      Run.Along (turn cfg a other newId) (Unchanged a) (begun r now) turns := by
  have hexact := Run.last_iff_along (B := Under cfg a other newId r now)
    (P := Agrees cfg a other newId r now) (fun _ _ _ => under_turn) (fun _ _ _ => agrees_turn)
    (fun _ _ _ => agrees_of_turn) (under_begun r now) (SameAgents.refl r) hrun
  rw [serialised_iff, ← hexact, Agrees, expected_of_done hdone.2]

/-- The registry with one agent. -/
def painted : Redis :=
  Redis.empty.register thirty 100
    { name := "painter", endpoint := "http://painter:9000", instanceId := "9d4f"
      skills := some ["css"] } false "a1"

/-- The agent with another skill. -/
def repainted : Other :=
  .register { name := "painter", endpoint := "http://painter:9000", instanceId := "07be"
              skills := some ["svg"] } false

/-- A heartbeat that is over before the agent registers again has been serialised. -/
theorem serialised_before_register :
    ∃ t, Run.exec (turn thirty "a1" repainted "b2") (begun painted 110)
        [.heartbeat, .other, .heartbeat, .other, .other] = some t ∧
      (Serialised thirty "a1" repainted "b2" painted 110 t ↔
        Run.Along (turn thirty "a1" repainted "b2") (Unchanged "a1") (begun painted 110)
          [.heartbeat, .other, .heartbeat, .other, .other]) :=
  ⟨_, rfl, serialised_iff_unchanged _ _ _ _ _ _ _ _ rfl ⟨rfl, rfl⟩⟩

/-- **A heartbeat revives an agent** that has been deregistered since it read the
record. -/
theorem revived_not_serialised :
    ¬ ∀ t, Run.exec (turn thirty "a1" .deregister "b2") (begun painted 110)
        [.heartbeat, .other, .other, .heartbeat] = some t →
      Serialised thirty "a1" .deregister "b2" painted 110 t := by
  intro h
  have hgone := (serialised_iff.1 (h _ rfl)).records "a1"
  have hnone : ((Other.deregister.run thirty "a1" "b2" painted 110).agents.read "a1").map untimed =
      none := rfl
  rw [hnone] at hgone
  cases hgone

end Serial
end Registry
end AgentSwarm
