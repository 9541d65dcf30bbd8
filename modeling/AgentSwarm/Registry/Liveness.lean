import AgentSwarm.Registry.Permanent
import AgentSwarm.Registry.Sweep

/-!
# Agents that send heartbeats

An external agent stays in the registry by its heartbeats: its record expires `heartbeat_ttl`
after the last of them, and its skill sets twice as long after it.  The sets are shared, and
other agents come and go.

* `LeavesAlone` — an operation that neither registers nor deregisters the agent.
* `InTime` — **the law**: time never passes beyond `heartbeat_ttl` after the registration or
  the last heartbeat.
* `Renewed`, `Gone` — the invariants of an agent that is in time, and of one that was not.
* `renewed_perform`, `gone_perform` — what one operation makes of them.
* `discoverable_iff_inTime` — **the agent is listed, and found by each of its skills, exactly
  when it is in time.**
-/

namespace AgentSwarm
namespace Registry
namespace Liveness

variable (cfg : Config)

/-- The id that a registration gets. -/
def chosenId (r : Redis) (data : AgentData) (newId : String) : String :=
  (r.endpointIndex.read data.endpoint).getD newId

/-- The operation neither registers nor deregisters the agent. -/
def LeavesAlone (a : String) (s : State) : Op → Prop
  | .register data _ newId => chosenId s.redis data newId ≠ a
  | .deregister agentId => agentId ≠ a
  | _ => True

instance (a : String) (s : State) : (op : Op) → Decidable (LeavesAlone a s op)
  | .register data _ newId => inferInstanceAs (Decidable (chosenId s.redis data newId ≠ a))
  | .deregister agentId => inferInstanceAs (Decidable (agentId ≠ a))
  | .heartbeat _ => isTrue trivial
  | .healthSweep => isTrue trivial
  | .tick _ => isTrue trivial

/-- The time of the last renewal after an operation at `now`. -/
def renewal (a : String) (last now : ℕ) : Op → ℕ
  | .heartbeat agentId => if agentId = a then now else last
  | _ => last

/-- The time after an operation. -/
def later (now : ℕ) : Op → ℕ
  | .tick dt => now + dt
  | _ => now

/-- From the last renewal at `last` on, and from the time `now` on: each heartbeat comes before
the record of the one before it has expired. -/
def InTime (a : String) : ℕ → ℕ → List Op → Prop
  | _, _, [] => True
  | last, now, op :: ops =>
      later now op ≤ last + cfg.heartbeatTtl ∧
        InTime a (renewal a last now op) (later now op) ops

instance decidableInTime (a : String) :
    ∀ (last now : ℕ) (ops : List Op), Decidable (InTime cfg a last now ops)
  | _, _, [] => isTrue trivial
  | last, now, op :: ops =>
      have := decidableInTime a (renewal a last now op) (later now op) ops
      inferInstanceAs (Decidable (_ ∧ _))

/-- `list_agents()` has a record of the agent. -/
def Listed (s : State) (a : String) : Prop :=
  ∃ record ∈ s.redis.listAgents cfg s.now, record.id = a

/-- `find_by_skill(skill)` has one. -/
def FoundBy (s : State) (skill a : String) : Prop :=
  ∃ record ∈ s.redis.findBySkill cfg s.now skill, record.id = a

/-! ## The invariants -/

/-- The agent registered with `data` at the time `began` and renewed its record at `last`. -/
structure Renewed (data : AgentData) (a : String) (began last : ℕ) (s : State) : Prop where
  entry : s.redis.agents.entry a =
    some ⟨{ data.record a began false with lastHeartbeat := last }, some (last + cfg.heartbeatTtl)⟩
  sets : ∀ skill ∈ data.skillList,
    s.redis.skillIndex.KeepsUntil skill a (last + cfg.heartbeatTtl * 2)
  past : last ≤ s.now

/-- The agent has no record. -/
def Gone (a : String) (s : State) : Prop := s.redis.agents.entry a = none

variable {cfg} {s t : State} {op : Op} {data : AgentData} {a : String} {began last : ℕ}

theorem Renewed.read (h : Renewed cfg data a began last s) : s.redis.agents.read a =
    some { data.record a began false with lastHeartbeat := last } := by
  rw [Keyspace.read, h.entry]
  rfl

theorem Gone.read (h : Gone a s) : s.redis.agents.read a = none := by
  rw [Keyspace.read, h]
  rfl

/-- The time has not passed beyond the deadline of a record that is there. -/
theorem Renewed.now_le (h : Renewed cfg data a began last s) (hs : Sane cfg s) :
    s.now ≤ last + cfg.heartbeatTtl := by
  have halive := (hs a _ h.entry).alive
  simpa [Entry.expired] using halive

/-! ## What is found -/

/-- The key of a listed record is its id. -/
theorem exists_fetch_iff (hs : Sane cfg s) (ids : List String) :
    (∃ record ∈ s.redis.fetch cfg s.now ids, record.id = a) ↔
      a ∈ ids ∧ (s.redis.agents.read a).isSome := by
  constructor
  · rintro ⟨record, hmem, hid⟩
    obtain ⟨id, hin, stored, hread, rfl⟩ := (hs.fetch ids record).1 hmem
    obtain ⟨e, he, rfl⟩ := read_eq_some_iff.1 hread
    have hkey : e.value.id = id := (hs id e he).id_eq
    have hsame : e.value.id = a := hid
    obtain rfl : id = a := hkey.symm.trans hsame
    exact ⟨hin, by rw [hread]; rfl⟩
  · rintro ⟨hin, hsome⟩
    obtain ⟨stored, hread⟩ := Option.isSome_iff_exists.1 hsome
    obtain ⟨e, he, rfl⟩ := read_eq_some_iff.1 hread
    exact ⟨withStatus cfg s.now e.value, (hs.fetch ids _).2 ⟨a, hin, e.value, hread, rfl⟩,
      (hs a e he).id_eq⟩

theorem listed_iff (hs : Sane cfg s) : Listed cfg s a ↔ (s.redis.agents.read a).isSome := by
  refine (exists_fetch_iff hs s.redis.agents.keys).trans ?_
  rw [Keyspace.read_isSome_iff_mem_keys]
  exact and_self_iff

theorem foundBy_iff (hs : Sane cfg s) (skill : String) : FoundBy cfg s skill a ↔
    a ∈ s.redis.skillIndex.members skill ∧ (s.redis.agents.read a).isSome :=
  exists_fetch_iff hs (s.redis.skillIndex.members skill)

/-- An agent that has been in time is listed, and found by its skills. -/
theorem Renewed.discoverable (h : Renewed cfg data a began last s) (hs : Sane cfg s) :
    Listed cfg s a ∧ ∀ skill ∈ data.skillList, FoundBy cfg s skill a := by
  have hthere : (s.redis.agents.read a).isSome := by
    rw [h.read]
    rfl
  refine ⟨(listed_iff hs).2 hthere, fun skill hskill => ?_⟩
  exact (foundBy_iff hs skill).2 ⟨(h.sets skill hskill).mem, hthere⟩

/-- One that has not is neither. -/
theorem Gone.undiscoverable (h : Gone a s) (hs : Sane cfg s) :
    ¬ Listed cfg s a ∧ ∀ skill, ¬ FoundBy cfg s skill a := by
  have hnot : ¬ (s.redis.agents.read a).isSome := by
    rw [h.read]
    exact Bool.false_ne_true
  exact ⟨fun hlisted => hnot ((listed_iff hs).1 hlisted),
    fun skill hfound => hnot ((foundBy_iff hs skill).1 hfound).2⟩

/-! ## One operation -/

/-- The members with a record stay when orphans are removed. -/
theorem keepsUntil_removeOrphans {r : Redis} {skill : String} {time : ℕ}
    (hread : (r.agents.read a).isSome) (h : r.skillIndex.KeepsUntil skill a time)
    (skills : List String) : (r.removeOrphans skills).2.skillIndex.KeepsUntil skill a time := by
  induction skills generalizing r with
  | nil => exact h
  | cons k skills ih =>
      rw [Redis.removeOrphans]
      refine ih hread (h.sremMembers k _ ?_)
      rintro ⟨-, horphan⟩
      have hnone := (List.mem_filter.1 horphan).2
      rw [hread] at hnone
      cases hnone

/-- **The registration.** -/
theorem renewed_register {newId : String}
    (h : perform cfg s (.register data false newId) = some t) :
    Renewed cfg data (chosenId s.redis data newId) s.now s.now t ∧ t.now = s.now := by
  rw [perform] at h
  split at h
  · rename_i hfresh
    cases h
    rw [register_eq hfresh]
    refine ⟨⟨?_, ?_, Nat.le_refl _⟩, rfl⟩
    · exact (Permanence.entry_registerPipeline _ _ _ _ _).trans (if_pos rfl)
    · intro skill hskill
      exact Keyspace.keepsUntil_saddAll _ _ _ hskill
  · cases h

theorem renewed_register_other (h : Renewed cfg data a began last s) {other : AgentData}
    {internal : Bool} {newId : String} (halone : chosenId s.redis other newId ≠ a)
    (hop : perform cfg s (.register other internal newId) = some t) :
    Renewed cfg data a began last t := by
  rw [perform] at hop
  split at hop
  · rename_i hfresh
    cases hop
    rw [register_eq hfresh]
    have hne : a ≠ chosenId s.redis other newId := fun heq => halone heq.symm
    refine ⟨?_, ?_, h.past⟩
    · refine (Permanence.entry_registerPipeline _ _ _ _ _).trans ?_
      exact (if_neg hne).trans h.entry
    · intro skill hskill
      refine ((h.sets skill hskill).sremAll _ _ fun hin => hne hin.2).saddAll _ ?_ _
      -- a deadline that the other agent sets is the later one
      intro deadline hdeadline
      have hpast := h.past
      cases internal with
      | true => cases hdeadline
      | false =>
          cases hdeadline
          omega
  · cases hop

theorem renewed_heartbeat (h : Renewed cfg data a began last s) (agentId : String) :
    Renewed cfg data a began (if agentId = a then s.now else last)
      { s with redis := s.redis.heartbeat cfg s.now agentId } := by
  have hpast := h.past
  unfold Redis.heartbeat
  by_cases ha : agentId = a
  · subst ha
    rw [h.read, if_pos rfl]
    refine ⟨?_, ?_, Nat.le_refl _⟩
    · simp [Redis.heartbeatPipeline, Keyspace.entry_expire, Keyspace.entry_write]
    · intro skill hskill
      exact Keyspace.keepsUntil_expireAll _ (h.sets skill hskill).mem _ hskill
  · rw [if_neg ha]
    cases hread : s.redis.agents.read agentId with
    | none => exact h
    | some record =>
        refine ⟨?_, ?_, hpast⟩
        · exact (Permanence.entry_heartbeatPipeline _ _ _ (Ne.symm ha)).trans h.entry
        · intro skill hskill
          exact (h.sets skill hskill).expireAll (by omega) _

theorem renewed_deregister (h : Renewed cfg data a began last s) {agentId : String}
    (ha : agentId ≠ a) :
    Renewed cfg data a began last { s with redis := s.redis.deregister agentId } := by
  refine ⟨?_, ?_, h.past⟩
  · exact (Keyspace.entry_del _ _ _).trans ((if_neg (Ne.symm ha)).trans h.entry)
  · intro skill hskill
    exact (h.sets skill hskill).sremAll _ _ fun hin => ha hin.2.symm

theorem renewed_healthSweep (h : Renewed cfg data a began last s) (hs : Sane cfg s) :
    Renewed cfg data a began last { s with redis := (s.redis.healthSweep cfg s.now).2 } := by
  rw [healthSweep_eq hs]
  refine ⟨?_, ?_, h.past⟩
  · exact (congrArg (Keyspace.entry · a) (removeOrphans_spec _ _).1).trans h.entry
  · intro skill hskill
    exact keepsUntil_removeOrphans (by rw [h.read]; rfl) (h.sets skill hskill) _

/-- **Time.**  The record is there exactly until its deadline. -/
theorem renewed_tick (h : Renewed cfg data a began last s) (dt : ℕ) :
    if s.now + dt ≤ last + cfg.heartbeatTtl then
      Renewed cfg data a began last ⟨s.redis.tick (s.now + dt), s.now + dt⟩
    else Gone a ⟨s.redis.tick (s.now + dt), s.now + dt⟩ := by
  have hpast := h.past
  have hentry : (s.redis.tick (s.now + dt)).agents.entry a =
      (s.redis.agents.entry a).filter fun e => !e.expired (s.now + dt) := Keyspace.entry_tick _ _ _
  rw [h.entry] at hentry
  split
  · rename_i hle
    refine ⟨?_, ?_, by simp only; omega⟩
    · rw [hentry, Option.filter_eq_some_iff]
      exact ⟨rfl, by simpa [Entry.expired] using hle⟩
    · intro skill hskill
      exact (h.sets skill hskill).tick (by omega)
  · rename_i hlt
    refine hentry.trans (Option.filter_eq_none_iff.2 ?_)
    rintro e he
    cases he
    simpa [Entry.expired] using hlt

/-- **One operation** on an agent that has been in time. -/
theorem renewed_perform (h : Renewed cfg data a began last s) (hs : Sane cfg s)
    (halone : LeavesAlone a s op) (hop : perform cfg s op = some t) :
    t.now = later s.now op ∧
      if later s.now op ≤ last + cfg.heartbeatTtl then
        Renewed cfg data a began (renewal a last s.now op) t
      else Gone a t := by
  have hnow := h.now_le hs
  cases op with
  | register other internal newId =>
      refine ⟨?_, ?_⟩
      · rw [perform] at hop
        split at hop <;> cases hop
        rfl
      · exact (if_pos hnow).mpr (renewed_register_other h halone hop)
  | heartbeat agentId =>
      cases hop
      exact ⟨rfl, (if_pos hnow).mpr (renewed_heartbeat h agentId)⟩
  | deregister agentId =>
      cases hop
      exact ⟨rfl, (if_pos hnow).mpr (renewed_deregister h halone)⟩
  | healthSweep =>
      cases hop
      exact ⟨rfl, (if_pos hnow).mpr (renewed_healthSweep h hs)⟩
  | tick dt =>
      cases hop
      exact ⟨rfl, renewed_tick h dt⟩

/-- **An agent that was late is not coming back** by itself. -/
theorem gone_perform (h : Gone a s) (hs : Sane cfg s) (halone : LeavesAlone a s op)
    (hop : perform cfg s op = some t) : Gone a t := by
  cases op with
  | register other internal newId =>
      rw [perform] at hop
      split at hop
      · rename_i hfresh
        cases hop
        rw [register_eq hfresh]
        exact (Permanence.entry_registerPipeline _ _ _ _ _).trans
          ((if_neg (Ne.symm halone)).trans h)
      · cases hop
  | heartbeat agentId =>
      cases hop
      unfold Redis.heartbeat
      cases hread : s.redis.agents.read agentId with
      | none => exact h
      | some record =>
          have ha : a ≠ agentId := by
            rintro rfl
            rw [h.read] at hread
            cases hread
          exact (Permanence.entry_heartbeatPipeline _ _ _ ha).trans h
  | deregister agentId =>
      cases hop
      exact (Keyspace.entry_del _ _ _).trans ((if_neg (Ne.symm halone)).trans h)
  | healthSweep =>
      cases hop
      rw [healthSweep_eq hs]
      exact (congrArg (Keyspace.entry · a) (removeOrphans_spec _ _).1).trans h
  | tick dt =>
      cases hop
      refine (Keyspace.entry_tick _ _ _).trans ?_
      rw [show s.redis.agents.entry a = none from h]
      rfl

/-! ## Whole runs -/

theorem gone_exec {ops : List Op} (h : Gone a s) (hs : Sane cfg s)
    (halone : Run.Along (perform cfg) (LeavesAlone a) s ops)
    (hrun : Run.exec (perform cfg) s ops = some t) : Gone a t := by
  have hboth : Gone a t ∧ Sane cfg t :=
    Run.exec_invariant (I := fun s => Gone a s ∧ Sane cfg s)
      (fun _ _ _ h hok hop => ⟨gone_perform h.1 h.2 hok hop, sane_perform h.2 hop⟩) ⟨h, hs⟩ halone
      hrun
  exact hboth.1

/-- **A run.**  The agent is renewed or gone, as the times of its heartbeats say. -/
theorem renewed_exec {ops : List Op} (h : Renewed cfg data a began last s) (hs : Sane cfg s)
    (halone : Run.Along (perform cfg) (LeavesAlone a) s ops)
    (hrun : Run.exec (perform cfg) s ops = some t) :
    (InTime cfg a last s.now ops ∧ ∃ last', Renewed cfg data a began last' t) ∨
      (¬ InTime cfg a last s.now ops ∧ Gone a t) := by
  induction ops generalizing s last with
  | nil =>
      cases hrun
      exact .inl ⟨trivial, last, h⟩
  | cons op ops ih =>
      obtain ⟨u, hu, hut⟩ := Run.exec_cons_some hrun
      obtain ⟨hok, hrest⟩ := Run.along_cons halone hu
      obtain ⟨hnow, hstep⟩ := renewed_perform h hs hok hu
      split at hstep
      · rename_i hle
        have hsplit := ih hstep (sane_perform hs hu) hrest hut
        rw [hnow] at hsplit
        refine hsplit.imp (And.imp_left fun hin => ⟨hle, hin⟩) (And.imp_left ?_)
        exact fun hout hin => hout hin.2
      · rename_i hlt
        exact .inr ⟨fun hin => hlt hin.1, gone_exec hstep (sane_perform hs hu) hrest hut⟩

/-- The states of a run that begins with a sane one are sane. -/
theorem sane_exec {ops : List Op} (hs : Sane cfg s)
    (hrun : Run.exec (perform cfg) s ops = some t) : Sane cfg t := by
  have hall : Run.Along (perform cfg) (fun _ _ => True) s ops :=
    Run.along_of_forall (fun _ _ => trivial) s ops
  exact Run.exec_invariant (fun _ _ _ h _ hop => sane_perform h hop) hs hall hrun

/-- What a run from a registration leaves of the agent. -/
theorem renewed_of_registered {before ops : List Op} {newId : String} {u : State}
    (hbefore : Run.exec (perform cfg) start before = some s)
    (hreg : perform cfg s (.register data false newId) = some u)
    (hrun : Run.exec (perform cfg) u ops = some t)
    (halone : Run.Along (perform cfg) (LeavesAlone (chosenId s.redis data newId)) u ops) :
    Sane cfg t ∧
      ((InTime cfg (chosenId s.redis data newId) s.now s.now ops ∧
          ∃ last, Renewed cfg data (chosenId s.redis data newId) s.now last t) ∨
        (¬ InTime cfg (chosenId s.redis data newId) s.now s.now ops ∧
          Gone (chosenId s.redis data newId) t)) := by
  obtain ⟨hrenewed, hnow⟩ := renewed_register hreg
  have hsane : Sane cfg u := sane_perform (sane_exec sane_start hbefore) hreg
  have hsplit := renewed_exec hrenewed hsane halone hrun
  rw [hnow] at hsplit
  exact ⟨sane_exec hsane hrun, hsplit⟩

/-- **Heartbeats keep an agent discoverable.**  After the registration of an external agent, and
whatever is done about other agents, `list_agents` has it, and `find_by_skill` for each of its
skills, exactly when no time longer than `heartbeat_ttl` has passed without a heartbeat of it. -/
theorem discoverable_iff_inTime {before ops : List Op} {newId : String} {u : State}
    (hbefore : Run.exec (perform cfg) start before = some s)
    (hreg : perform cfg s (.register data false newId) = some u)
    (hrun : Run.exec (perform cfg) u ops = some t)
    (halone : Run.Along (perform cfg) (LeavesAlone (chosenId s.redis data newId)) u ops) :
    (Listed cfg t (chosenId s.redis data newId) ↔
        InTime cfg (chosenId s.redis data newId) s.now s.now ops) ∧
      ∀ skill ∈ data.skillList, FoundBy cfg t skill (chosenId s.redis data newId) ↔
        InTime cfg (chosenId s.redis data newId) s.now s.now ops := by
  obtain ⟨hsane, hsplit⟩ := renewed_of_registered hbefore hreg hrun halone
  rcases hsplit with ⟨hin, last, hrenewed⟩ | ⟨hout, hgone⟩
  · obtain ⟨hlisted, hfound⟩ := hrenewed.discoverable hsane
    exact ⟨iff_of_true hlisted hin, fun skill hskill => iff_of_true (hfound skill hskill) hin⟩
  · obtain ⟨hlisted, hfound⟩ := hgone.undiscoverable hsane
    exact ⟨iff_of_false hlisted hout, fun skill _ => iff_of_false (hfound skill) hout⟩

/-- A painter, and another agent with one of its skills that comes and goes. -/
def painter : AgentData :=
  { name := "painter", endpoint := "http://painter:9000", instanceId := "9d4f"
    skills := some ["css", "svg"] }

/-- The painter sends a heartbeat after 20 ticks; the other agent registers and expires. -/
def shared : List Op :=
  [.register { name := "inker", endpoint := "http://inker:9000", instanceId := "07be"
               skills := some ["svg"] } false "b2",
    .tick 20, .heartbeat "a1", .tick 15, .healthSweep, .tick 10]

/-- The painter is found by the skill it shared, 25 ticks after its heartbeat. -/
theorem painter_discoverable :
    ∃ t, Run.exec (perform thirty) start (.register painter false "a1" :: shared) = some t ∧
      Listed thirty t "a1" ∧ FoundBy thirty t "svg" "a1" := by
  have hlaw := @discoverable_iff_inTime thirty start _ painter [] shared "a1" _ rfl rfl rfl
    (by decide)
  have hin : InTime thirty "a1" 0 0 shared := by decide
  exact ⟨_, rfl, hlaw.1.2 hin, (hlaw.2 "svg" (by decide)).2 hin⟩

end Liveness
end Registry
end AgentSwarm
