import AgentSwarm.Registry.Calls
import AgentSwarm.Lib.Run

/-!
# One agent for an endpoint

`register` means to keep one record for an endpoint: the endpoint index tells it
the id to use again.  The index entry has a deadline of its own, which no
heartbeat renews; the look-up and the pipeline are two commands; and a heartbeat
writes its record back whether or not it is still there.

* `InUse` — the ids in use for an endpoint: of a live record, in the index, or
  chosen by a registration under way.
* `EndpointsUnique` — no endpoint has two live records, and a registration keeps
  the id of the live record.
* `Settled` — the condition on a step: a registration takes a new id only for an
  endpoint without one, and a heartbeat does not write back a record whose
  endpoint has another one by now.
* `endpointsUnique_of_settled` — **uniqueness** in every run that meets it.
* `expired_index_not_unique` — an agent that keeps heartbeating and registers
  again has two records.
-/

namespace AgentSwarm
namespace Registry

variable {cfg : Config} {prog : ℕ → Call} {s t : Sys} {a : Action} {endpoint id : String}

/-- A registration from the endpoint is under way and has chosen the id. -/
def UnderWay (prog : ℕ → Call) (s : Sys) (endpoint id : String) : Prop :=
  ∃ i, (prog i).endpoint = some endpoint ∧ (s.pc i).chosen = some id

/-- The id is in use for the endpoint. -/
def InUse (prog : ℕ → Call) (s : Sys) (endpoint id : String) : Prop :=
  (∃ record, s.redis.agents.read id = some record ∧ record.endpoint = endpoint) ∨
    s.redis.endpointIndex.read endpoint = some id ∨ UnderWay prog s endpoint id

/-- No two live records have the same endpoint, and a registration that is about
to store a record for a live agent's endpoint stores it under that agent's id. -/
structure EndpointsUnique (prog : ℕ → Call) (s : Sys) : Prop where
  unique : ∀ id id' record record', s.redis.agents.read id = some record →
    s.redis.agents.read id' = some record' → record.endpoint = record'.endpoint → id = id'
  kept : ∀ endpoint id id' record, UnderWay prog s endpoint id →
    s.redis.agents.read id' = some record → record.endpoint = endpoint → id = id'

/-- The condition on a step.  A registration that finds no index entry for its
endpoint does so when no id is in use for it: it has no live record and no other
registration under way.  A heartbeat writes its record back when no other id has
come into use for the record's endpoint. -/
def Settled (prog : ℕ → Call) (s : Sys) : Action → Prop
  | .next i _ =>
      match prog i, s.pc i with
      | .register data _, .start =>
          s.redis.endpointIndex.read data.endpoint = none → ∀ id, ¬ InUse prog s data.endpoint id
      | .heartbeat agentId, .beating record =>
          ∀ id, InUse prog s record.endpoint id → id = agentId
      | _, _ => True
  | _ => True

/-! ## The invariant -/

/-- At most one id is in use for an endpoint. -/
def Inv (prog : ℕ → Call) (s : Sys) : Prop :=
  ∀ endpoint id id', InUse prog s endpoint id → InUse prog s endpoint id' → id = id'

theorem Inv.endpointsUnique (h : Inv prog s) : EndpointsUnique prog s where
  unique _ id' record record' hread hread' heq :=
    h record.endpoint _ id' (.inl ⟨record, hread, rfl⟩) (.inl ⟨record', hread', heq.symm⟩)
  kept endpoint _ id' record hway hread heq :=
    h endpoint _ id' (.inr (.inr hway)) (.inl ⟨record, hread, heq⟩)

theorem not_inUse_init : ¬ InUse prog init endpoint id := by
  rintro (⟨record, hread, -⟩ | hindex | ⟨i, -, hchosen⟩)
  · simp [init, Redis.empty] at hread
  · simp [init, Redis.empty] at hindex
  · simp [init, Pc.chosen] at hchosen

/-- A registration under way after a step of call `i` was under way before, or it
is call `i` and has chosen the id now. -/
theorem UnderWay.of_goto {i : ℕ} {p : Pc} (h : UnderWay prog (s.goto i p) endpoint id) :
    UnderWay prog s endpoint id ∨ ((prog i).endpoint = some endpoint ∧ p.chosen = some id) := by
  obtain ⟨j, hprog, hchosen⟩ := h
  by_cases hj : j = i
  · subst hj
    exact .inr ⟨hprog, by simpa [Sys.goto] using hchosen⟩
  · exact .inl ⟨j, hprog, by simpa [Sys.goto, hj] using hchosen⟩

/-- What is in Redis does not matter for it. -/
theorem UnderWay.of_put {redis : Redis} {i : ℕ} {p : Pc}
    (h : UnderWay prog (s.put redis i p) endpoint id) :
    UnderWay prog s endpoint id ∨ ((prog i).endpoint = some endpoint ∧ p.chosen = some id) := by
  have hgoto : UnderWay prog (s.goto i p) endpoint id := h
  exact hgoto.of_goto

theorem InUse.of_goto {i : ℕ} {p : Pc} (h : InUse prog (s.goto i p) endpoint id) :
    InUse prog s endpoint id ∨ ((prog i).endpoint = some endpoint ∧ p.chosen = some id) := by
  rcases h with hread | hindex | hway
  · exact .inl (.inl hread)
  · exact .inl (.inr (.inl hindex))
  · rcases UnderWay.of_goto hway with hway | hnew
    · exact .inl (.inr (.inr hway))
    · exact .inr hnew

/-- **What a step puts into use.**  An id in use after a step was in use before,
or a registration took it as a new one, or a heartbeat wrote its record back. -/
theorem Moved.inUse (hm : Moved cfg prog s a t) (h : InUse prog t endpoint id) :
    InUse prog s endpoint id ∨
      (∃ i data internal, a = .next i id ∧ prog i = .register data internal ∧ s.pc i = .start ∧
        s.redis.endpointIndex.read data.endpoint = none ∧ data.endpoint = endpoint) ∨
      ∃ i newId record, a = .next i newId ∧ prog i = .heartbeat id ∧ s.pc i = .beating record ∧
        record.endpoint = endpoint := by
  cases hm with
  | tick =>
      rcases h with ⟨record, hread, hend⟩ | hindex | hway
      · exact .inl (.inl ⟨record, Keyspace.read_of_read_tick _ hread, hend⟩)
      · exact .inl (.inr (.inl (Keyspace.read_of_read_tick _ hindex)))
      · exact .inl (.inr (.inr hway))
  | find hprog hpc hfound =>
      rcases h.of_goto with hold | ⟨hend, hchosen⟩
      · exact .inl hold
      · rw [hprog] at hend
        cases hend
        cases hchosen
        exact .inl (.inr (.inl hfound))
  | fresh hprog hpc hnone =>
      rcases h.of_goto with hold | ⟨hend, hchosen⟩
      · exact .inl hold
      · rw [hprog] at hend
        cases hend
        cases hchosen
        exact .inr (.inl ⟨_, _, _, rfl, hprog, hpc, hnone, rfl⟩)
  | @store i _ data internal agentId began oldSkills hprog hpc =>
      -- the record and the index entry have the id the registration had chosen
      have hway : UnderWay prog s data.endpoint agentId := ⟨i, by rw [hprog]; rfl, by rw [hpc]; rfl⟩
      rcases h with ⟨record, hread, hend⟩ | hindex | hway'
      · rw [Sys.put, Sys.goto, read_registerPipeline] at hread
        split at hread
        · rename_i hid
          cases hread
          subst hend
          exact .inl (.inr (.inr (hid ▸ hway)))
        · exact .inl (.inl ⟨record, hread, hend⟩)
      · rw [Sys.put, Sys.goto, index_registerPipeline] at hindex
        split at hindex
        · rename_i hend
          cases hindex
          exact .inl (.inr (.inr (hend ▸ hway)))
        · exact .inl (.inr (.inl hindex))
      · rcases UnderWay.of_put hway' with hway' | ⟨-, hchosen⟩
        · exact .inl (.inr (.inr hway'))
        · cases hchosen
  | @beat i newId agentId record hprog hpc =>
      rcases h with ⟨record', hread, hend⟩ | hindex | hway
      · rw [Sys.put, Sys.goto, read_heartbeatPipeline] at hread
        split at hread
        · rename_i hid
          cases hread
          exact .inr (.inr ⟨i, newId, record, rfl, hid ▸ hprog, hpc, hend⟩)
        · exact .inl (.inl ⟨record', hread, hend⟩)
      · exact .inl (.inr (.inl hindex))
      · rcases UnderWay.of_put hway with hway | ⟨-, hchosen⟩
        · exact .inl (.inr (.inr hway))
        · cases hchosen
  | @other _ i redis p hagents hkeep hchosen =>
      rcases h with ⟨record, hread, hend⟩ | hindex | hway
      · exact .inl (.inl ⟨record, hagents _ _ hread, hend⟩)
      · exact .inl (.inr (.inl (hkeep ▸ hindex)))
      · rcases UnderWay.of_put hway with hway | ⟨hend, hp⟩
        · exact .inl (.inr (.inr hway))
        · exact .inl (.inr (.inr ⟨i, hend, hchosen _ hp⟩))

/-! ## Whole runs -/

/-- **One step.**  A settled step keeps the invariant. -/
theorem inv_step (h : Inv prog s) (hok : Settled prog s a) (hstep : step cfg prog s a = some t) :
    Inv prog t := by
  have hm := step_cases hstep
  intro endpoint id id' hid hid'
  rcases hm.inUse hid with hold | ⟨i, data, internal, rfl, hprog, hpc, hnone, rfl⟩ |
      ⟨i, newId, record, rfl, hprog, hpc, rfl⟩ <;>
    rcases hm.inUse hid' with hold' | ⟨j, data', internal', ha, hprog', hpc', hnone', hend'⟩ |
      ⟨j, newId', record', ha, hprog', hpc', hend'⟩
  · exact h endpoint id id' hold hold'
  · subst ha
    simp only [Settled, hprog', hpc'] at hok
    exact absurd (hend' ▸ hold) (hok hnone' id)
  · subst ha
    simp only [Settled, hprog', hpc'] at hok
    exact hok id (hend' ▸ hold)
  · simp only [Settled, hprog, hpc] at hok
    exact absurd hold' (hok hnone id')
  · exact (Action.next.inj ha).2
  · cases ha
    rw [hpc] at hpc'
    cases hpc'
  · simp only [Settled, hprog, hpc] at hok
    exact (hok id' hold').symm
  · cases ha
    rw [hpc] at hpc'
    cases hpc'
  · cases ha
    rw [hprog] at hprog'
    cases hprog'
    rfl

/-- A heartbeat whose record is still there is settled. -/
theorem settled_of_live (h : Inv prog s) {i : ℕ} {newId : String} {record record' : AgentRecord}
    (hprog : prog i = .heartbeat id) (hpc : s.pc i = .beating record)
    (hlive : s.redis.agents.read id = some record') (hend : record'.endpoint = record.endpoint) :
    Settled prog s (.next i newId) := by
  simp only [Settled, hprog, hpc]
  exact fun id' hid' => h _ id' id hid' (.inl ⟨record', hlive, hend⟩)

/-- **Endpoint uniqueness.**  In a run whose steps are all settled no endpoint
ever has two live records, and a registration for a live agent keeps its id. -/
theorem endpointsUnique_of_settled (cfg : Config) (prog : ℕ → Call) (acts : List Action)
    (hok : Run.Along (step cfg prog) (Settled prog) init acts) :
    Run.Throughout (step cfg prog) (EndpointsUnique prog) init acts :=
  (Run.throughout_of_invariant (fun _ _ _ => inv_step)
    (fun _ _ _ h => absurd h not_inUse_init) hok).mono fun _ => Inv.endpointsUnique

/-! ## An agent that registers again -/

/-- The lifetime of the default settings. -/
def thirty : Config := ⟨30, by decide⟩

/-- The agent registers, sends a heartbeat, and registers again. -/
def again : ℕ → Call
  | 1 => .heartbeat "a1"
  | _ => .register { name := "painter", endpoint := "http://painter:9000", instanceId := "9d4f" } false

/-- In time, the second registration finds the index entry of the first. -/
theorem endpointsUnique_again :
    Run.Throughout (step thirty again) (EndpointsUnique again) init
      [.next 0 "a1", .next 0 "", .tick 20, .next 2 "b2", .next 2 "", .next 2 ""] :=
  endpointsUnique_of_settled _ _ _
    ⟨fun _ _ => not_inUse_init, trivial, trivial, fun h => absurd h (by decide), trivial, trivial,
      trivial⟩

/-- **The index entry expires under the heartbeats.**  The agent has sent its
heartbeat in time and registers again: it gets a second id, and both records are
live. -/
theorem expired_index_not_unique :
    ¬ Run.Throughout (step thirty again) (EndpointsUnique again) init
      [.next 0 "a1", .next 0 "", .tick 20, .next 1 "", .next 1 "", .tick 15,
        .next 2 "b2", .next 2 ""] := by
  intro h
  exact absurd ((h.last rfl).unique "a1" "b2" _ _ rfl rfl rfl) (by decide)

end Registry
end AgentSwarm
