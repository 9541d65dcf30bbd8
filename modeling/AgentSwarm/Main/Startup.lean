import AgentSwarm.Gateway.Routes
import AgentSwarm.Registry.Liveness

/-!
# The agents that are declared at startup

When the process starts it registers the agents of `agents/*.yaml`, as internal ones, and
builds an adapter for those that need one.  Redis outlives the process: at the next start the
same files are registered again.

* `File`, `Declared` — a file, and how its registration goes.
* `declare`, `boot` — one round of the loop over the files, and the start of the process.
* `Event`, `step` — starts, and what is done at the registry between them.
* `Settled` — the endpoint has one id for good, and no second record.
* `declared_stays` — **an agent that was declared once keeps its id through every restart**, and
  no restart adds a record for it.
* `boot_registers` — **every readable declaration is registered**, whatever is wrong with the
  others.
-/

namespace AgentSwarm
namespace Startup

open Adapters (AgentBackend createAdapter)
open Gateway (adapterProtocols)
open Registry (AgentData AgentRecord Config Op Redis perform isOnline)
open Registry.Liveness (chosenId Listed)

/-- What a file declares; a field that is `none` is missing.  `extra` are the other fields. -/
structure Declaration where
  name : Option String := none
  endpoint : Option String := none
  protocol : Option String := none
  skills : Option (List String) := none
  extra : JsonObj := []

/-- A file of `agents/*.yaml`. -/
inductive File where
  /-- It cannot be read, or is not YAML. -/
  | unreadable
  | notMapping
  | mapping (d : Declaration)

/-- What `registry.register` does: it may raise before its pipeline is executed, or after. -/
inductive Registering where
  | returns
  | raisesBefore
  | raisesAfter
  deriving DecidableEq

/-- A file, the two ids `uuid4` gives for it, and how its registration goes. -/
structure Declared where
  file : File
  newId : String
  instanceId : String
  registering : Registering := .returns

/-- The registry, and the adapters of the process. -/
structure Process where
  registry : Registry.State
  adapters : Dict String AgentBackend := []

/-- `_proto`. -/
def Declaration.proto (d : Declaration) : String := d.protocol.getD "http"

/-- The argument of `registry.register`, if no field that has to be there is missing. -/
def Declaration.agentData (d : Declaration) (instanceId : String) : Option AgentData :=
  match d.name, d.endpoint with
  | some name, some endpoint =>
      some { name := name, endpoint := endpoint, instanceId := instanceId
             protocol := some d.proto, skills := some (d.skills.getD []) }
  | _, _ => none

/-- `_info`, for an agent with this endpoint. -/
def Declaration.info (d : Declaration) (endpoint : String) : JsonObj :=
  let key := if d.proto = "openai" ∨ d.proto = "a2a" then "base_url"
    else if d.proto = "mcp" then "server_url" else "command"
  let extra := d.extra.filter fun item => item.1 ∉ ["name", "endpoint", "protocol", "skills"]
  extra.foldl (fun info item => info.set item.1 item.2)
    [("protocol", .str d.proto), (key, .str endpoint)]

/-- The adapter that is built for an agent with this endpoint. -/
def Declaration.adapter (d : Declaration) (endpoint : String) : Option AgentBackend :=
  if d.proto ∈ adapterProtocols then
    match createAdapter (d.info endpoint) with
    | .ok adapter => some adapter
    | .error _ => none
  else none

variable (cfg : Config)

/-- One round of the loop over the files.  Every exception is caught, and what was done before
it stays. -/
def declare (p : Process) (f : Declared) : Process :=
  match f.file with
  | .unreadable => p
  | .notMapping => p
  | .mapping d =>
      match d.agentData f.instanceId with
      | none => p
      | some data =>
          let agentId := chosenId p.registry.redis data f.newId
          let registered := { p.registry with
            redis := p.registry.redis.register cfg p.registry.now data true f.newId }
          match f.registering with
          | .raisesBefore => p
          | .raisesAfter => { p with registry := registered }
          | .returns =>
              match d.adapter data.endpoint with
              | none => { p with registry := registered }
              | some adapter => ⟨registered, p.adapters.set agentId adapter⟩

/-- The process starts: it has no adapters yet, and registers the agents of the files. -/
def boot (p : Process) (files : List Declared) : Process :=
  files.foldl (declare cfg) { p with adapters := [] }

/-- A start, or an operation at the registry. -/
inductive Event where
  | boot (files : List Declared)
  | op (op : Op)

/-- One event. -/
def step (p : Process) : Event → Option Process
  | .boot files => some (boot cfg p files)
  | .op op => (perform cfg p.registry op).map fun registry => { p with registry := registry }

/-- An external agent registers from the endpoint. -/
def Event.External (endpoint : String) : Event → Prop
  | .op (.register data false _) => data.endpoint = endpoint
  | _ => False

/-- What the round for a file stores in the registry. -/
def Declared.stored (f : Declared) : Option AgentData :=
  match f.file with
  | .mapping d => if f.registering = .raisesBefore then none else d.agentData f.instanceId
  | _ => none

/-- The adapter that the round for a file registers. -/
def Declared.adapter (f : Declared) : Option AgentBackend :=
  match f.file, f.registering with
  | .mapping d, .returns => (d.agentData f.instanceId).bind fun data => d.adapter data.endpoint
  | _, _ => none

/-! ## The properties -/

/-- The endpoint has the id for good, and no record under another one. -/
structure Settled (endpoint id : String) (p : Process) : Prop where
  pinned : p.registry.redis.endpointIndex.entry endpoint = some ⟨id, none⟩
  single : ∀ id' record, p.registry.redis.agents.read id' = some record →
    record.endpoint = endpoint → id' = id

/-- Every record of the endpoint is the one in the index. -/
def Indexed (endpoint : String) (p : Process) : Prop :=
  ∀ id record, p.registry.redis.agents.read id = some record → record.endpoint = endpoint →
    p.registry.redis.endpointIndex.read endpoint = some id

/-- No two endpoints share an id in the index, and the files get new ones. -/
structure Ready (p : Process) (files : List Declared) : Prop where
  oneEndpoint : ∀ endpoint endpoint' id, p.registry.redis.endpointIndex.read endpoint = some id →
    p.registry.redis.endpointIndex.read endpoint' = some id → endpoint = endpoint'
  distinct : (files.map Declared.newId).Nodup
  fresh : ∀ f ∈ files, ∀ endpoint, p.registry.redis.endpointIndex.read endpoint ≠ some f.newId

variable {cfg} {p q : Process} {f : Declared} {endpoint id : String}

/-! ## What a registration leaves -/

theorem read_register (r : Redis) (now : ℕ) (data : AgentData) (internal : Bool) (newId id : String) :
    (r.register cfg now data internal newId).agents.read id =
      if id = chosenId r data newId then
        some (data.record (chosenId r data newId) now internal)
      else r.agents.read id := by
  unfold Redis.register chosenId
  cases r.endpointIndex.read data.endpoint <;>
    exact Registry.read_registerPipeline _ _ _ _

theorem entry_register (r : Redis) (now : ℕ) (data : AgentData) (internal : Bool)
    (newId endpoint : String) :
    (r.register cfg now data internal newId).endpointIndex.entry endpoint =
      if endpoint = data.endpoint then
        some ⟨chosenId r data newId, if internal then none else some (now + cfg.heartbeatTtl)⟩
      else r.endpointIndex.entry endpoint := by
  unfold Redis.register chosenId
  cases r.endpointIndex.read data.endpoint <;>
    cases internal <;>
      simp only [Redis.registerAs, Redis.registerPipeline, AgentData.record, Keyspace.overwrite,
        Keyspace.entry_expire, Keyspace.entry_put, if_true, if_false, Bool.false_eq_true] <;>
      split <;> rfl

theorem index_register (r : Redis) (now : ℕ) (data : AgentData) (internal : Bool)
    (newId endpoint : String) :
    (r.register cfg now data internal newId).endpointIndex.read endpoint =
      if endpoint = data.endpoint then some (chosenId r data newId)
      else r.endpointIndex.read endpoint := by
  rw [Keyspace.read, entry_register]
  split <;> rfl

/-- **What a round leaves**: nothing new, or the agent it stores and the adapter it builds. -/
theorem declare_eq (p : Process) (f : Declared) :
    declare cfg p f =
      match f.stored with
      | none => p
      | some data =>
          { registry := { p.registry with
              redis := p.registry.redis.register cfg p.registry.now data true f.newId }
            adapters :=
              match f.adapter with
              | none => p.adapters
              | some adapter =>
                  p.adapters.set (chosenId p.registry.redis data f.newId) adapter } := by
  unfold declare Declared.stored Declared.adapter
  cases f.file with
  | unreadable => rfl
  | notMapping => rfl
  | mapping d =>
      dsimp only
      cases hdata : d.agentData f.instanceId with
      | none => cases f.registering <;> rfl
      | some data =>
          cases f.registering with
          | raisesBefore => rfl
          | raisesAfter => rfl
          | returns =>
              simp only [reduceCtorEq, if_false, hdata, Option.bind_some]
              cases d.adapter data.endpoint <;> rfl

/-! ## One id for an endpoint -/

variable {now : ℕ} {data : AgentData} {internal : Bool} {newId : String}

theorem Settled.chosenId_eq (h : Settled endpoint id p) (hend : data.endpoint = endpoint)
    (newId : String) : chosenId p.registry.redis data newId = id := by
  have hread : p.registry.redis.endpointIndex.read data.endpoint = some id := by
    rw [Keyspace.read, hend, h.pinned]
    rfl
  rw [chosenId, hread]
  rfl

/-- The first internal registration from an endpoint settles it. -/
theorem Indexed.settles (h : Indexed endpoint p) (hend : data.endpoint = endpoint)
    (hq : q.registry.redis = p.registry.redis.register cfg now data true newId) :
    Settled endpoint (chosenId p.registry.redis data newId) q := by
  subst hend
  constructor
  · rw [hq, entry_register, if_pos rfl]
    rfl
  · intro id' record hread hrecord
    rw [hq, read_register] at hread
    split at hread
    · assumption
    · have hindex := h id' record hread hrecord
      rw [chosenId, hindex]
      rfl

/-- A registration from elsewhere changes nothing about the records of the endpoint. -/
theorem Indexed.register (h : Indexed endpoint p) (hend : data.endpoint ≠ endpoint)
    (hq : q.registry.redis = p.registry.redis.register cfg now data internal newId) :
    Indexed endpoint q := by
  intro id' record hread hrecord
  rw [hq, read_register] at hread
  rw [hq, index_register, if_neg hend.symm]
  split at hread
  · cases hread
    exact absurd hrecord hend
  · exact h id' record hread hrecord

/-- A settled endpoint stays settled in every registration but an external one from it. -/
theorem Settled.register (h : Settled endpoint id p)
    (hinternal : data.endpoint = endpoint → internal = true)
    (hq : q.registry.redis = p.registry.redis.register cfg now data internal newId) :
    Settled endpoint id q := by
  constructor
  · rw [hq, entry_register]
    split
    · rename_i hend
      rw [h.chosenId_eq hend.symm, hinternal hend.symm]
      rfl
    · exact h.pinned
  · intro id' record hread hrecord
    rw [hq, read_register] at hread
    split at hread
    · rename_i hchosen
      cases hread
      exact hchosen.trans (h.chosenId_eq hrecord newId)
    · exact h.single id' record hread hrecord

/-- Nothing was done to the index, and no record is there that was not. -/
theorem Settled.of_fewer (h : Settled endpoint id p)
    (hindex : q.registry.redis.endpointIndex.entry endpoint =
      p.registry.redis.endpointIndex.entry endpoint)
    (hrecords : ∀ id' record, q.registry.redis.agents.read id' = some record →
      ∃ was, p.registry.redis.agents.read id' = some was ∧ was.endpoint = record.endpoint) :
    Settled endpoint id q := by
  refine ⟨hindex.trans h.pinned, fun id' record hread hrecord => ?_⟩
  obtain ⟨was, hwas, hsame⟩ := hrecords id' record hread
  exact h.single id' was hwas (hsame.trans hrecord)

theorem settled_declare (h : Settled endpoint id p) (f : Declared) :
    Settled endpoint id (declare cfg p f) := by
  rw [declare_eq]
  cases f.stored with
  | none => exact h
  | some data => exact h.register (fun _ => rfl) rfl

theorem settled_files (h : Settled endpoint id p) (files : List Declared) :
    Settled endpoint id (files.foldl (declare cfg) p) := by
  induction files generalizing p with
  | nil => exact h
  | cons f files ih => exact ih (settled_declare h f)

/-- **The start.**  A file that declares the endpoint settles it. -/
theorem files_settle (h : Indexed endpoint p) {files : List Declared}
    (hdeclared : ∃ f ∈ files, ∃ data ∈ f.stored, data.endpoint = endpoint) :
    ∃ id, Settled endpoint id (files.foldl (declare cfg) p) := by
  induction files generalizing p with
  | nil =>
      obtain ⟨f, hmem, -⟩ := hdeclared
      cases hmem
  | cons f files ih =>
      rw [List.foldl_cons]
      by_cases hf : ∃ data ∈ f.stored, data.endpoint = endpoint
      · obtain ⟨data, hstored, hend⟩ := hf
        have hredis : (declare cfg p f).registry.redis =
            p.registry.redis.register cfg p.registry.now data true f.newId := by
          rw [declare_eq, hstored]
        exact ⟨_, settled_files (h.settles hend hredis) files⟩
      · have hrest : ∃ f' ∈ files, ∃ data ∈ f'.stored, data.endpoint = endpoint := by
          obtain ⟨f', hmem, hstores⟩ := hdeclared
          rcases List.mem_cons.1 hmem with rfl | hmem
          · exact absurd hstores hf
          · exact ⟨f', hmem, hstores⟩
        refine ih ?_ hrest
        rw [declare_eq]
        cases hstored : f.stored with
        | none => exact h
        | some data => exact h.register (fun hend => hf ⟨data, hstored, hend⟩) rfl

/-! ## Between two starts -/

theorem endpointIndex_removeOrphans (r : Redis) (skills : List String) :
    (r.removeOrphans skills).2.endpointIndex = r.endpointIndex := by
  induction skills generalizing r with
  | nil => rfl
  | cons k skills ih =>
      rw [Redis.removeOrphans]
      exact ih _

theorem settled_perform (h : Settled endpoint id p) {op : Op} {registry : Registry.State}
    (hok : ¬ (Event.op op).External endpoint) (hop : perform cfg p.registry op = some registry) :
    Settled endpoint id { p with registry := registry } := by
  cases op with
  | register data internal newId =>
      rw [perform] at hop
      split at hop
      · cases hop
        refine h.register (fun hend => ?_) rfl
        cases internal with
        | true => rfl
        | false => exact absurd hend hok
      · cases hop
  | heartbeat agentId =>
      cases hop
      refine h.of_fewer ?_ fun id' record hread => ?_ <;> unfold Redis.heartbeat at *
      · cases p.registry.redis.agents.read agentId <;> rfl
      · cases hagent : p.registry.redis.agents.read agentId with
        | none => exact ⟨record, by simpa [hagent] using hread, rfl⟩
        | some stored =>
            simp only [hagent, Registry.read_heartbeatPipeline] at hread
            split at hread
            · rename_i hid
              cases hread
              exact ⟨stored, by rw [hid, hagent], rfl⟩
            · exact ⟨record, hread, rfl⟩
  | deregister agentId =>
      cases hop
      refine h.of_fewer rfl fun id' record hread => ⟨record, ?_, rfl⟩
      rw [Redis.deregister, Registry.read_deregisterPipeline] at hread
      split at hread
      · cases hread
      · exact hread
  | healthSweep =>
      cases hop
      refine h.of_fewer ?_ fun id' record hread => ⟨record, ?_, rfl⟩
      · rw [Registry.healthSweep_snd, endpointIndex_removeOrphans]
        rfl
      · exact ((Registry.read_healthSweep cfg _ _ id' record).1 hread).1
  | tick dt =>
      cases hop
      constructor
      · -- an entry without a deadline does not expire
        refine (Keyspace.entry_tick _ _ _).trans ?_
        rw [h.pinned]
        rfl
      · intro id' record hread
        exact h.single id' record (Keyspace.read_of_read_tick p.registry.redis.agents hread)

theorem settled_step (h : Settled endpoint id p) {event : Event} (hok : ¬ event.External endpoint)
    (hstep : step cfg p event = some q) : Settled endpoint id q := by
  cases event with
  | boot files =>
      cases hstep
      have hstart : Settled endpoint id { p with adapters := [] } := ⟨h.pinned, h.single⟩
      exact settled_files hstart files
  | op op =>
      obtain ⟨registry, hop, rfl⟩ := Option.map_eq_some_iff.1 hstep
      exact settled_perform h hok hop

/-- **A declared agent keeps its id.**  Once the process has started with a file that declares
the endpoint, the endpoint has one id in every state there is from then on, whatever the files
of later starts are: every registration from it gets this id, and it has no other record. -/
theorem declared_stays (cfg : Config) {files : List Declared} {events : List Event}
    (hindexed : Indexed endpoint p)
    (hdeclared : ∃ f ∈ files, ∃ data ∈ f.stored, data.endpoint = endpoint)
    (hinternal : ∀ event ∈ events, ¬ event.External endpoint) :
    ∃ id, Run.Throughout (step cfg) (Settled endpoint id) (boot cfg p files) events := by
  have hstart : Indexed endpoint { p with adapters := [] } := hindexed
  obtain ⟨id, hsettled⟩ := @files_settle cfg _ _ hstart _ hdeclared
  have hok : Run.Along (step cfg) (fun _ event => ¬ event.External endpoint) (boot cfg p files)
    events := Run.along_of_mem _ hinternal
  exact ⟨id, Run.throughout_of_invariant (fun _ _ _ h hok hstep => settled_step h hok hstep)
    hsettled hok⟩

/-- A declared coder. -/
def coder : Declaration :=
  { name := some "coder", endpoint := some "local:coder", protocol := some "cli"
    skills := some ["python"] }

/-- It is deregistered, and the next start, with a file more, gives it its id again. -/
def restarted : List Event :=
  [.op (.deregister "a1"), .op (.tick 500), .op .healthSweep,
    .boot [⟨.unreadable, "b1", "07be", .returns⟩, ⟨.mapping coder, "b2", "51aa", .returns⟩]]

theorem coder_stays :
    ∃ id, Run.Throughout (step Registry.thirty) (Settled "local:coder" id)
      (boot Registry.thirty ⟨Registry.start, []⟩ [⟨.mapping coder, "a1", "9d4f", .returns⟩]) restarted :=
  declared_stays Registry.thirty (fun id record hread => by cases hread)
    ⟨_, List.mem_singleton_self _, _, rfl, rfl⟩ (by simp [restarted, Event.External])

/-! ## One start -/

/-- The record, the index entry and the adapter of an agent that was declared at `now`. -/
structure Holds (data : AgentData) (id : String) (now : ℕ) (adapter : Option AgentBackend)
    (p : Process) : Prop where
  record : p.registry.redis.agents.read id = some (data.record id now true)
  entry : p.registry.redis.endpointIndex.entry data.endpoint = some ⟨id, none⟩
  adapter : ∀ backend ∈ adapter, p.adapters.get id = some backend

theorem declare_now (p : Process) (f : Declared) : (declare cfg p f).registry.now =
    p.registry.now := by
  rw [declare_eq]
  cases f.stored <;> rfl

/-- The id that a round uses is the endpoint's, or the file's own. -/
theorem chosenId_cases (r : Redis) (data : AgentData) (newId : String) :
    r.endpointIndex.read data.endpoint = some (chosenId r data newId) ∨
      (r.endpointIndex.read data.endpoint = none ∧ chosenId r data newId = newId) := by
  unfold chosenId
  cases r.endpointIndex.read data.endpoint with
  | none => exact .inr ⟨rfl, rfl⟩
  | some id => exact .inl rfl

variable {files : List Declared}

/-- The id that the round for a file uses is no other endpoint's. -/
theorem Ready.chosen_unused (h : Ready p (f :: files)) (data : AgentData) {other : String}
    (hother : p.registry.redis.endpointIndex.read other =
      some (chosenId p.registry.redis data f.newId)) : other = data.endpoint := by
  rcases chosenId_cases p.registry.redis data f.newId with hread | ⟨-, hnew⟩
  · exact h.oneEndpoint _ _ _ hother hread
  · rw [hnew] at hother
    exact absurd hother (h.fresh f List.mem_cons_self other)

/-- **A round leaves what the next ones need.** -/
theorem Ready.round (h : Ready p (f :: files)) : Ready (declare cfg p f) files := by
  have hdistinct := List.nodup_cons.1 h.distinct
  rw [declare_eq]
  cases f.stored with
  | none =>
      exact ⟨h.oneEndpoint, hdistinct.2, fun f' hf' => h.fresh f' (List.mem_cons_of_mem f hf')⟩
  | some data =>
      refine ⟨fun e e' id he he' => ?_, hdistinct.2, fun f' hf' e he => ?_⟩
      · dsimp only at he he'
        rw [index_register] at he he'
        split at he <;> split at he'
        · rename_i heq heq'
          exact heq.trans heq'.symm
        · rename_i heq hne'
          cases he
          exact absurd (h.chosen_unused data he') hne'
        · rename_i hne heq'
          cases he'
          exact absurd (h.chosen_unused data he) hne
        · exact h.oneEndpoint e e' id he he'
      · dsimp only at he
        rw [index_register] at he
        split at he
        · rcases chosenId_cases p.registry.redis data f.newId with hread | ⟨-, hnew⟩
          · exact h.fresh f' (List.mem_cons_of_mem f hf') _ (hread.trans he)
          · refine hdistinct.1 (List.mem_map.2 ⟨f', hf', ?_⟩)
            exact (Option.some.inj he).symm.trans hnew
        · exact h.fresh f' (List.mem_cons_of_mem f hf') e he

/-- The round that stores the agent. -/
theorem holds_declare (hstored : f.stored = some data) :
    Holds data (chosenId p.registry.redis data f.newId) p.registry.now f.adapter
      (declare cfg p f) := by
  rw [declare_eq, hstored]
  refine ⟨?_, ?_, fun backend hbackend => ?_⟩
  · exact (read_register _ _ _ _ _ _).trans (if_pos rfl)
  · exact (entry_register _ _ _ _ _ _).trans (if_pos rfl)
  · rw [hbackend]
    exact Dict.get_set_self _ _ _

/-- The round of a file for another endpoint. -/
theorem Holds.round {adapter : Option AgentBackend} (h : Holds data id now adapter p)
    (hready : Ready p (f :: files)) (hother : ∀ data' ∈ f.stored, data'.endpoint ≠ data.endpoint) :
    Holds data id now adapter (declare cfg p f) := by
  rw [declare_eq]
  cases hstored : f.stored with
  | none => exact h
  | some data' =>
      have hend : data'.endpoint ≠ data.endpoint := hother data' hstored
      have hne : id ≠ chosenId p.registry.redis data' f.newId := by
        intro heq
        have hread : p.registry.redis.endpointIndex.read data.endpoint = some id := by
          rw [Keyspace.read, h.entry]
          rfl
        exact hend (hready.chosen_unused data' (heq ▸ hread)).symm
      refine ⟨?_, ?_, fun backend hbackend => ?_⟩
      · exact (read_register _ _ _ _ _ _).trans ((if_neg hne).trans h.record)
      · exact (entry_register _ _ _ _ _ _).trans ((if_neg hend.symm).trans h.entry)
      · cases f.adapter with
        | none => exact h.adapter backend hbackend
        | some other => exact (Dict.get_set_of_ne _ _ hne).trans (h.adapter backend hbackend)

theorem Holds.through {adapter : Option AgentBackend} (h : Holds data id now adapter p)
    (hready : Ready p files)
    (hother : ∀ f ∈ files, ∀ data' ∈ f.stored, data'.endpoint ≠ data.endpoint) :
    Holds data id now adapter (files.foldl (declare cfg) p) := by
  induction files generalizing p with
  | nil => exact h
  | cons f files ih =>
      exact ih (h.round hready (hother f List.mem_cons_self)) hready.round
        fun f' hf' => hother f' (List.mem_cons_of_mem f hf')

theorem Ready.through {before after : List Declared} (h : Ready p (before ++ after)) :
    Ready (before.foldl (declare cfg) p) after ∧
      (before.foldl (declare cfg) p).registry.now = p.registry.now := by
  induction before generalizing p with
  | nil => exact ⟨h, rfl⟩
  | cons f before ih =>
      obtain ⟨hready, hnow⟩ := ih h.round
      exact ⟨hready, hnow.trans (declare_now p f)⟩

/-- An internal agent is online. -/
theorem Holds.listed {adapter : Option AgentBackend} {began : ℕ}
    (h : Holds data id began adapter p) : Listed cfg p.registry id := by
  refine ⟨Registry.withStatus cfg p.registry.now (data.record id began true), ?_, rfl⟩
  refine List.mem_filter.2 ⟨List.mem_map_of_mem (List.mem_filterMap.2 ⟨id, ?_, h.record⟩), ?_⟩
  · rw [← Keyspace.read_isSome_iff_mem_keys, h.record]
    rfl
  · simp [Registry.withStatus, isOnline, AgentData.record]

/-- **Every declaration that can be read is registered**, whatever the other files are: the
files that cannot be read, that miss a field, or whose registration or adapter raises.  Of two
declarations of one endpoint the later one counts. -/
theorem boot_registers (cfg : Config) {before after : List Declared}
    (hready : Ready p (before ++ f :: after)) (hstored : f.stored = some data)
    (hlater : ∀ f' ∈ after, ∀ data' ∈ f'.stored, data'.endpoint ≠ data.endpoint) :
    ∃ id, Holds data id p.registry.now f.adapter (boot cfg p (before ++ f :: after)) ∧
      Listed cfg (boot cfg p (before ++ f :: after)).registry id := by
  have hstart : Ready { p with adapters := [] } (before ++ f :: after) :=
    ⟨hready.oneEndpoint, hready.distinct, hready.fresh⟩
  obtain ⟨hhere, hnow⟩ := @Ready.through cfg _ _ _ hstart
  have hholds := @holds_declare cfg (before.foldl (declare cfg) { p with adapters := [] }) f _
    hstored
  rw [hnow] at hholds
  have hboot : boot cfg p (before ++ f :: after) =
      after.foldl (declare cfg) (declare cfg
        (before.foldl (declare cfg) { p with adapters := [] }) f) := by
    rw [boot, List.foldl_append, List.foldl_cons]
  have hend := @Holds.through cfg _ _ _ _ _ _ hholds hhere.round hlater
  rw [hboot]
  exact ⟨_, hend, hend.listed⟩

/-- A file that cannot be read, one without an endpoint, the coder, and one whose adapter
cannot be built. -/
def agentFiles : List Declared :=
  [⟨.unreadable, "a1", "07be", .returns⟩, ⟨.mapping { name := some "lost" }, "a2", "51aa", .returns⟩,
    ⟨.mapping coder, "a3", "9d4f", .returns⟩, ⟨.notMapping, "a4", "c3c3", .returns⟩]

theorem coder_registered :
    ∃ id, Listed Registry.thirty (boot Registry.thirty ⟨Registry.start, []⟩ agentFiles).registry
      id := by
  have hready : Ready ⟨Registry.start, []⟩ agentFiles :=
    ⟨fun _ _ _ h => (by cases h), by decide, fun _ _ _ h => (by cases h)⟩
  obtain ⟨id, -, hlisted⟩ := @boot_registers ⟨Registry.start, []⟩ ⟨.mapping coder, "a3", "9d4f", .returns⟩
    _ Registry.thirty (agentFiles.take 2) (agentFiles.drop 3) hready rfl
    (by simp [agentFiles, Declared.stored])
  exact ⟨id, hlisted⟩

end Startup
end AgentSwarm
