import AgentSwarm.Lib.Run
import AgentSwarm.Session.Manager

/-!
# Tenants and their sessions

A chat request names its tenant, and may name a session and an idempotency key.
The session manager and the idempotency index look the names up without the
tenant, so a request that names the session or the key of another tenant gets what
it names.

* `Turn` — a message, with the tenant whose request it came from.
* `Pc`, `Event`, `Server`, `step` — the handlers of the requests and their runs.
* `TenantIsolated` — each request has a session of its tenant, with its tenant's
  turns only, or is answered with a task of its tenant.
* `OwnNames` — the condition on a step.
* `Kept` — the invariant: whose sessions there are, in memory, in the store, and
  in the files.
* `tenantIsolated_of_ownNames` — **tenants are isolated** in every run that meets
  the condition.

`served` and `keyed` record the tenants that have used the names.
-/

namespace AgentSwarm
namespace Tenants

open Sessions

variable {D : Type} [DecidableEq D]

/-- A message, with the tenant whose request it came from. -/
structure Turn where
  tenantId : String
  text : String

/-- What a chat request names. -/
structure Request where
  tenantId : Option String
  sessionId : Option String
  key : Option String

/-- `req.tenant_id or "default"`. -/
def Request.tenant (req : Request) : String := (req.tenantId.filter (· ≠ "")).getD "default"

/-- `if idempotency_key:` — an empty header is no key. -/
def Request.keyOf (req : Request) : Option String := req.key.filter (· ≠ "")

/-- Where a request is.  A session is known by its object. -/
inductive Pc where
  | arriving
  /-- Past a look-up without a task. -/
  | missed
  | entered (session : ℕ)
  | created (session : ℕ) (taskId : String)
  /-- Answered, with its run in the background. -/
  | running (session : ℕ)
  | replayed (taskId : String)
  /-- The process has ended. -/
  | gone
  deriving DecidableEq

/-- The session that a request is served with. -/
def Pc.session : Pc → Option ℕ
  | .entered o => some o
  | .created o _ => some o
  | .running o => some o
  | _ => none

/-- The server. -/
structure Server (D : Type) where
  manager : SessionManager D Turn
  index : Dict String String
  /-- The tenants of the tasks. -/
  tasks : Dict String String
  pc : ℕ → Pc
  /-- The sessions that requests were served with, and their tenants. -/
  served : List (String × String)
  /-- The keys that were recorded since the process started, and the tenants. -/
  keyed : List (String × String)

/-- What happens next.  A request is a number; `newId` and `taskId` are what
`uuid4` gives. -/
inductive Event where
  | lookup (r : ℕ)
  | session (r : ℕ) (newId : String)
  | create (r : ℕ) (taskId : String)
  | record (r : ℕ)
  /-- The run leaves messages and a shared context in its session. -/
  | write (r : ℕ) (messages : List Turn) (sharedContext : String)
  | save (r : ℕ)
  /-- A fresh session manager over the same store, or a new process. -/
  | restart (process : Bool)

/-- A server without sessions.  `store` tells whether it has a SQLite store. -/
def init (dir : String → String → D) (store : Bool) : Server D where
  manager := {
    sessions := [], objects := fun _ => SessionManager.blank dir "" "", next := 0
    store := if store then some [] else none, disk := [] }
  index := []
  tasks := []
  pc _ := .arriving
  served := []
  keyed := []

namespace Server

/-- The request `r` moves to a place. -/
def goto (s : Server D) (r : ℕ) (p : Pc) : Server D := { s with pc := Function.update s.pc r p }

/-- `task_manager.get_task(_idempotency_index.get(idempotency_key))`, by its id. -/
def existing (s : Server D) (req : Request) : Option String :=
  req.keyOf.bind fun key => (s.index.get key).filter fun id => (s.tasks.get id).isSome

/-- `session_manager.get_or_create(req.session_id, tenant)`. -/
def enter (dir : String → String → D) (s : Server D) (req : Request) (r : ℕ) (newId : String) :
    Server D :=
  let (o, manager) := s.manager.getOrCreate dir req.sessionId req.tenant newId
  { s with
    manager := manager
    served := s.served ++ [((idOf req.sessionId).getD newId, req.tenant)] }.goto r (.entered o)

/-- `create_task`. -/
def createTask (s : Server D) (req : Request) (r o : ℕ) (taskId : String) : Server D :=
  { s with tasks := s.tasks.set taskId req.tenant }.goto r (.created o taskId)

/-- `_idempotency_index[idempotency_key] = task.task_id`, and the run is started. -/
def recordKey (s : Server D) (req : Request) (r o : ℕ) (taskId : String) : Server D :=
  match req.keyOf with
  | none => s.goto r (.running o)
  | some key =>
      { s with
        index := s.index.set key taskId
        keyed := s.keyed ++ [(key, req.tenant)] }.goto r (.running o)

/-- What is left of a request when the process ends. -/
def ended : Pc → Pc
  | .arriving => .arriving
  | .replayed taskId => .replayed taskId
  | _ => .gone

/-- A restart. -/
def restart (s : Server D) (process : Bool) : Server D :=
  let s := { s with manager := s.manager.restart }
  if process then { s with index := [], keyed := [], pc := fun r => ended (s.pc r) } else s

end Server

/-- One step. -/
def step (dir : String → String → D) (prog : ℕ → Request) (s : Server D) :
    Event → Option (Server D)
  | .lookup r =>
      match s.pc r with
      | .arriving =>
          match s.existing (prog r) with
          | some taskId => some (s.goto r (.replayed taskId))
          | none => some (s.goto r .missed)
      | _ => none
  | .session r newId =>
      match s.pc r with
      | .missed => some (s.enter dir (prog r) r newId)
      | _ => none
  | .create r taskId =>
      match s.pc r with
      | .entered o => some (s.createTask (prog r) r o taskId)
      | _ => none
  | .record r =>
      match s.pc r with
      | .created o taskId => some (s.recordKey (prog r) r o taskId)
      | _ => none
  | .write r messages sharedContext =>
      match s.pc r with
      | .running o => some { s with manager := s.manager.modify o messages sharedContext }
      | _ => none
  | .save r =>
      match s.pc r with
      | .running o => some { s with manager := s.manager.save dir o }
      | _ => none
  | .restart process => some (s.restart process)

/-! ## The property and the condition -/

/-- **Isolation of the tenants.** -/
structure TenantIsolated (prog : ℕ → Request) (s : Server D) : Prop where
  session : ∀ r o, (s.pc r).session = some o →
    (s.manager.objects o).tenantId = (prog r).tenant ∧
      ∀ turn ∈ (s.manager.objects o).messages, turn.tenantId = (prog r).tenant
  replay : ∀ r taskId, s.pc r = .replayed taskId → s.tasks.get taskId = some (prog r).tenant

/-- The condition on a step.  A key that is in the index was recorded by requests
of the tenant only.  A session id that leads to a session, and the directory it
leads to, were used by requests of the tenant only.  `uuid4` gives no id of a task
of another tenant; and a run leaves in its session what was there and turns of its
tenant. -/
def OwnNames (dir : String → String → D) (prog : ℕ → Request) (s : Server D) : Event → Prop
  | .lookup r => ∀ key, (prog r).keyOf = some key → key ∈ s.index.keys →
      ∀ tenant, (key, tenant) ∈ s.keyed → tenant = (prog r).tenant
  | .session r _ => ∀ sid, idOf (prog r).sessionId = some sid →
      s.manager.Found dir sid (prog r).tenant → ∀ sid' tenant, (sid', tenant) ∈ s.served →
        sid' = sid ∨ dir tenant sid' = dir (prog r).tenant sid → tenant = (prog r).tenant
  | .create r taskId => ∀ tenant, s.tasks.get taskId = some tenant → tenant = (prog r).tenant
  | .write r messages _ => ∀ o, s.pc r = .running o → ∀ turn ∈ messages,
      turn ∈ (s.manager.objects o).messages ∨ turn.tenantId = (prog r).tenant
  | _ => True

/-! ## The invariant -/

/-- The turns of a session are those of its tenant. -/
def Pure (state : SessionState D Turn) : Prop :=
  ∀ turn ∈ state.messages, turn.tenantId = state.tenantId

/-- Whose sessions there are, in memory, in the store and in the files; whom they
serve; and whose tasks the index names. -/
structure Kept (dir : String → String → D) (prog : ℕ → Request) (s : Server D) : Prop where
  pure : ∀ o, Pure (s.manager.objects o)
  known : ∀ o < s.manager.next,
    ((s.manager.objects o).sessionId, (s.manager.objects o).tenantId) ∈ s.served
  memory : ∀ sid o, s.manager.sessions.get sid = some o →
    o < s.manager.next ∧ (s.manager.objects o).sessionId = sid
  store : ∀ sid row, s.manager.store.bind (·.get sid) = some row →
    (∀ turn ∈ row.messages, turn.tenantId = row.tenantId) ∧ (sid, row.tenantId) ∈ s.served
  disk : ∀ d context, s.manager.disk.get d = some context →
    ∃ sid tenant, (sid, tenant) ∈ s.served ∧ dir tenant sid = d ∧
      ∀ turn ∈ context.messages, turn.tenantId = tenant
  held : ∀ r o, (s.pc r).session = some o →
    o < s.manager.next ∧ (s.manager.objects o).tenantId = (prog r).tenant
  index : ∀ key taskId, s.index.get key = some taskId →
    ∃ tenant, s.tasks.get taskId = some tenant ∧ (key, tenant) ∈ s.keyed
  created : ∀ r o taskId, s.pc r = .created o taskId →
    s.tasks.get taskId = some (prog r).tenant
  replayed : ∀ r taskId, s.pc r = .replayed taskId → s.tasks.get taskId = some (prog r).tenant

variable {dir : String → String → D} {prog : ℕ → Request} {s t : Server D}

theorem kept_init (store : Bool) : Kept dir prog (init dir store) where
  pure _ _ hturn := by cases hturn
  known _ ho := by cases ho
  memory _ _ h := by cases h
  store sid row h := by cases store <;> cases h
  disk _ _ h := by cases h
  held _ _ h := by cases h
  index _ _ h := by cases h
  created _ _ _ h := by cases h
  replayed _ _ h := by cases h

theorem Kept.tenantIsolated (h : Kept dir prog s) : TenantIsolated prog s where
  session r o ho := by
    have htenant := (h.held r o ho).2
    exact ⟨htenant, fun turn hturn => (h.pure o turn hturn).trans htenant⟩
  replay := h.replayed

/-! ## One step -/

/-- A request moves to a place that fits the invariant. -/
theorem Kept.goto (h : Kept dir prog s) {r : ℕ} {p : Pc}
    (hheld : ∀ o, p.session = some o →
      o < s.manager.next ∧ (s.manager.objects o).tenantId = (prog r).tenant)
    (htask : ∀ taskId, (∃ o, p = .created o taskId) ∨ p = .replayed taskId →
      s.tasks.get taskId = some (prog r).tenant) : Kept dir prog (s.goto r p) := by
  refine { h with held := ?_, created := ?_, replayed := ?_ } <;> intro q
  · intro o ho
    by_cases hq : q = r
    · subst hq
      simp only [Server.goto, Function.update_self] at ho
      exact hheld o ho
    · simp only [Server.goto, Function.update_of_ne hq] at ho
      exact h.held q o ho
  · intro o taskId hpc
    by_cases hq : q = r
    · subst hq
      simp only [Server.goto, Function.update_self] at hpc
      exact htask taskId (.inl ⟨o, hpc⟩)
    · simp only [Server.goto, Function.update_of_ne hq] at hpc
      exact h.created q o taskId hpc
  · intro taskId hpc
    by_cases hq : q = r
    · subst hq
      simp only [Server.goto, Function.update_self] at hpc
      exact htask taskId (.inr hpc)
    · simp only [Server.goto, Function.update_of_ne hq] at hpc
      exact h.replayed q taskId hpc

/-- A further use of a session id is recorded. -/
theorem Kept.serve (h : Kept dir prog s) (use : String × String) :
    Kept dir prog { s with served := s.served ++ [use] } where
  pure := h.pure
  known o ho := List.mem_append_left _ (h.known o ho)
  memory := h.memory
  store sid row hrow := ⟨(h.store sid row hrow).1, List.mem_append_left _ (h.store sid row hrow).2⟩
  disk d context hcontext := by
    obtain ⟨sid, tenant, hmem, hdir⟩ := h.disk d context hcontext
    exact ⟨sid, tenant, List.mem_append_left _ hmem, hdir⟩
  held := h.held
  index := h.index
  created := h.created
  replayed := h.replayed

/-- A new object with turns of its tenant. -/
theorem Kept.add (h : Kept dir prog s) {state : SessionState D Turn} (hpure : Pure state)
    (hknown : (state.sessionId, state.tenantId) ∈ s.served) :
    Kept dir prog { s with manager := s.manager.add state } := by
  have hold : ∀ o < s.manager.next, (s.manager.add state).objects o = s.manager.objects o :=
    fun o ho => Function.update_of_ne (Nat.ne_of_lt ho) _ _
  have hnew : (s.manager.add state).objects s.manager.next = state := Function.update_self _ _ _
  refine { h with pure := ?_, known := ?_, memory := ?_, held := ?_ }
  · intro o
    by_cases ho : o = s.manager.next
    · rw [ho]
      exact hnew.symm ▸ hpure
    · have hsame : (s.manager.add state).objects o = s.manager.objects o :=
        Function.update_of_ne ho _ _
      exact hsame.symm ▸ h.pure o
  · intro o ho
    rcases Nat.lt_succ_iff_lt_or_eq.1 ho with hlt | rfl
    · exact (hold o hlt).symm ▸ h.known o hlt
    · exact hnew.symm ▸ hknown
  · intro sid o hget
    simp only [SessionManager.add, Dict.get_set] at hget
    split at hget
    · rename_i hsid
      cases hget
      exact ⟨Nat.lt_succ_self _, (congrArg SessionState.sessionId hnew).trans hsid.symm⟩
    · obtain ⟨hlt, hid⟩ := h.memory sid o hget
      exact ⟨Nat.lt_succ_of_lt hlt, (congrArg SessionState.sessionId (hold o hlt)).trans hid⟩
  · intro r o ho
    obtain ⟨hlt, htenant⟩ := h.held r o ho
    exact ⟨Nat.lt_succ_of_lt hlt, (congrArg SessionState.tenantId (hold o hlt)).trans htenant⟩

/-- **Admission.**  A session that is found under an own name is the tenant's. -/
theorem kept_enter (h : Kept dir prog s) {r : ℕ} {newId : String}
    (hok : OwnNames dir prog s (.session r newId)) :
    Kept dir prog (s.enter dir (prog r) r newId) := by
  have hserved := h.serve ((idOf (prog r).sessionId).getD newId, (prog r).tenant)
  have hadded : ∀ state : SessionState D Turn, Pure state → state.tenantId = (prog r).tenant →
      state.sessionId = (idOf (prog r).sessionId).getD newId →
      (s.manager.getOrCreate dir (prog r).sessionId (prog r).tenant newId) =
        (s.manager.next, s.manager.add state) →
      Kept dir prog (s.enter dir (prog r) r newId) := by
    intro state hpure htenant hid hget
    simp only [Server.enter, hget]
    refine (hserved.add hpure ?_).goto ?_ ?_
    · rw [htenant, hid]
      exact List.mem_append_right _ (List.mem_singleton_self _)
    · intro o ho
      cases ho
      refine ⟨Nat.lt_succ_self _, ?_⟩
      simp [SessionManager.add, htenant]
    · rintro taskId (⟨o, hp⟩ | hp) <;> cases hp
  rcases s.manager.getOrCreate_cases dir (prog r).sessionId (prog r).tenant newId with
    ⟨sid, o, hid, hmem, hget⟩ | ⟨sid, row, hid, hrow, hget⟩ | ⟨sid, context, hid, hdisk, hget⟩ | hget
  · -- in memory
    obtain ⟨hlt, hsid⟩ := h.memory sid o hmem
    have htenant : (s.manager.objects o).tenantId = (prog r).tenant :=
      hok sid hid (.inl (Dict.mem_keys_of_get hmem)) _ _ (h.known o hlt) (.inl hsid)
    simp only [Server.enter, hget]
    refine hserved.goto ?_ ?_
    · intro o' ho'
      cases ho'
      exact ⟨hlt, htenant⟩
    · rintro taskId (⟨o, hp⟩ | hp) <;> cases hp
  · -- in the store
    obtain ⟨hpure, hmem⟩ := h.store sid row hrow
    have htenant : row.tenantId = (prog r).tenant :=
      hok sid hid (.inr (.inl (by simp [hrow]))) _ _ hmem (.inl rfl)
    exact hadded (SessionManager.ofRow sid row) hpure htenant (by rw [hid]; rfl) hget
  · -- in a file
    obtain ⟨sid', tenant, hmem, hdir, hpure⟩ := h.disk _ context hdisk
    have htenant : tenant = (prog r).tenant :=
      hok sid hid (.inr (.inr (by simp [hdisk]))) _ _ hmem (.inr hdir)
    exact hadded _ (fun turn hturn => (hpure turn hturn).trans htenant) rfl (by rw [hid]; rfl) hget
  · exact hadded _ (fun turn hturn => by cases hturn) rfl rfl hget

/-- A task with an id that no other tenant's task has. -/
theorem kept_createTask (h : Kept dir prog s) {r o : ℕ} {taskId : String}
    (hpc : s.pc r = .entered o) (hok : OwnNames dir prog s (.create r taskId)) :
    Kept dir prog (s.createTask (prog r) r o taskId) := by
  have htasks : ∀ id tenant, s.tasks.get id = some tenant →
      (s.tasks.set taskId (prog r).tenant).get id = some tenant := by
    intro id tenant hget
    rw [Dict.get_set]
    split
    · rename_i hid
      rw [hok tenant (hid ▸ hget)]
    · exact hget
  have hset : Kept dir prog { s with tasks := s.tasks.set taskId (prog r).tenant } := {
    h with
    index := fun key id hget => by
      obtain ⟨tenant, htask, hmem⟩ := h.index key id hget
      exact ⟨tenant, htasks id tenant htask, hmem⟩
    created := fun q o' id hq => htasks id _ (h.created q o' id hq)
    replayed := fun q id hq => htasks id _ (h.replayed q id hq) }
  refine hset.goto ?_ ?_
  · intro o' ho'
    cases ho'
    exact h.held r o (by rw [hpc]; rfl)
  · rintro id (⟨o', hp⟩ | hp)
    · cases hp
      exact Dict.get_set_self _ _ _
    · cases hp

/-- The key of a request is recorded for its tenant. -/
theorem kept_recordKey (h : Kept dir prog s) {r o : ℕ} {taskId : String}
    (hpc : s.pc r = .created o taskId) : Kept dir prog (s.recordKey (prog r) r o taskId) := by
  have hheld : ∀ o', (Pc.running o).session = some o' →
      o' < s.manager.next ∧ (s.manager.objects o').tenantId = (prog r).tenant := by
    intro o' ho'
    cases ho'
    exact h.held r o (by rw [hpc]; rfl)
  have hnone : ∀ taskId', (∃ o', Pc.running o = .created o' taskId') ∨
      Pc.running o = .replayed taskId' → s.tasks.get taskId' = some (prog r).tenant := by
    rintro taskId' (⟨o', hp⟩ | hp) <;> cases hp
  unfold Server.recordKey
  cases hkey : (prog r).keyOf with
  | none => exact h.goto hheld hnone
  | some key =>
      have hkeyed : Kept dir prog { s with
          index := s.index.set key taskId, keyed := s.keyed ++ [(key, (prog r).tenant)] } := by
        refine { h with index := ?_ }
        intro key' id hget
        simp only [Dict.get_set] at hget
        split at hget
        · rename_i hsame
          cases hget
          exact ⟨(prog r).tenant, h.created r o taskId hpc, by simp [hsame]⟩
        · obtain ⟨tenant, htask, hmem⟩ := h.index key' id hget
          exact ⟨tenant, htask, List.mem_append_left _ hmem⟩
      exact hkeyed.goto hheld hnone

/-- An answer from the index. -/
theorem kept_lookup (h : Kept dir prog s) {r : ℕ} {taskId : String}
    (hexisting : s.existing (prog r) = some taskId) (hok : OwnNames dir prog s (.lookup r)) :
    Kept dir prog (s.goto r (.replayed taskId)) := by
  obtain ⟨key, hkey, hfound⟩ := Option.bind_eq_some_iff.1 hexisting
  obtain ⟨hget, -⟩ := Option.filter_eq_some_iff.1 hfound
  obtain ⟨tenant, htask, hmem⟩ := h.index key taskId hget
  have htenant : tenant = (prog r).tenant :=
    hok key hkey (Dict.mem_keys_of_get hget) tenant hmem
  refine h.goto (by simp [Pc.session]) ?_
  rintro id (⟨o, hp⟩ | hp) <;> cases hp
  rw [htask, htenant]

/-- What a run leaves in its session. -/
theorem kept_write (h : Kept dir prog s) {r o : ℕ} {messages : List Turn} {sharedContext : String}
    (hpc : s.pc r = .running o) (hok : OwnNames dir prog s (.write r messages sharedContext)) :
    Kept dir prog { s with manager := s.manager.modify o messages sharedContext } := by
  have hheld := h.held r o (by rw [hpc]; rfl)
  have hsame : ∀ o', ((s.manager.modify o messages sharedContext).objects o').sessionId =
        (s.manager.objects o').sessionId ∧
      ((s.manager.modify o messages sharedContext).objects o').tenantId =
        (s.manager.objects o').tenantId := by
    intro o'
    by_cases ho : o' = o
    · subst ho
      simp [SessionManager.modify]
    · simp [SessionManager.modify, ho]
  refine { h with pure := ?_, known := ?_, memory := ?_, held := ?_ }
  · intro o'
    by_cases ho : o' = o
    · subst ho
      intro turn hturn
      simp only [SessionManager.modify, Function.update_self] at hturn ⊢
      rcases hok o' hpc turn hturn with hold | hown
      · exact h.pure o' turn hold
      · exact hown.trans hheld.2.symm
    · intro turn hturn
      simp only [SessionManager.modify, Function.update_of_ne ho] at hturn ⊢
      exact h.pure o' turn hturn
  · intro o' ho
    rw [(hsame o').1, (hsame o').2]
    exact h.known o' ho
  · intro sid o' hget
    rw [(hsame o').1]
    exact h.memory sid o' hget
  · intro q o' hq
    rw [(hsame o').2]
    exact h.held q o' hq

/-- A session is saved under its id, or in its directory. -/
theorem kept_save (h : Kept dir prog s) {r o : ℕ} (hpc : s.pc r = .running o) :
    Kept dir prog { s with manager := s.manager.save dir o } := by
  have hknown := h.known o (h.held r o (by rw [hpc]; rfl)).1
  unfold SessionManager.save
  cases hstore : s.manager.store with
  | none =>
      refine { h with store := ?_, disk := ?_ }
      · intro sid row hrow
        cases hrow
      · intro d context hget
        simp only [Dict.get_set] at hget
        split at hget
        · rename_i hd
          cases hget
          exact ⟨_, _, hknown, hd.symm, h.pure o⟩
        · exact h.disk d context hget
  | some table =>
      refine { h with store := ?_ }
      intro sid row hrow
      simp only [Option.bind_some, Dict.get_replace] at hrow
      split at hrow
      · rename_i hsid
        cases hrow
        exact ⟨h.pure o, hsid ▸ hknown⟩
      · exact h.store sid row (by rw [hstore]; exact hrow)

/-- A restart forgets the sessions in memory, and a new process the index. -/
theorem kept_restart (h : Kept dir prog s) (process : Bool) :
    Kept dir prog (s.restart process) := by
  have hmanager : Kept dir prog { s with manager := s.manager.restart } := {
    h with memory := fun sid o hget => by cases hget }
  unfold Server.restart
  cases process with
  | false => exact hmanager
  | true =>
      refine { hmanager with held := ?_, index := ?_, created := ?_, replayed := ?_ }
      · intro r o ho
        simp only [if_true] at ho
        cases hpc : s.pc r <;> simp [hpc, Server.ended, Pc.session] at ho
      · intro key taskId hget
        cases hget
      · intro r o taskId hr
        simp only [if_true] at hr
        cases hpc : s.pc r <;> simp [hpc, Server.ended] at hr
      · intro r taskId hr
        simp only [if_true] at hr
        refine h.replayed r taskId ?_
        cases hpc : s.pc r <;> simp_all [Server.ended]

/-- **One step.** -/
theorem kept_step {e : Event} (h : Kept dir prog s) (hok : OwnNames dir prog s e)
    (hstep : step dir prog s e = some t) : Kept dir prog t := by
  cases e with
  | lookup r =>
      simp only [step] at hstep
      split at hstep
      · split at hstep <;> cases hstep
        · exact kept_lookup h ‹_› hok
        · refine h.goto (by simp [Pc.session]) ?_
          rintro id (⟨o, hp⟩ | hp) <;> cases hp
      · cases hstep
  | session r newId =>
      simp only [step] at hstep
      split at hstep <;> cases hstep
      exact kept_enter h hok
  | create r taskId =>
      simp only [step] at hstep
      split at hstep <;> cases hstep
      exact kept_createTask h ‹_› hok
  | record r =>
      simp only [step] at hstep
      split at hstep <;> cases hstep
      exact kept_recordKey h ‹_›
  | write r messages sharedContext =>
      simp only [step] at hstep
      split at hstep <;> cases hstep
      exact kept_write h ‹_› hok
  | save r =>
      simp only [step] at hstep
      split at hstep <;> cases hstep
      exact kept_save h ‹_›
  | restart process =>
      cases hstep
      exact kept_restart h process

/-! ## Whole runs -/

/-- **Tenants are isolated**, if no request names a session or a key that another
tenant has used and that still leads somewhere, if `uuid4` gives no id of another
tenant's task, and if a run leaves in its session no turns of another tenant. -/
theorem tenantIsolated_of_ownNames (dir : String → String → D) (prog : ℕ → Request) (store : Bool)
    (events : List Event)
    (hok : Run.Along (step dir prog) (OwnNames dir prog) (init dir store) events) :
    Run.Throughout (step dir prog) (TenantIsolated prog) (init dir store) events :=
  (Run.throughout_of_invariant (fun _ _ _ => kept_step) (kept_init store) hok).mono
    fun _ => Kept.tenantIsolated

/-! ## A session id of another tenant -/

/-- Two requests of one tenant, and one of another, which names the same session if
`same`. -/
def threeRequests (same : Bool) : ℕ → Request
  | 0 => ⟨some "acme", some "shop", none⟩
  | 1 => ⟨some "acme", some "shop", none⟩
  | _ => ⟨some "globex", if same then some "shop" else none, none⟩

/-- The request `r` is served. -/
def serve (r : ℕ) : List Event :=
  [.lookup r, .session r "3f2a91bc", .create r (toString r), .record r]

/-- A session is saved, and found again after a restart; the other tenant gets one
of its own. -/
theorem tenantIsolated_own_sessions :
    Run.Throughout (step Prod.mk (threeRequests false)) (TenantIsolated (threeRequests false))
      (init Prod.mk true)
      (serve 0 ++ [.write 0 [⟨"acme", "hello"⟩] "", .save 0, .restart true, .lookup 1,
        .session 1 "7be0d1f2", .lookup 2, .session 2 "91d4c0aa"]) := by
  refine tenantIsolated_of_ownNames _ _ _ _ ?_
  have hnoKey : ∀ r key, (threeRequests false r).keyOf ≠ some key := by
    intro r key
    match r with
    | 0 => exact nofun
    | 1 => exact nofun
    | r + 2 => exact nofun
  refine .cons (fun key hkey => absurd hkey (hnoKey _ _)) rfl (.cons ?_ rfl (.cons ?_ rfl
    (.cons trivial rfl (.cons ?_ rfl (.cons trivial rfl (.cons trivial rfl
    (.cons (fun key hkey => absurd hkey (hnoKey _ _)) rfl (.cons ?_ rfl
    (.cons (fun key hkey => absurd hkey (hnoKey _ _)) rfl (.cons ?_ rfl trivial))))))))))
  · rintro sid - - sid' tenant hmem
    cases hmem
  · rintro tenant htask
    cases htask
  · rintro o - turn hturn
    rw [List.mem_singleton] at hturn
    exact .inr (by rw [hturn]; rfl)
  · rintro sid - - sid' tenant hmem -
    have hserved : (sid', tenant) ∈ [("shop", "acme")] := hmem
    simp only [List.mem_singleton, Prod.mk.injEq] at hserved
    exact hserved.2
  · rintro sid hid
    cases hid

/-- **A session of another tenant.**  It is found in memory by its id alone. -/
theorem foreign_session_not_isolated :
    ¬ Run.Throughout (step Prod.mk (threeRequests true)) (TenantIsolated (threeRequests true))
      (init Prod.mk true) (serve 0 ++ [.lookup 2, .session 2 "3f2a91bc"]) := by
  intro h
  have hsession := ((h.last rfl).session 2 0 rfl).1
  exact absurd hsession (by decide)

end Tenants
end AgentSwarm
