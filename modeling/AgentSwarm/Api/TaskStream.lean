import AgentSwarm.Api.Websocket
import AgentSwarm.TaskManager.Manager

/-!
# What the watchers of a task are told

A client watches a task over a web socket.  It is connected first and is sent the status of the
task then; each change of the status is broadcast to the connections that the task has at that
time, and so is the cancellation by another client.  All of these run at the same time.

* `Msg`, `Pc`, `Server` — what is sent, where a watcher is, and the state of all of them.
* `changeStatus` — what `update_status` does before its first `await`.
* `Act`, `step` — one step of one call.
* `Told`, `Over`, `Announced` — a status that a watcher has been sent, a broadcast that is over,
  and a status whose broadcast is over.
* `Kept` — the invariant: who is not in the copy of a broadcast has read the status after it.
* `told_throughout` — **no watcher misses the status**, in any state of any run.
* `event_told` — a broadcast is sent to every watcher that is connected when its event is emitted.

The subscriber of a task is `on_event`, which broadcasts; the routes subscribe it once.  A call
that is cancelled, or that raises, takes no further step.
-/

namespace AgentSwarm
namespace TaskStream

open Websocket (Conn Manager Sound wsStep)

/-- What is sent over a socket. -/
inductive Msg where
  /-- The first message of a connection. -/
  | status (status : TaskStatus)
  | statusChange (oldStatus newStatus : TaskStatus)
  /-- The event of a cancel message. -/
  | cancelled
  /-- Any other event of the task, by its text. -/
  | other (text : String)
  deriving DecidableEq

/-- The status that a message tells. -/
def Msg.tells : Msg → Option TaskStatus
  | .status now => some now
  | .statusChange _ now => some now
  | .cancelled => some .cancelled
  | .other _ => none

/-- Where `task_websocket` is. -/
inductive Pc where
  | start
  /-- It is connected, and is to look the task up. -/
  | connected
  /-- It is sending the status that it has read. -/
  | telling (status : TaskStatus)
  | listening
  | left
  deriving DecidableEq

/-- The connections, the tasks, and the watchers. -/
structure Server where
  ws : Manager
  /-- The status of the task that `get_task` finds. -/
  status : String → Option TaskStatus
  subscribed : String → Bool
  /-- The task and the event of a broadcast, from the time it is called. -/
  event : ℕ → Option (String × Msg)
  /-- The broadcasts that tell the last change of the status, if it has changed. -/
  owed : String → Option (List ℕ)
  pc : Conn → Pc
  inbox : Conn → List Msg

/-- A server that has just been started over the tasks of its store. -/
def init (status : String → Option TaskStatus) : Server where
  ws := Websocket.initial
  status := status
  subscribed _ := false
  event _ := none
  owed _ := none
  pc _ := .start
  inbox _ := []

inductive Act where
  | createTask (taskId : String)
  | subscribe (taskId : String)
  /-- `update_status`; `b` is the broadcast of its `status_change`. -/
  | updateStatus (b : ℕ) (taskId : String) (status : TaskStatus)
  /-- A cancel message: `update_status`, and the broadcast `b'` of a `cancelled`. -/
  | cancel (b b' : ℕ) (taskId : String)
  /-- Another event of the task. -/
  | emit (b : ℕ) (taskId : String) (text : String)
  /-- A broadcast copies the connections. -/
  | broadcast (b : ℕ)
  | send (b : ℕ) (ok : Bool)
  | clean (b : ℕ)
  | connect (c : Conn)
  /-- `task_websocket` looks its task up. -/
  | getTask (c : Conn)
  /-- The send of the status returns or raises. -/
  | tell (c : Conn) (ok : Bool)
  | disconnect (c : Conn)

namespace Server

def call (s : Server) (b : ℕ) (taskId : String) (m : Msg) : Server :=
  { s with event := Function.update s.event b (some (taskId, m)) }

def goto (s : Server) (c : Conn) (pc : Pc) : Server :=
  { s with pc := Function.update s.pc c pc }

def receive (s : Server) (c : Conn) (m : Msg) : Server :=
  { s with inbox := Function.update s.inbox c (s.inbox c ++ [m]) }

/-- The status of a task is `status`, and the broadcasts `owed` are to tell it. -/
def set (s : Server) (taskId : String) (status : TaskStatus) (owed : List ℕ) : Server :=
  { s with
    status := Function.update s.status taskId (some status)
    owed := Function.update s.owed taskId (some owed) }

/-- `update_status`, up to the broadcast `b`; `more` are broadcasts that its caller makes. -/
def changeStatus (s : Server) (b : ℕ) (taskId : String) (status : TaskStatus) (more : List ℕ) :
    Server :=
  match s.status taskId with
  | none => s
  | some old =>
      if s.subscribed taskId then
        (s.set taskId status (b :: more)).call b taskId (.statusChange old status)
      else s.set taskId status more

end Server

/-- The broadcast has not been called yet. -/
def Server.Fresh (s : Server) (b : ℕ) : Prop := s.event b = none

instance (s : Server) (b : ℕ) : Decidable (s.Fresh b) := inferInstanceAs (Decidable (_ = _))

/-- One step.  A socket is sent the event of a broadcast when the send returns. -/
def step (s : Server) : Act → Option Server
  | .createTask taskId =>
      some { s.set taskId .created [] with subscribed := Function.update s.subscribed taskId false }
  | .subscribe taskId => some { s with subscribed := Function.update s.subscribed taskId true }
  | .updateStatus b taskId status =>
      if s.Fresh b then some (s.changeStatus b taskId status []) else none
  | .cancel b b' taskId =>
      if b ≠ b' ∧ s.Fresh b ∧ s.Fresh b' then
        some ((s.changeStatus b taskId .cancelled [b']).call b' taskId .cancelled)
      else none
  | .emit b taskId text => if s.Fresh b then some (s.call b taskId (.other text)) else none
  | .broadcast b =>
      match s.event b with
      | none => none
      | some (taskId, _) => (wsStep s.ws (.broadcast b taskId)).map fun ws => { s with ws := ws }
  | .send b ok =>
      match s.event b, s.ws.broadcasts b with
      | some (_, m), some ⟨_, c :: _, _⟩ =>
          (wsStep s.ws (.send b ok)).map fun ws =>
            if ok then { s with ws := ws }.receive c m else { s with ws := ws }
      | _, _ => none
  | .clean b => (wsStep s.ws (.clean b)).map fun ws => { s with ws := ws }
  | .connect c =>
      if s.pc c = .start then
        (wsStep s.ws (.connect c)).map fun ws => { s with ws := ws }.goto c .connected
      else none
  | .getTask c =>
      if s.pc c = .connected then
        match s.status c.taskId with
        | none => some (s.goto c .listening)
        | some status => some (s.goto c (.telling status))
      else none
  | .tell c ok =>
      match s.pc c with
      | .telling status =>
          if ok then some ((s.receive c (.status status)).goto c .listening)
          else some (s.goto c .left)
      | _ => none
  | .disconnect c =>
      if s.pc c = .start then none
      else (wsStep s.ws (.disconnect c)).map fun ws => { s with ws := ws }.goto c .left

/-! ## The property -/

/-- A message has told the watcher the status. -/
def Server.Told (s : Server) (c : Conn) (status : TaskStatus) : Prop :=
  ∃ m ∈ s.inbox c, m.tells = some status

/-- The broadcast has sent to all of its copy and has disconnected the dead. -/
def Server.Over (s : Server) (b : ℕ) : Prop :=
  ∃ w, s.ws.broadcasts b = some w ∧ w.rest = [] ∧ w.dead = []

/-- A broadcast that tells the last change of the status is over. -/
def Server.Announced (s : Server) (taskId : String) : Prop :=
  ∀ bs, s.owed taskId = some bs → ∃ b ∈ bs, s.Over b

/-! ## The invariant -/

/-- The watcher is not in the copy of a broadcast that tells the last change of the status, or
the status has not changed. -/
def Server.Missed (s : Server) (c : Conn) : Prop :=
  ∀ bs, s.owed c.taskId = some bs →
    ∃ b ∈ bs, ∃ connections, .copied b c.taskId connections ∈ s.ws.log ∧ c ∉ connections

/-- What the watcher has read is the status, and it has been told when it listens. -/
def Server.Current (s : Server) (c : Conn) : Prop :=
  ∀ status, s.status c.taskId = some status →
    (∀ read, s.pc c = .telling read → read = status) ∧ (s.pc c = .listening → s.Told c status)

/-- The invariant. -/
structure Kept (s : Server) : Prop where
  sound : Sound s.ws
  called : ∀ b w, s.ws.broadcasts b = some w → ∃ m, s.event b = some (w.taskId, m)
  arrived : ∀ b c, .sent b c true ∈ s.ws.log → ∃ taskId, ∃ m ∈ s.inbox c,
    s.event b = some (taskId, m)
  tells : ∀ taskId bs, s.owed taskId = some bs → ∀ b ∈ bs, ∃ m,
    s.event b = some (taskId, m) ∧ m.tells = s.status taskId
  read : ∀ c, s.ws.Registered c → s.Missed c → s.Current c

variable {s t : Server} {b : ℕ} {c : Conn}

theorem kept_init (status : String → Option TaskStatus) : Kept (init status) where
  sound := Websocket.sound_initial
  called _ _ h := by cases h
  arrived _ _ h := by cases h
  tells _ _ h := by cases h
  read c hreg _ := by cases hreg

theorem Kept.unbegun (h : Kept s) (hfresh : s.Fresh b) : s.ws.broadcasts b = none := by
  cases hb : s.ws.broadcasts b with
  | none => rfl
  | some w =>
      obtain ⟨m, hm⟩ := h.called b w hb
      rw [hfresh] at hm
      cases hm

/-- A broadcast that is over has reached every connection of its copy that is still there. -/
theorem Kept.reached (h : Kept s) {connections : List Conn} (hover : s.Over b)
    (hcopied : .copied b c.taskId connections ∈ s.ws.log) (hmem : c ∈ connections)
    (hreg : s.ws.Registered c) : .sent b c true ∈ s.ws.log := by
  obtain ⟨w, hw, hrest, hdead⟩ := hover
  obtain ⟨w', hw', hsent⟩ := h.sound.copied b _ connections hcopied
  obtain rfl := Option.some.inj (hw.symm.trans hw')
  rw [hrest, List.append_nil] at hsent
  rw [← hsent] at hmem
  obtain ⟨e, he, hec⟩ := List.mem_filterMap.1 hmem
  split at hec
  · rename_i b' c' ok
    split at hec
    · rename_i hb
      cases hec
      subst hb
      cases ok with
      | true => exact he
      | false => exact absurd hreg (h.sound.delivers.cleans b' c he w hw hrest hdead)
    · cases hec
  · cases hec

/-- **What the invariant says of a watcher that listens.** -/
theorem Kept.told (h : Kept s) (hreg : s.ws.Registered c) (hlistens : s.pc c = .listening)
    (hannounced : s.Announced c.taskId) {status : TaskStatus}
    (hstatus : s.status c.taskId = some status) : s.Told c status := by
  by_cases hmissed : s.Missed c
  · exact (h.read c hreg hmissed status hstatus).2 hlistens
  · rw [Server.Missed] at hmissed
    push Not at hmissed
    obtain ⟨bs, howed, hcopies⟩ := hmissed
    obtain ⟨b, hb, hover⟩ := hannounced bs howed
    obtain ⟨w, hw, -⟩ := id hover
    obtain ⟨m, hevent, htells⟩ := h.tells _ bs howed b hb
    obtain ⟨m', hevent'⟩ := h.called b w hw
    have htask : w.taskId = c.taskId := by
      rw [hevent] at hevent'
      exact (Prod.mk.inj (Option.some.inj hevent')).1.symm
    have hcopied := (h.sound.working b w hw).copied
    rw [htask] at hcopied
    obtain ⟨_, m'', hm'', hevent''⟩ :=
      h.arrived b c (h.reached hover hcopied (hcopies b hb _ hcopied) hreg)
    rw [hevent] at hevent''
    cases hevent''
    exact ⟨m, hm'', htells.trans hstatus⟩

theorem Server.Current.mono (h : s.Current c) (hstatus : t.status c.taskId = s.status c.taskId)
    (hpc : t.pc c = s.pc c) (hinbox : s.inbox c ⊆ t.inbox c) : t.Current c := by
  intro status hs
  rw [hstatus] at hs
  rw [hpc]
  obtain ⟨hread, htold⟩ := h status hs
  exact ⟨hread, fun hlistens => (htold hlistens).imp fun m hm => ⟨hinbox hm.1, hm.2⟩⟩

/-! ## Steps of the manager -/

section
variable {ws ws' : Manager} {a : Websocket.Act}

theorem registered_back (hstep : wsStep ws a = some ws') (h : ws'.Registered c) :
    ws.Registered c ∨ a = .connect c := by
  cases Websocket.wsStep_cases hstep with
  | @connect d =>
      rcases (Websocket.mem_add _ _ _).1 h with rfl | h
      · exact .inr rfl
      · exact .inl h
  | disconnect => exact .inl ((Websocket.mem_remove _ _ _).1 h).1
  | broadcast => exact .inl h
  | send => exact .inl h
  | clean => exact .inl ((Websocket.mem_remove _ _ _).1 h).1

/-- What is in the log afterwards was there before, or is the event of the step. -/
theorem copied_back (hstep : wsStep ws a = some ws') {taskId : String} {connections : List Conn}
    (h : .copied b taskId connections ∈ ws'.log) :
    .copied b taskId connections ∈ ws.log ∨
      a = .broadcast b taskId ∧ connections = ws.of taskId := by
  cases Websocket.wsStep_cases hstep with
  | broadcast =>
      rcases List.mem_append.1 h with h | h
      · exact .inl h
      · cases List.mem_singleton.1 h
        exact .inr ⟨rfl, rfl⟩
  | connect => exact .inl (by simpa using h)
  | disconnect => exact .inl (by simpa using h)
  | send => exact .inl (by simpa using h)
  | clean => exact .inl (by simpa using h)

theorem sent_back (hstep : wsStep ws a = some ws') (hsends : ∀ b, a ≠ .send b true)
    (h : .sent b c true ∈ ws'.log) : .sent b c true ∈ ws.log := by
  cases Websocket.wsStep_cases hstep with
  | @send _ ok =>
      rcases List.mem_append.1 h with h | h
      · exact h
      · cases List.mem_singleton.1 h
        exact absurd rfl (hsends b)
  | connect => simpa using h
  | disconnect => simpa using h
  | broadcast => simpa using h
  | clean => simpa using h

theorem copied_of_broadcast {taskId : String}
    (hstep : wsStep ws (.broadcast b taskId) = some ws') :
    .copied b taskId (ws.of taskId) ∈ ws'.log := by
  cases Websocket.wsStep_cases hstep with
  | broadcast => exact List.mem_append_right _ (List.mem_singleton_self _)

theorem log_mono (hstep : wsStep ws a = some ws') {e : Websocket.Event} (h : e ∈ ws.log) :
    e ∈ ws'.log := by
  cases Websocket.wsStep_cases hstep <;> exact List.mem_append_left _ h

theorem broadcasts_back (hstep : wsStep ws a = some ws') {w : Websocket.Broadcast}
    (h : ws'.broadcasts b = some w) :
    (∃ v, ws.broadcasts b = some v ∧ v.taskId = w.taskId) ∨ a = .broadcast b w.taskId := by
  cases Websocket.wsStep_cases hstep with
  | connect => exact .inl ⟨w, h, rfl⟩
  | disconnect => exact .inl ⟨w, h, rfl⟩
  | broadcast =>
      rcases Websocket.update_some h with ⟨rfl, rfl⟩ | ⟨-, h⟩
      · exact .inr rfl
      · exact .inl ⟨w, h, rfl⟩
  | send hb =>
      rcases Websocket.update_some h with ⟨rfl, rfl⟩ | ⟨-, h⟩
      · exact .inl ⟨_, hb, rfl⟩
      · exact .inl ⟨w, h, rfl⟩
  | clean hb =>
      rcases Websocket.update_some h with ⟨rfl, rfl⟩ | ⟨-, h⟩
      · exact .inl ⟨_, hb, rfl⟩
      · exact .inl ⟨w, h, rfl⟩

end

/-! ## One step -/

@[simp] theorem pc_goto (s : Server) (c : Conn) (pc : Pc) : (s.goto c pc).pc c = pc :=
  Function.update_self ..

@[simp] theorem inbox_receive (s : Server) (c : Conn) (m : Msg) :
    (s.receive c m).inbox c = s.inbox c ++ [m] := Function.update_self ..

theorem inbox_subset_receive (s : Server) (c : Conn) (m : Msg) (d : Conn) :
    s.inbox d ⊆ (s.receive c m).inbox d := by
  by_cases hdc : d = c
  · subst hdc
    rw [inbox_receive]
    exact List.subset_append_left _ _
  · have hother : (s.receive c m).inbox d = s.inbox d := Function.update_of_ne hdc _ _
    rw [hother]
    exact List.Subset.refl _

/-- A watcher that neither tells nor listens. -/
theorem current_of_pc (htelling : ∀ read, s.pc c ≠ .telling read) (hlistens : s.pc c ≠ .listening) :
    s.Current c :=
  fun _ _ => ⟨fun read h => absurd h (htelling read), fun h => absurd h hlistens⟩

/-- Nothing of the connections and of the statuses changes. -/
theorem Kept.quiet (h : Kept s) (hws : t.ws = s.ws)
    (hevent : ∀ b p, s.event b = some p → t.event b = some p)
    (hinbox : ∀ c, s.inbox c ⊆ t.inbox c) (hstatus : t.status = s.status) (howed : t.owed = s.owed)
    (hcurrent : ∀ c, s.Current c → t.Current c) : Kept t where
  sound := hws ▸ h.sound
  called b w hb := by
    rw [hws] at hb
    exact (h.called b w hb).imp fun m hm => hevent b _ hm
  arrived b c hsent := by
    rw [hws] at hsent
    obtain ⟨taskId, m, hm, hb⟩ := h.arrived b c hsent
    exact ⟨taskId, m, hinbox c hm, hevent b _ hb⟩
  tells taskId bs hbs b hb := by
    rw [howed] at hbs
    rw [hstatus]
    exact (h.tells taskId bs hbs b hb).imp fun m hm => ⟨hevent b _ hm.1, hm.2⟩
  read c hreg hmissed := by
    rw [hws] at hreg
    refine hcurrent c (h.read c hreg ?_)
    rw [Server.Missed, hws, howed] at hmissed
    exact hmissed

/-- The status of one task changes, and broadcasts that have not begun are to tell it. -/
theorem Kept.change (h : Kept s) (taskId : String) {bs : List ℕ} (hws : t.ws = s.ws)
    (hevent : ∀ b p, s.event b = some p → t.event b = some p) (hinbox : t.inbox = s.inbox)
    (hpc : t.pc = s.pc)
    (hothers : ∀ id, id ≠ taskId → t.status id = s.status id ∧ t.owed id = s.owed id)
    (hnew : t.owed taskId = some bs)
    (hbs : ∀ b ∈ bs, s.Fresh b ∧ ∃ m, t.event b = some (taskId, m) ∧ m.tells = t.status taskId) :
    Kept t where
  sound := hws ▸ h.sound
  called b w hb := by
    rw [hws] at hb
    exact (h.called b w hb).imp fun m hm => hevent b _ hm
  arrived b c hsent := by
    rw [hws] at hsent
    obtain ⟨id, m, hm, hb⟩ := h.arrived b c hsent
    exact ⟨id, m, hinbox ▸ hm, hevent b _ hb⟩
  tells id bs' hbs' b hb := by
    by_cases hid : id = taskId
    · subst hid
      rw [hnew] at hbs'
      cases hbs'
      exact (hbs b hb).2
    · rw [(hothers id hid).2] at hbs'
      rw [(hothers id hid).1]
      exact (h.tells id bs' hbs' b hb).imp fun m hm => ⟨hevent b _ hm.1, hm.2⟩
  read c hreg hmissed := by
    by_cases hid : c.taskId = taskId
    · -- the broadcasts that are to tell it have copied nothing yet
      obtain ⟨b, hb, connections, hcopied, -⟩ := hmissed bs (hid ▸ hnew)
      rw [hws] at hcopied
      obtain ⟨w, hw, -⟩ := h.sound.copied b _ _ hcopied
      rw [h.unbegun (hbs b hb).1] at hw
      cases hw
    · rw [hws] at hreg
      rw [Server.Missed, hws, (hothers _ hid).2] at hmissed
      exact (h.read c hreg hmissed).mono (hothers _ hid).1 (congrFun hpc c)
        (hinbox ▸ List.Subset.refl _)

/-- The manager takes a step. -/
theorem Kept.move (h : Kept s) {a : Websocket.Act} (hstep : wsStep s.ws a = some t.ws)
    (hevent : t.event = s.event) (hstatus : t.status = s.status) (howed : t.owed = s.owed)
    (hinbox : ∀ c, s.inbox c ⊆ t.inbox c)
    (hcalls : ∀ b taskId, a = .broadcast b taskId → ∃ m, s.event b = some (taskId, m))
    (hsent : ∀ b c, .sent b c true ∈ t.ws.log →
      .sent b c true ∈ s.ws.log ∨ ∃ taskId, ∃ m ∈ t.inbox c, s.event b = some (taskId, m))
    (hcurrent : ∀ c, s.Current c → t.Current c)
    (hnew : ∀ c, a = .connect c → t.pc c = .connected) : Kept t where
  sound := Websocket.sound_step h.sound hstep
  called b w hb := by
    rw [hevent]
    rcases broadcasts_back hstep hb with ⟨v, hv, htask⟩ | ha
    · rw [← htask]
      exact h.called b v hv
    · exact hcalls b _ ha
  arrived b c hmem := by
    rw [hevent]
    rcases hsent b c hmem with hold | hnow
    · obtain ⟨taskId, m, hm, hb⟩ := h.arrived b c hold
      exact ⟨taskId, m, hinbox c hm, hb⟩
    · exact hnow
  tells taskId bs hbs b hb := by
    rw [howed] at hbs
    rw [hstatus, hevent]
    exact h.tells taskId bs hbs b hb
  read c hreg hmissed := by
    rcases registered_back hstep hreg with hold | hconnect
    · refine hcurrent c (h.read c hold fun bs hbs => ?_)
      obtain ⟨b, hb, connections, hcopied, hout⟩ := hmissed bs (howed ▸ hbs)
      rcases copied_back hstep hcopied with hcopied | ⟨-, rfl⟩
      · exact ⟨b, hb, connections, hcopied, hout⟩
      · exact absurd hold hout
    · have hpc := hnew c hconnect
      exact current_of_pc (fun _ => by simp [hpc]) (by simp [hpc])

theorem Server.Fresh.ne (hfresh : s.Fresh b) {b' : ℕ} {p : String × Msg}
    (h : s.event b' = some p) : b' ≠ b := by
  rintro rfl
  rw [hfresh] at h
  cases h

theorem event_call (s : Server) (hfresh : s.Fresh b) (taskId : String) (m : Msg) (b' : ℕ)
    (p : String × Msg) (h : s.event b' = some p) : (s.call b taskId m).event b' = some p :=
  (Function.update_of_ne (hfresh.ne h) _ _).trans h

/-- `set`, where all the broadcasts that are to tell the status have just been called. -/
theorem Kept.set (h : Kept s) {taskId : String} {status : TaskStatus} {bs : List ℕ}
    {event : ℕ → Option (String × Msg)}
    (hevent : ∀ b p, s.event b = some p → event b = some p)
    (hbs : ∀ b ∈ bs, s.Fresh b ∧ ∃ m, event b = some (taskId, m) ∧ m.tells = some status) :
    Kept { s.set taskId status bs with event := event } := by
  have hstatus : (s.set taskId status bs).status taskId = some status := Function.update_self ..
  refine h.change taskId rfl hevent rfl rfl (fun id hid => ?_)
    (Function.update_self ..) fun b hb => ?_
  · exact ⟨Function.update_of_ne hid _ _, Function.update_of_ne hid _ _⟩
  · exact ⟨(hbs b hb).1, (hbs b hb).2.imp fun m hm => ⟨hm.1, hm.2.trans hstatus.symm⟩⟩

theorem kept_updateStatus (h : Kept s) (hfresh : s.Fresh b) (taskId : String)
    (status : TaskStatus) : Kept (s.changeStatus b taskId status []) := by
  rw [Server.changeStatus]
  split
  · exact h
  · rename_i old _
    split
    · refine h.set (event_call s hfresh taskId (.statusChange old status)) fun b' hb' => ?_
      rw [List.mem_singleton.1 hb']
      exact ⟨hfresh, _, Function.update_self .., rfl⟩
    · exact h.set (fun _ _ hb => hb) fun _ hb => by cases hb

theorem kept_cancel (h : Kept s) {b' : ℕ} (hne : b ≠ b') (hfresh : s.Fresh b)
    (hfresh' : s.Fresh b') (taskId : String) :
    Kept ((s.changeStatus b taskId .cancelled [b']).call b' taskId .cancelled) := by
  rw [Server.changeStatus]
  split
  · exact h.quiet rfl (event_call s hfresh' taskId .cancelled) (fun _ => List.Subset.refl _) rfl
      rfl fun _ hc => hc
  · rename_i old _
    split
    · refine h.set (fun b'' p hb'' => ?_) fun b'' hb'' => ?_
      · exact (Function.update_of_ne (hfresh'.ne hb'') _ _).trans
          (event_call s hfresh taskId _ b'' p hb'')
      · rcases List.mem_cons.1 hb'' with rfl | hb''
        · exact ⟨hfresh, _, (Function.update_of_ne hne _ _).trans (Function.update_self ..), rfl⟩
        · rw [List.mem_singleton.1 hb'']
          exact ⟨hfresh', _, Function.update_self .., rfl⟩
    · refine h.set (event_call s hfresh' taskId .cancelled) fun b'' hb'' => ?_
      rw [List.mem_singleton.1 hb'']
      exact ⟨hfresh', _, Function.update_self .., rfl⟩

/-- A watcher goes on, and what it has read is the status if it was before. -/
theorem Kept.goto (h : Kept s) {pc : Pc} (hpc : s.Current c → (s.goto c pc).Current c) :
    Kept (s.goto c pc) := by
  refine h.quiet rfl (fun _ _ hb => hb) (fun _ => List.Subset.refl _) rfl rfl fun d hd => ?_
  by_cases hdc : d = c
  · subst hdc
    exact hpc hd
  · exact hd.mono rfl (Function.update_of_ne hdc _ _) (List.Subset.refl _)

/-- A send that returns brings the event. -/
theorem Kept.deliver (h : Kept s) {ws : Manager} (hstep : wsStep s.ws (.send b true) = some ws)
    {taskId taskId' : String} {m : Msg} {rest dead : List Conn}
    (hevent : s.event b = some (taskId, m))
    (hb : s.ws.broadcasts b = some ⟨taskId', c :: rest, dead⟩) :
    Kept ({ s with ws := ws }.receive c m) := by
  have hinbox := inbox_subset_receive { s with ws := ws } c m
  refine h.move hstep rfl rfl rfl hinbox (fun _ _ => nofun) (fun b' d hsent => ?_)
    (fun d hd => hd.mono rfl rfl (hinbox d)) fun _ => nofun
  cases Websocket.wsStep_cases hstep with
  | send hb' =>
      obtain ⟨-, hcs, -⟩ := Websocket.Broadcast.mk.inj (Option.some.inj (hb.symm.trans hb'))
      obtain ⟨rfl, -⟩ := List.cons.inj hcs
      rcases List.mem_append.1 hsent with hsent | hsent
      · exact .inl hsent
      · cases List.mem_singleton.1 hsent
        refine .inr ⟨taskId, m, ?_, hevent⟩
        rw [inbox_receive]
        exact List.mem_append_right _ (List.mem_singleton_self m)

theorem Kept.connect (h : Kept s) {ws : Manager} (hstep : wsStep s.ws (.connect c) = some ws) :
    Kept ({ s with ws := ws }.goto c .connected) := by
  refine h.move hstep rfl rfl rfl (fun _ => List.Subset.refl _) (fun _ _ => nofun)
    (fun b d hsent => .inl (sent_back hstep (fun _ => nofun) hsent)) (fun d hd => ?_)
    fun d hd => ?_
  · by_cases hdc : d = c
    · subst hdc
      exact current_of_pc (fun _ => by simp) (by simp)
    · exact hd.mono rfl (Function.update_of_ne hdc _ _) (List.Subset.refl _)
  · cases hd
    exact Function.update_self ..

/-- The send of the status returns. -/
theorem Kept.tell (h : Kept s) {now : TaskStatus} (hpc : s.pc c = .telling now) :
    Kept ((s.receive c (.status now)).goto c .listening) := by
  have hinbox := inbox_subset_receive s c (.status now)
  refine h.quiet rfl (fun _ _ hb => hb) hinbox rfl rfl fun d hd => ?_
  by_cases hdc : d = c
  · subst hdc
    intro status hstatus
    obtain rfl := (hd status hstatus).1 now hpc
    rw [pc_goto]
    refine ⟨fun _ => nofun, fun _ => ⟨.status now, ?_, rfl⟩⟩
    have hmem : Msg.status now ∈ (s.receive d (.status now)).inbox d := by simp
    exact hmem
  · exact hd.mono rfl (Function.update_of_ne hdc _ _) (hinbox d)

/-- A step of the manager that connects no one and sends nothing. -/
theorem Kept.move_quiet (h : Kept s) {ws : Manager} {a : Websocket.Act}
    (hstep : wsStep s.ws a = some ws)
    (hcalls : ∀ b taskId, a = .broadcast b taskId → ∃ m, s.event b = some (taskId, m))
    (hsends : ∀ b, a ≠ .send b true) (hconnects : ∀ c, a ≠ .connect c) :
    Kept { s with ws := ws } := by
  refine h.move hstep rfl rfl rfl (fun _ => List.Subset.refl _) hcalls (fun b c hsent => ?_)
    (fun c hc => hc) fun c hc => absurd hc (hconnects c)
  exact .inl (sent_back hstep hsends hsent)

/-- **One step** keeps the invariant. -/
theorem kept_step {a : Act} (h : Kept s) (hstep : step s a = some t) : Kept t := by
  cases a with
  | createTask taskId =>
      cases hstep
      have hset : Kept (s.set taskId .created []) := h.set (fun _ _ hb => hb) fun _ hb => by cases hb
      exact hset.quiet rfl (fun _ _ hb => hb) (fun _ => List.Subset.refl _) rfl rfl fun _ hc => hc
  | subscribe taskId =>
      cases hstep
      exact h.quiet rfl (fun _ _ hb => hb) (fun _ => List.Subset.refl _) rfl rfl fun _ hc => hc
  | updateStatus b taskId status =>
      obtain ⟨hfresh, hsome⟩ := Option.ite_none_right_eq_some.1 hstep
      cases hsome
      exact kept_updateStatus h hfresh taskId status
  | cancel b b' taskId =>
      obtain ⟨⟨hne, hfresh, hfresh'⟩, hsome⟩ := Option.ite_none_right_eq_some.1 hstep
      cases hsome
      exact kept_cancel h hne hfresh hfresh' taskId
  | emit b taskId text =>
      obtain ⟨hfresh, hsome⟩ := Option.ite_none_right_eq_some.1 hstep
      cases hsome
      exact h.quiet rfl (event_call s hfresh taskId (.other text)) (fun _ => List.Subset.refl _) rfl rfl
        fun _ hc => hc
  | broadcast b =>
      simp only [step] at hstep
      split at hstep
      · cases hstep
      · rename_i taskId m hevent
        obtain ⟨ws, hws, rfl⟩ := Option.map_eq_some_iff.1 hstep
        refine h.move_quiet hws (fun b' taskId' hb => ?_) (fun _ => nofun) (fun _ => nofun)
        cases hb
        exact ⟨m, hevent⟩
  | send b ok =>
      simp only [step] at hstep
      split at hstep
      · rename_i taskId m taskId' c rest dead hevent hb
        obtain ⟨ws, hws, rfl⟩ := Option.map_eq_some_iff.1 hstep
        cases ok with
        | false =>
            exact h.move_quiet hws (fun _ _ => nofun) (fun _ => nofun) (fun _ => nofun)
        | true => exact h.deliver hws hevent hb
      · cases hstep
  | clean b =>
      obtain ⟨ws, hws, rfl⟩ := Option.map_eq_some_iff.1 hstep
      exact h.move_quiet hws (fun _ _ => nofun) (fun _ => nofun) (fun _ => nofun)
  | connect c =>
      obtain ⟨-, hstep⟩ := Option.ite_none_right_eq_some.1 hstep
      obtain ⟨ws, hws, rfl⟩ := Option.map_eq_some_iff.1 hstep
      exact h.connect hws
  | getTask c =>
      obtain ⟨hpc, hstep⟩ := Option.ite_none_right_eq_some.1 hstep
      split at hstep
      · rename_i hnone
        cases hstep
        refine h.goto fun _ status hstatus => ?_
        exact absurd (hstatus.symm.trans hnone) (Option.some_ne_none status)
      · rename_i now hnow
        cases hstep
        refine h.goto fun _ status hstatus => ?_
        obtain rfl : now = status := Option.some.inj (hnow.symm.trans hstatus)
        rw [pc_goto]
        exact ⟨fun _ hread => (Pc.telling.inj hread).symm, nofun⟩
  | tell c ok =>
      simp only [step] at hstep
      split at hstep
      · rename_i now hpc
        cases ok with
        | false =>
            cases hstep
            exact h.goto fun _ => current_of_pc (fun _ => by simp) (by simp)
        | true =>
            cases hstep
            exact h.tell hpc
      · cases hstep
  | disconnect c =>
      simp only [step] at hstep
      split at hstep
      · cases hstep
      · obtain ⟨ws, hws, rfl⟩ := Option.map_eq_some_iff.1 hstep
        have hmoved := h.move_quiet hws (fun _ _ => nofun) (fun _ => nofun) (fun _ => nofun)
        exact hmoved.goto fun _ => current_of_pc (fun _ => by simp) (by simp)

/-! ## Whole runs -/

/-- **No watcher misses the status.**  In every state of every run, a watcher that is connected
and listens has been told the status of its task, as soon as one of the broadcasts that are to
tell its last change is over. -/
theorem told_throughout (status : String → Option TaskStatus) (acts : List Act) :
    Run.Throughout step (fun s => ∀ c, s.ws.Registered c → s.pc c = .listening →
      s.Announced c.taskId → ∀ now, s.status c.taskId = some now → s.Told c now)
      (init status) acts := by
  have hkept : Run.Throughout step Kept (init status) acts :=
    Run.throughout_of_preserved (fun _ _ _ => kept_step) (kept_init status) acts
  refine hkept.mono fun s h c hreg hlistens hannounced now hnow => ?_
  exact h.told hreg hlistens hannounced hnow

/-- An event has been called for, and the watcher is in the copy if there is one. -/
structure Coming (b : ℕ) (c : Conn) (m : Msg) (s : Server) : Prop where
  kept : Kept s
  event : s.event b = some (c.taskId, m)
  connected : .connected c ∈ s.ws.log
  copied : s.ws.Registered c → ∀ w, s.ws.broadcasts b = some w →
    ∃ connections, .copied b c.taskId connections ∈ s.ws.log ∧ c ∈ connections

theorem ws_changeStatus (s : Server) (b : ℕ) (taskId : String) (now : TaskStatus)
    (more : List ℕ) : (s.changeStatus b taskId now more).ws = s.ws := by
  rw [Server.changeStatus]
  split
  · rfl
  · split <;> rfl

theorem event_changeStatus {taskId : String} {now : TaskStatus} {more : List ℕ}
    (hfresh : s.Fresh b) {b' : ℕ} {p : String × Msg} (h : s.event b' = some p) :
    (s.changeStatus b taskId now more).event b' = some p := by
  rw [Server.changeStatus]
  split
  · exact h
  · split
    · exact event_call _ hfresh taskId _ b' p h
    · exact h

/-- A step leaves the manager alone, or is a step of it; and the events of the broadcasts stay. -/
theorem ws_step {a : Act} (hstep : step s a = some t) :
    (∀ b p, s.event b = some p → t.event b = some p) ∧
      (t.ws = s.ws ∨ ∃ a', wsStep s.ws a' = some t.ws ∧
        ∀ b taskId, a' = .broadcast b taskId → ∃ m, s.event b = some (taskId, m)) := by
  cases a with
  | createTask taskId =>
      cases hstep
      exact ⟨fun _ _ hb => hb, .inl rfl⟩
  | subscribe taskId =>
      cases hstep
      exact ⟨fun _ _ hb => hb, .inl rfl⟩
  | updateStatus b taskId now =>
      obtain ⟨hfresh, hsome⟩ := Option.ite_none_right_eq_some.1 hstep
      cases hsome
      exact ⟨fun _ _ hb => event_changeStatus hfresh hb, .inl (ws_changeStatus ..)⟩
  | cancel b b' taskId =>
      obtain ⟨⟨-, hfresh, hfresh'⟩, hsome⟩ := Option.ite_none_right_eq_some.1 hstep
      cases hsome
      refine ⟨fun b'' p hb'' => ?_, .inl (ws_changeStatus ..)⟩
      exact (Function.update_of_ne (hfresh'.ne hb'') _ _).trans (event_changeStatus hfresh hb'')
  | emit b taskId text =>
      obtain ⟨hfresh, hsome⟩ := Option.ite_none_right_eq_some.1 hstep
      cases hsome
      exact ⟨event_call s hfresh taskId (.other text), .inl rfl⟩
  | broadcast b =>
      simp only [step] at hstep
      split at hstep
      · cases hstep
      · rename_i taskId m hevent
        obtain ⟨ws, hws, rfl⟩ := Option.map_eq_some_iff.1 hstep
        refine ⟨fun _ _ hb => hb, .inr ⟨_, hws, fun b' taskId' hb => ?_⟩⟩
        cases hb
        exact ⟨m, hevent⟩
  | send b ok =>
      simp only [step] at hstep
      split at hstep
      · obtain ⟨ws, hws, rfl⟩ := Option.map_eq_some_iff.1 hstep
        cases ok <;> exact ⟨fun _ _ hb => hb, .inr ⟨_, hws, fun _ _ => nofun⟩⟩
      · cases hstep
  | clean b =>
      obtain ⟨ws, hws, rfl⟩ := Option.map_eq_some_iff.1 hstep
      exact ⟨fun _ _ hb => hb, .inr ⟨_, hws, fun _ _ => nofun⟩⟩
  | connect c =>
      obtain ⟨-, hstep⟩ := Option.ite_none_right_eq_some.1 hstep
      obtain ⟨ws, hws, rfl⟩ := Option.map_eq_some_iff.1 hstep
      exact ⟨fun _ _ hb => hb, .inr ⟨_, hws, fun _ _ => nofun⟩⟩
  | getTask c =>
      obtain ⟨-, hstep⟩ := Option.ite_none_right_eq_some.1 hstep
      split at hstep <;> cases hstep <;> exact ⟨fun _ _ hb => hb, .inl rfl⟩
  | tell c ok =>
      simp only [step] at hstep
      split at hstep
      · cases ok <;> cases hstep <;> exact ⟨fun _ _ hb => hb, .inl rfl⟩
      · cases hstep
  | disconnect c =>
      obtain ⟨-, hstep⟩ := Option.ite_none_left_eq_some.1 hstep
      obtain ⟨ws, hws, rfl⟩ := Option.map_eq_some_iff.1 hstep
      exact ⟨fun _ _ hb => hb, .inr ⟨_, hws, fun _ _ => nofun⟩⟩

theorem coming_step {a : Act} {m : Msg} (h : Coming b c m s) (hstep : step s a = some t) :
    Coming b c m t := by
  have hkept := kept_step h.kept hstep
  obtain ⟨hevents, hmanager⟩ := ws_step hstep
  have hevent := hevents b _ h.event
  rcases hmanager with hws | ⟨a', hws, hcalls⟩
  · exact ⟨hkept, hevent, hws ▸ h.connected, fun hreg w hw => hws ▸ h.copied (hws ▸ hreg) w (hws ▸ hw)⟩
  · refine ⟨hkept, hevent, log_mono hws h.connected, fun hreg w hw => ?_⟩
    have hold : s.ws.Registered c := by
      refine (registered_back hws hreg).resolve_right ?_
      rintro rfl
      have hfresh := (Option.ite_none_left_eq_some.1 hws).1
      exact hfresh (Websocket.used_of_connected h.connected)
    rcases broadcasts_back hws hw with ⟨v, hv, -⟩ | rfl
    · obtain ⟨connections, hcopied, hmem⟩ := h.copied hold v hv
      exact ⟨connections, log_mono hws hcopied, hmem⟩
    · obtain ⟨m', hm'⟩ := hcalls b _ rfl
      have htask : c.taskId = w.taskId := (Prod.mk.inj (Option.some.inj (h.event.symm.trans hm'))).1
      refine ⟨s.ws.of w.taskId, ?_, htask ▸ hold⟩
      rw [htask]
      exact copied_of_broadcast hws

/-- **An event reaches every watcher that is connected when it is emitted**, whatever happens
in between, if the watcher is still connected when its broadcast is over: this broadcast has sent
to the watcher, and the event is among what the watcher got. -/
theorem event_told (status : String → Option TaskStatus) {as bs : List Act} {m : Msg}
    (hs : Run.exec step (init status) as = some s) (hevent : s.event b = some (c.taskId, m))
    (hcalled : s.ws.broadcasts b = none) (hreg : s.ws.Registered c)
    (ht : Run.exec step s bs = some t) (hover : t.Over b) (hreg' : t.ws.Registered c) :
    .sent b c true ∈ t.ws.log ∧ m ∈ t.inbox c := by
  have hkept : Kept s :=
    (Run.throughout_of_preserved (fun _ _ _ => kept_step) (kept_init status) as).last hs
  have hconnected := Websocket.connected_of_live ((hkept.sound.registered c).1 hreg)
  have hcoming : Coming b c m s :=
    ⟨hkept, hevent, hconnected, fun _ w hw => by rw [hcalled] at hw; cases hw⟩
  have hcoming' : Coming b c m t :=
    (Run.throughout_of_preserved (fun _ _ _ => coming_step) hcoming bs).last ht
  obtain ⟨w, hw, -⟩ := id hover
  obtain ⟨connections, hcopied, hmem⟩ := hcoming'.copied hreg' w hw
  have hsent := hcoming'.kept.reached hover hcopied hmem hreg'
  obtain ⟨_, m', hm', hevent'⟩ := hcoming'.kept.arrived b c hsent
  rw [hcoming'.event] at hevent'
  cases hevent'
  exact ⟨hsent, hm'⟩

/-- A watcher of a running task. -/
def watched : List Act :=
  [.createTask "t1", .subscribe "t1", .updateStatus 0 "t1" .running, .connect ⟨1, "t1"⟩,
    .getTask ⟨1, "t1"⟩, .tell ⟨1, "t1"⟩ true, .broadcast 0, .updateStatus 1 "t1" .completed]

/-- It is sent the second change of two, before the broadcast of the first gets to it. -/
theorem watched_told : ∃ s t, Run.exec step (init fun _ => none) watched = some s ∧
    Run.exec step s [.broadcast 1, .send 1 true, .send 0 true] = some t ∧
      .sent 1 ⟨1, "t1"⟩ true ∈ t.ws.log := by
  obtain ⟨s, hs⟩ : ∃ s, Run.exec step (init fun _ => none) watched = some s := ⟨_, rfl⟩
  have hrest : ∃ t, Run.exec step (init fun _ => none)
      (watched ++ [.broadcast 1, .send 1 true, .send 0 true]) = some t ∧ t.Over 1 ∧
        t.ws.Registered ⟨1, "t1"⟩ := ⟨_, rfl, ⟨_, rfl, rfl, rfl⟩, by decide⟩
  have hcalled : ∃ s, Run.exec step (init fun _ => none) watched = some s ∧
      s.event 1 = some ("t1", .statusChange .running .completed) ∧ s.ws.broadcasts 1 = none ∧
        s.ws.Registered ⟨1, "t1"⟩ := ⟨_, rfl, rfl, rfl, by decide⟩
  obtain ⟨t, ht, hover, hreg'⟩ := hrest
  obtain ⟨s', hs', hevent, hnone, hreg⟩ := hcalled
  rw [hs] at hs'
  cases hs'
  rw [Run.exec_append, hs] at ht
  exact ⟨s, t, hs, ht, (event_told _ hs hevent hnone hreg ht hover hreg').1⟩

end TaskStream
end AgentSwarm
