import AgentSwarm.Common.A2AClient
import AgentSwarm.Dispatcher.Backends
import AgentSwarm.Orchestrator.External

/-!
# When an external orchestration succeeds

`ExternalOrchestrator.execute` sends its message, polls the task that comes back,
and returns what the task says.  Every await may raise instead; what the execution
leaves behind on its way is a log.

* `Logged` — a computation that may raise, with its log.
* `Request`, `Course` — what is to be done, and what is met on the way.
* `tryBlock`, `conclude`, `execute` — the execution.
* `A2AAdapter.invokeInner`, `A2AAdapter.result` — the adapter's way with the same task.
* `OneRule` — success means **completed**, to all that poll a task.
* `Settles` — the condition: the task has ended as completed or as failed, or an
  exception stops the execution before it records anything.
* `oneRule_iff_settles` — the rule holds of an execution exactly then.
-/

namespace AgentSwarm
namespace ExternalOrchestrator

open Orchestrator (Message withHistory externalTurn)

/-! ## Computations with a log -/

/-- What leaves an `await`. -/
inductive Raised where
  | exception (text : String)
  | cancelled
  deriving DecidableEq

/-- What an execution leaves behind. -/
inductive Entry where
  /-- An event in the log of the session. -/
  | event (event : JsonObj)
  /-- A delta merged into the state of the session. -/
  | state (delta : JsonObj)
  /-- An event given to `event_callback`. -/
  | emitted (event : JsonObj)
  /-- A turn at the end of `session.messages`. -/
  | turn (messages : List Message)

/-- The end of a computation, and what it has left behind. -/
structure Logged (α : Type) where
  result : Except Raised α
  log : List Entry := []

namespace Logged

variable {α β : Type}

/-- One computation after another. -/
def andThen (x : Logged α) (f : α → Logged β) : Logged β :=
  match x.result with
  | .error e => { result := .error e, log := x.log }
  | .ok a => { result := (f a).result, log := x.log ++ (f a).log }

instance : Monad Logged where
  pure a := { result := .ok a }
  bind := andThen

/-- `raise`. -/
def raise (e : Raised) : Logged α := { result := .error e }

/-- `except Exception as e: … raise`. -/
def exceptThen (x : Logged α) (handler : String → Logged Unit) : Logged α :=
  match x.result with
  | .error (.exception text) =>
      { result := (handler text).result.bind fun _ => x.result
        log := x.log ++ (handler text).log }
  | _ => x

end Logged

/-! ## An execution -/

/-- The awaits at which an exception may come up. -/
inductive Place where
  | started
  | thinking
  | sending
  | progress (k : ℕ)
  | polling
  | resending
  | failing
  | closing
  | completing
  | updating
  deriving DecidableEq

/-- What `execute` reads of a session. -/
structure SessionView where
  workDir : Option String := none
  sessionId : Option String := none
  messages : Option (List Message) := none

/-- The arguments of `execute`, and the endpoint of the orchestrator. -/
structure Request where
  endpoint : String
  taskId : String
  tenantId : String
  userMessage : String
  eventCallback : Bool
  session : Option SessionView
  sessionService : Bool

/-- What an execution meets: the answers of the agent and of `get_task`, and at each
await what it raises and whether it has stored its event or delta. -/
structure Course where
  send : Bool → String → JsonObj → Option A2ATask
  answers : List (Option A2ATask)
  raises : Place → Option Raised
  stored : Place → Bool

/-- `s if s else None`, for a text that may be missing. -/
def nonempty (s : Option String) : Option String := s.filter (· != "")

/-- `s[:n]`. -/
def cut (n : ℕ) (s : String) : String := String.ofList (s.toList.take n)

namespace Request

variable (req : Request)

/-- The session to which events are written, if there is one. -/
def logged : Option String :=
  if req.sessionService then nonempty (req.session.bind SessionView.sessionId) else none

/-- `config`. -/
def configuration : JsonObj :=
  [("task_id", .str req.taskId), ("tenant_id", .str req.tenantId)] ++
    ((nonempty (req.session.bind SessionView.workDir)).map fun dir =>
      ("shared_dir", Json.str dir)).toList ++
    ((nonempty (req.session.bind SessionView.sessionId)).map fun id =>
      ("session_id", Json.str id)).toList

/-- The message that is sent. -/
def text : String :=
  withHistory ((req.session.bind SessionView.messages).getD []) req.userMessage

end Request

section Execution

variable (req : Request) (c : Course)

/-- An await that may raise. -/
def await (p : Place) : Logged Unit :=
  match c.raises p with
  | some e => .raise e
  | none => pure ()

/-- `if session_service and sess_id: await session_service.…`. -/
def write (p : Place) (entry : Entry) : Logged Unit :=
  match req.logged with
  | none => pure ()
  | some _ => { result := (await c p).result, log := if c.stored p then [entry] else [] }

/-- `if event_callback: await event_callback(…)`. -/
def emit (p : Place) (event : JsonObj) : Logged Unit :=
  if req.eventCallback then { result := (await c p).result, log := [.emitted event] } else pure ()

def startedEvent : JsonObj :=
  [("type", .str "orchestrator_started"), ("provider", .str "external"),
    ("endpoint", .str req.endpoint)]

def failedEvent (error : String) : JsonObj :=
  [("type", .str "orchestrator_failed"), ("error", .str error)]

def completedEvent (result : String) : JsonObj :=
  [("type", .str "orchestrator_completed"), ("result", .str result)]

def thinkingEvent : JsonObj :=
  [("type", .str "orchestrator_thinking"), ("task_id", .str req.taskId), ("agent", .str "external"),
    ("data", .obj [("provider", .str "external"), ("endpoint", .str req.endpoint)])]

def progressEvent (snap : A2ATask) : JsonObj :=
  [("type", .str "agent_progress"), ("task_id", .str req.taskId), ("agent", .str "external"),
    ("data", .obj [("state", .str snap.state), ("message", .str (snap.message.getD "")),
      ("progress", .arr (snap.progress.map .obj))])]

/-- The loop over the snapshots, from the `k`-th on. -/
def follow (k : ℕ) (task : A2ATask) : List A2ATask → Logged A2ATask
  | [] => pure task
  | snap :: snaps => do
      emit req c (.progress k) (progressEvent req snap)
      follow (k + 1) snap snaps

/-- The task of the response: it is polled, or the message is sent again, blocking. -/
def receive : Logged (Option A2ATask) :=
  match c.send false req.text req.configuration with
  | some task => do
      let task ← follow req c 0 task (A2AClient.pollTask none c.answers)
      if A2AClient.endsEarly c.answers then pure (some task)
      else do
        await c .polling
        pure (some task)
  | none => do
      await c .resending
      pure (c.send true req.text req.configuration)

/-- The `try` block. -/
def tryBlock : Logged (Option A2ATask) := do
  write req c .started (.event (startedEvent req))
  emit req c .thinking (thinkingEvent req)
  await c .sending
  receive req c

/-- `finally: await client.close()`, which lets nothing but a cancellation through. -/
def closing (x : Logged (Option A2ATask)) : Logged (Option A2ATask) :=
  match c.raises .closing with
  | some .cancelled => { x with result := .error .cancelled }
  | _ => x

/-- The `try` statement: the block, its `except` branch and its `finally`. -/
def tryStatement : Logged (Option A2ATask) :=
  closing c ((tryBlock req c).exceptThen fun text =>
    write req c .failing (.event (failedEvent (cut 200 text))))

/-- The end of `execute`, when both writes are made. -/
def answer (reply : String) : Logged String :=
  match req.session.bind SessionView.messages with
  | none => pure reply
  | some _ => Logged.mk (.ok reply) [.turn (externalTurn req.text reply)]

/-- What follows the `try` block. -/
def conclude (task : Option A2ATask) : Logged String :=
  match task with
  | none => do
      write req c .failing (.event (failedEvent "returned no task"))
      .raise (.exception "External orchestrator returned no task")
  | some task =>
      if task.state = "failed" then do
        write req c .failing (.event (failedEvent (Dispatcher.orElse task.message "task failed")))
        .raise (.exception ("External orchestrator task failed: " ++
          Dispatcher.orElse task.message "no detail"))
      else do
        let reply := task.message.getD ""
        write req c .completing (.event (completedEvent (cut 500 reply)))
        write req c .updating (.state [("last_result", .str (cut 2000 reply))])
        answer req reply

/-- `ExternalOrchestrator.execute`. -/
def execute : Logged String := do
  let task ← tryStatement req c
  conclude req c task

end Execution

/-! ## The others that poll a task -/

/-- `A2AAdapter._invoke_inner`: a callback that raises is passed over. -/
def A2AAdapter.invokeInner (onProgress : Bool) (sent : Option A2ATask)
    (answers : List (Option A2ATask)) : Option A2ATask :=
  if onProgress then sent.map fun task => A2AClient.polled task answers else sent

/-- What `A2AAdapter.invoke` makes of it. -/
def A2AAdapter.result : Except String (Option A2ATask) → Dispatcher.AgentResult
  | .error e => { success := false, error := some ("A2A send failed: " ++ e) }
  | .ok none => { success := false, error := some "A2A agent returned no task" }
  | .ok (some a2aTask) =>
      let success := a2aTask.state == "completed"
      { success := success
        output := a2aTask.message.getD ""
        error := if success then none else some ("A2A task state: " ++ a2aTask.state) }

/-- The task of a worker, as `DockerBackend.invoke` reads it. -/
def workerTask (a2aTask : A2ATask) : Dispatcher.A2ATask where
  taskId := a2aTask.taskId
  state := a2aTask.state
  message := a2aTask.message

/-! ## The rule -/

/-- The entry says that the orchestration has succeeded. -/
def Entry.Claims : Entry → Prop
  | .event e => e.get "type" = some (.str "orchestrator_completed")
  | .turn _ => True
  | _ => False

section Rule

variable (req : Request) (c : Course)

/-- The state of the task that was observed last. -/
def lastState : Option String :=
  match c.send false req.text req.configuration with
  | some task => some ((A2AClient.lastAnswer c.answers).getD task).state
  | none => (c.send true req.text req.configuration).map A2ATask.state

/-- An execution succeeds only if the last state is `completed`, and raises otherwise. -/
structure OnlyCompleted (x : Logged String) (last : Option String) : Prop where
  returns : ∀ reply, x.result = .ok reply → last = some "completed"
  /-- `orchestrator_completed` in the log of the session, or a turn in its messages. -/
  claims : ∀ entry ∈ x.log, entry.Claims → last = some "completed"
  raises : last ≠ some "completed" → ∃ e, x.result = .error e

/-- The rule of the execution, and that of the adapter and of the pool's backend for a task
polled with the same answers. -/
structure OneRule : Prop where
  external : OnlyCompleted (execute req c) (lastState req c)
  adapter : ∀ sent, c.send false req.text req.configuration = some sent →
    ((A2AAdapter.result (.ok (A2AAdapter.invokeInner true (some sent) c.answers))).success = true ↔
      lastState req c = some "completed")
  docker : ∀ sent, c.send false req.text req.configuration = some sent →
    ∀ (world : Dispatcher.World) moment target request,
      world.worker moment target request =
        .ended (some (workerTask (A2AClient.polled sent c.answers))) none →
      ∃ attempt, Dispatcher.dockerInvoke world moment target request = .returns attempt ∧
        (attempt.success = true ↔ lastState req c = some "completed")

/-- An exception ends the polling. -/
def PollingRaises : Prop :=
  match c.send false req.text req.configuration with
  | some _ =>
      (req.eventCallback = true ∧ ∃ k < (A2AClient.pollTask none c.answers).length,
        (c.raises (.progress k)).isSome) ∨
      (A2AClient.endsEarly c.answers = false ∧ (c.raises .polling).isSome)
  | none => (c.raises .resending).isSome

/-- An exception ends the `try` block. -/
def Interrupted : Prop :=
  (req.logged.isSome ∧ (c.raises .started).isSome) ∨
    (req.eventCallback = true ∧ (c.raises .thinking).isSome) ∨
    (c.raises .sending).isSome ∨ PollingRaises req c

/-- The execution raises before it can record a success. -/
def Unrecorded : Prop :=
  req.logged.isSome ∧ c.stored .completing = false ∧
    ((c.raises .completing).isSome ∨ (c.raises .updating).isSome)

/-- The `try` block or the closing of the client raises; or there is no task, or its last
state is `completed` or `failed`; or the service raises before the success is recorded. -/
def Settles : Prop :=
  Interrupted req c ∨ c.raises .closing = some .cancelled ∨ lastState req c = none ∨
    lastState req c = some "completed" ∨ lastState req c = some "failed" ∨ Unrecorded req c

end Rule

/-! ## What a computation leaves behind -/

namespace Logged

variable {α β : Type} {x : Logged α} {f : α → Logged β}

theorem bind_ok {a : α} (h : x.result = .ok a) :
    (x >>= f).result = (f a).result ∧ (x >>= f).log = x.log ++ (f a).log := by
  have hbind : x >>= f = x.andThen f := rfl
  simp [hbind, andThen, h]

theorem bind_error {e : Raised} (h : x.result = .error e) :
    (x >>= f).result = .error e ∧ (x >>= f).log = x.log := by
  have hbind : x >>= f = x.andThen f := rfl
  simp [hbind, andThen, h]

/-- It leaves no claim behind. -/
def Silent (x : Logged α) : Prop := ∀ entry ∈ x.log, ¬ entry.Claims

theorem Silent.bind (hx : x.Silent) (hf : ∀ a, x.result = .ok a → (f a).Silent) :
    (x >>= f).Silent := by
  intro entry hmem
  cases h : x.result with
  | error e =>
      rw [(bind_error h).2] at hmem
      exact hx entry hmem
  | ok a =>
      rw [(bind_ok h).2] at hmem
      rcases List.mem_append.1 hmem with hmem | hmem
      · exact hx entry hmem
      · exact hf a h entry hmem

/-- What a computation leaves behind is left behind by all that it begins. -/
theorem mem_bind_log {entry : Entry} (h : entry ∈ x.log) : entry ∈ (x >>= f).log := by
  cases hres : x.result with
  | error e =>
      rw [(bind_error hres).2]
      exact h
  | ok a =>
      rw [(bind_ok hres).2]
      exact List.mem_append_left _ h

theorem Silent.exceptThen (hx : x.Silent) {handler : String → Logged Unit}
    (hhandler : ∀ text, (handler text).Silent) : (x.exceptThen handler).Silent := by
  unfold Logged.exceptThen
  split
  · intro entry hmem
    rcases List.mem_append.1 hmem with hmem | hmem
    · exact hx entry hmem
    · exact hhandler _ entry hmem
  · exact hx

/-- An exception that is handled and raised again. -/
theorem exceptThen_result (x : Logged α) (handler : String → Logged Unit) :
    (x.result = (x.exceptThen handler).result) ∨
      (∃ e, x.result = .error e) ∧ ∃ e, (x.exceptThen handler).result = .error e := by
  unfold Logged.exceptThen
  split
  · rename_i text htext
    refine .inr ⟨⟨_, htext⟩, ?_⟩
    dsimp only
    cases (handler text).result with
    | error e => exact ⟨e, rfl⟩
    | ok u => exact ⟨_, htext⟩
  · exact .inl rfl

end Logged

/-! ## The execution, await by await -/

section Steps

open Logged

variable {req : Request} {c : Course}

theorem await_result (p : Place) :
    (await c p).result = .ok () ∧ c.raises p = none ∨
      ∃ e, (await c p).result = .error e ∧ c.raises p = some e := by
  cases h : c.raises p with
  | none => exact .inl ⟨by rw [await, h]; rfl, rfl⟩
  | some e => exact .inr ⟨e, by rw [await, h]; rfl, rfl⟩

theorem await_silent (p : Place) : (await c p).Silent := by
  intro entry hmem
  rw [await] at hmem
  split at hmem <;> cases hmem

/-- A write raises exactly when there is a session to write to and the service raises. -/
theorem write_result (p : Place) (entry : Entry) :
    (write req c p entry).result = .ok () ∧ ¬ (req.logged.isSome ∧ (c.raises p).isSome) ∨
      (∃ e, (write req c p entry).result = .error e) ∧
        req.logged.isSome ∧ (c.raises p).isSome := by
  rw [write]
  cases req.logged with
  | none => exact .inl ⟨rfl, by simp⟩
  | some sid =>
      rcases await_result (c := c) p with ⟨hok, hnone⟩ | ⟨e, herror, hsome⟩
      · exact .inl ⟨hok, by simp [hnone]⟩
      · exact .inr ⟨⟨e, herror⟩, rfl, by simp [hsome]⟩

theorem write_silent (p : Place) {entry : Entry} (h : ¬ entry.Claims) :
    (write req c p entry).Silent := by
  intro entry' hmem
  rw [write] at hmem
  split at hmem
  · cases hmem
  · split at hmem
    · rwa [List.mem_singleton.1 hmem]
    · cases hmem

theorem emit_result (p : Place) (event : JsonObj) :
    (emit req c p event).result = .ok () ∧
        ¬ (req.eventCallback = true ∧ (c.raises p).isSome) ∨
      (∃ e, (emit req c p event).result = .error e) ∧
        req.eventCallback = true ∧ (c.raises p).isSome := by
  rw [emit]
  split
  · rename_i hcallback
    rcases await_result (c := c) p with ⟨hok, hnone⟩ | ⟨e, herror, hsome⟩
    · exact .inl ⟨hok, by simp [hnone]⟩
    · exact .inr ⟨⟨e, herror⟩, hcallback, by simp [hsome]⟩
  · rename_i hcallback
    exact .inl ⟨rfl, fun h => hcallback h.1⟩

theorem emit_silent (p : Place) (event : JsonObj) : (emit req c p event).Silent := by
  intro entry hmem
  rw [emit] at hmem
  split at hmem
  · rw [List.mem_singleton.1 hmem]
    exact id
  · cases hmem

theorem failedEvent_silent (p : Place) (error : String) :
    (write req c p (.event (failedEvent error))).Silent :=
  write_silent p (by simp [Entry.Claims, failedEvent, Dict.get_cons])

theorem follow_silent (snaps : List A2ATask) :
    ∀ k task, (follow req c k task snaps).Silent := by
  induction snaps with
  | nil =>
      intro k task entry hmem
      cases hmem
  | cons snap snaps ih => exact fun k task => (emit_silent _ _).bind fun _ _ => ih (k + 1) snap

/-- The loop ends with the last snapshot, unless a callback raises. -/
theorem follow_result (snaps : List A2ATask) : ∀ k task,
    (follow req c k task snaps).result = .ok (snaps.getLast?.getD task) ∧
        ¬ (req.eventCallback = true ∧ ∃ j < snaps.length, (c.raises (.progress (k + j))).isSome) ∨
      (∃ e, (follow req c k task snaps).result = .error e) ∧
        req.eventCallback = true ∧ ∃ j < snaps.length, (c.raises (.progress (k + j))).isSome := by
  induction snaps with
  | nil => exact fun k task => .inl ⟨rfl, by simp⟩
  | cons snap snaps ih =>
      intro k task
      rw [follow]
      rcases emit_result (.progress k) (progressEvent req snap) with ⟨hok, hquiet⟩ | ⟨⟨e, he⟩, hcb, hraises⟩
      · rw [(bind_ok hok).1]
        rcases ih (k + 1) snap with ⟨hres, hnone⟩ | ⟨herr, hcb, j, hj, hraises⟩
        · refine .inl ⟨by rw [hres, List.getLast?_cons, Option.getD_some], ?_⟩
          rintro ⟨hcb, j, hj, hraises⟩
          cases j with
          | zero => exact hquiet ⟨hcb, hraises⟩
          | succ j =>
              refine hnone ⟨hcb, j, Nat.lt_of_succ_lt_succ hj, ?_⟩
              rwa [Nat.add_assoc, Nat.add_comm 1]
        · refine .inr ⟨herr, hcb, j + 1, Nat.succ_lt_succ hj, ?_⟩
          rwa [Nat.add_comm j, ← Nat.add_assoc]
      · exact .inr ⟨⟨e, (bind_error he).1⟩, hcb, 0, Nat.succ_pos _, hraises⟩

end Steps

/-! ## The `try` block -/

section TryBlock

open Logged

variable {req : Request} {c : Course}

theorem receive_silent : (receive req c).Silent := by
  have hnone : ∀ task : Option A2ATask, (pure task : Logged (Option A2ATask)).Silent := by
    intro task entry hmem
    cases hmem
  rw [receive]
  split
  · refine (follow_silent _ _ _).bind fun task _ => ?_
    split
    · exact hnone _
    · exact (await_silent _).bind fun _ _ => hnone _
  · exact (await_silent _).bind fun _ _ => hnone _

/-- **The polling.**  It raises, or it ends with a task in the state that was observed last. -/
theorem receive_result :
    (∃ task, (receive req c).result = .ok task ∧ task.map A2ATask.state = lastState req c) ∧
        ¬ PollingRaises req c ∨
      (∃ e, (receive req c).result = .error e) ∧ PollingRaises req c := by
  rw [receive, PollingRaises, lastState]
  cases hsend : c.send false req.text req.configuration with
  | none =>
      dsimp only
      rcases await_result (c := c) .resending with ⟨hok, hquiet⟩ | ⟨e, he, hraises⟩
      · exact .inl ⟨⟨_, (bind_ok hok).1, rfl⟩, by simp [hquiet]⟩
      · exact .inr ⟨⟨e, (bind_error he).1⟩, by simp [hraises]⟩
  | some sent =>
      dsimp only
      rcases @follow_result req c (A2AClient.pollTask none c.answers) 0 sent with
        ⟨hres, hquiet⟩ | ⟨⟨e, he⟩, hraises⟩
      · rw [(bind_ok hres).1]
        simp only [Nat.zero_add] at hquiet
        have hstate : (some (A2AClient.polled sent c.answers)).map A2ATask.state =
            some ((A2AClient.lastAnswer c.answers).getD sent).state := by
          rw [Option.map_some, A2AClient.polled_state]
        by_cases hends : A2AClient.endsEarly c.answers
        · rw [if_pos hends]
          exact .inl ⟨⟨_, rfl, hstate⟩, by simp [hquiet, hends]⟩
        · rw [if_neg hends]
          rcases await_result (c := c) .polling with ⟨hok, hnone⟩ | ⟨e, he, hraises⟩
          · exact .inl ⟨⟨_, (bind_ok hok).1, hstate⟩, by simp [hquiet, hnone]⟩
          · exact .inr ⟨⟨e, (bind_error he).1⟩, .inr ⟨by simpa using hends, by simp [hraises]⟩⟩
      · refine .inr ⟨⟨e, (bind_error he).1⟩, .inl ?_⟩
        simpa using hraises

theorem tryBlock_silent : (tryBlock req c).Silent := by
  have hstarted : ¬ (Entry.event (startedEvent req)).Claims := by
    simp [Entry.Claims, startedEvent, Dict.get_cons]
  exact (write_silent _ hstarted).bind fun _ _ => (emit_silent _ _).bind fun _ _ =>
    (await_silent _).bind fun _ _ => receive_silent

theorem tryBlock_result :
    (∃ task, (tryBlock req c).result = .ok task ∧ task.map A2ATask.state = lastState req c) ∧
        ¬ Interrupted req c ∨
      (∃ e, (tryBlock req c).result = .error e) ∧ Interrupted req c := by
  rw [tryBlock, Interrupted]
  rcases @write_result req c .started (.event (startedEvent req)) with
    ⟨hok, hstarted⟩ | ⟨⟨e, he⟩, hraises⟩
  · rw [(bind_ok hok).1]
    rcases @emit_result req c .thinking (thinkingEvent req) with
      ⟨hok, hthinking⟩ | ⟨⟨e, he⟩, hraises⟩
    · rw [(bind_ok hok).1]
      rcases await_result (c := c) .sending with ⟨hok, hnone⟩ | ⟨e, he, hraises⟩
      · rw [(bind_ok hok).1]
        simpa [hstarted, hthinking, hnone] using @receive_result req c
      · exact .inr ⟨⟨e, (bind_error he).1⟩, .inr (.inr (.inl (by simp [hraises])))⟩
    · exact .inr ⟨⟨e, (bind_error he).1⟩, .inr (.inl hraises)⟩
  · exact .inr ⟨⟨e, (bind_error he).1⟩, .inl hraises⟩

end TryBlock

/-! ## The conclusion -/

section Conclude

open Logged

variable {req : Request} {c : Course} {task : A2ATask}

theorem conclude_none :
    (∃ e, (conclude req c none).result = .error e) ∧ (conclude req c none).Silent := by
  have hraise : (raise (.exception "External orchestrator returned no task") : Logged String).Silent := by
    intro entry hmem
    cases hmem
  refine ⟨?_, (failedEvent_silent _ _).bind fun _ _ => hraise⟩
  rw [conclude]
  rcases @write_result req c .failing (.event (failedEvent "returned no task")) with
    ⟨hok, -⟩ | ⟨⟨e, he⟩, -⟩
  · exact ⟨_, (bind_ok hok).1⟩
  · exact ⟨e, (bind_error he).1⟩

theorem conclude_failed (hstate : task.state = "failed") :
    (∃ e, (conclude req c (some task)).result = .error e) ∧ (conclude req c (some task)).Silent := by
  have hraise : ∀ text, (raise (.exception text) : Logged String).Silent := by
    intro text entry hmem
    cases hmem
  rw [conclude]
  simp only [hstate, if_true]
  refine ⟨?_, (failedEvent_silent _ _).bind fun _ _ => hraise _⟩
  rcases @write_result req c .failing
      (.event (failedEvent (Dispatcher.orElse task.message "task failed"))) with
    ⟨hok, -⟩ | ⟨⟨e, he⟩, -⟩
  · exact ⟨_, (bind_ok hok).1⟩
  · exact ⟨e, (bind_error he).1⟩

theorem answer_result (reply : String) : (answer req reply).result = .ok reply := by
  rw [answer]
  split <;> rfl

/-- The task has not failed: what is left behind is silent, with an exception, exactly if the
service raises before the success is recorded. -/
theorem conclude_other (hstate : task.state ≠ "failed") :
    (Unrecorded req c → (∃ e, (conclude req c (some task)).result = .error e) ∧
        (conclude req c (some task)).Silent) ∧
      (¬ Unrecorded req c → (∃ reply, (conclude req c (some task)).result = .ok reply) ∨
        ¬ (conclude req c (some task)).Silent) := by
  rw [conclude]
  simp only [hstate, if_false]
  have hcompleted : (Entry.event (completedEvent (cut 500 (task.message.getD "")))).Claims := rfl
  have hstate : ¬ (Entry.state [("last_result", .str (cut 2000 (task.message.getD "")))]).Claims := id
  cases hlogged : req.logged with
  | none =>
      have hnot : ¬ Unrecorded req c := by simp [Unrecorded, hlogged]
      have hwrite : ∀ p entry, write req c p entry = pure () := by
        intro p entry
        rw [write, hlogged]
      refine ⟨fun h => absurd h hnot, fun _ => .inl ⟨task.message.getD "", ?_⟩⟩
      rw [hwrite, hwrite]
      exact answer_result _
  | some sid =>
      cases hstored : c.stored .completing with
      | true =>
          have hnot : ¬ Unrecorded req c := by simp [Unrecorded, hstored]
          refine ⟨fun h => absurd h hnot, fun _ => .inr fun hsilent => ?_⟩
          refine hsilent _ (mem_bind_log ?_) hcompleted
          simp [write, hlogged, hstored]
      | false =>
          have hsilent : (write req c .completing
              (.event (completedEvent (cut 500 (task.message.getD ""))))).Silent := by
            intro entry hmem
            simp [write, hlogged, hstored] at hmem
          rcases @write_result req c .completing
              (.event (completedEvent (cut 500 (task.message.getD "")))) with
            ⟨hok, hquiet⟩ | ⟨⟨e, he⟩, hraises⟩
          · rw [(bind_ok hok).1]
            rcases @write_result req c .updating
                (.state [("last_result", .str (cut 2000 (task.message.getD "")))]) with
              ⟨hok', hquiet'⟩ | ⟨⟨e, he⟩, hraises⟩
            · refine ⟨fun h => ?_, fun _ => .inl ⟨_, (bind_ok hok').1.trans (answer_result _)⟩⟩
              rcases h.2.2 with hraises | hraises
              · exact absurd ⟨h.1, hraises⟩ hquiet
              · exact absurd ⟨h.1, hraises⟩ hquiet'
            · refine ⟨fun _ => ⟨⟨e, (bind_error he).1⟩, ?_⟩, fun h => ?_⟩
              · refine hsilent.bind fun _ _ => (write_silent _ hstate).bind fun _ hok' => ?_
                rw [he] at hok'
                cases hok'
              · exact absurd ⟨hraises.1, hstored, .inr hraises.2⟩ h
          · refine ⟨fun _ => ⟨⟨e, (bind_error he).1⟩, ?_⟩, fun h => ?_⟩
            · refine hsilent.bind fun _ hok => ?_
              rw [he] at hok
              cases hok
            · exact absurd ⟨hraises.1, hstored, .inl hraises.2⟩ h

end Conclude

/-! ## The rule, and when it holds -/

section Result

open Logged

variable {req : Request} {c : Course} {x : Logged String} {last : Option String}

theorem onlyCompleted_of_raises (hraises : ∃ e, x.result = .error e) (hsilent : x.Silent) :
    OnlyCompleted x last where
  returns reply hok := by
    obtain ⟨e, he⟩ := hraises
    rw [he] at hok
    cases hok
  claims entry hmem hclaims := absurd hclaims (hsilent entry hmem)
  raises _ := hraises

theorem not_onlyCompleted (hlast : last ≠ some "completed")
    (h : (∃ reply, x.result = .ok reply) ∨ ¬ x.Silent) : ¬ OnlyCompleted x last := by
  intro honly
  rcases h with ⟨reply, hok⟩ | hclaims
  · exact hlast (honly.returns reply hok)
  · exact hclaims fun entry hmem hentry => hlast (honly.claims entry hmem hentry)

/-- The rule for what follows the `try` block, by the last state. -/
theorem onlyCompleted_conclude (task : Option A2ATask) :
    OnlyCompleted (conclude req c task) (task.map A2ATask.state) ↔
      task.map A2ATask.state = none ∨ task.map A2ATask.state = some "completed" ∨
        task.map A2ATask.state = some "failed" ∨ Unrecorded req c := by
  rcases task with - | task
  · obtain ⟨hraises, hsilent⟩ := @conclude_none req c
    exact iff_of_true (onlyCompleted_of_raises hraises hsilent) (.inl rfl)
  · simp only [Option.map_some, reduceCtorEq, Option.some.injEq, false_or]
    by_cases hfailed : task.state = "failed"
    · obtain ⟨hraises, hsilent⟩ := @conclude_failed req c _ hfailed
      exact iff_of_true (onlyCompleted_of_raises hraises hsilent) (.inr (.inl hfailed))
    · obtain ⟨hunrecorded, hrecorded⟩ := @conclude_other req c _ hfailed
      by_cases hcompleted : task.state = "completed"
      · refine iff_of_true ?_ (.inl hcompleted)
        rw [hcompleted]
        exact ⟨fun _ _ => rfl, fun _ _ _ => rfl, fun h => absurd rfl h⟩
      · by_cases h : Unrecorded req c
        · obtain ⟨hraises, hsilent⟩ := hunrecorded h
          exact iff_of_true (onlyCompleted_of_raises hraises hsilent) (.inr (.inr h))
        · refine iff_of_false (not_onlyCompleted (by simpa using hcompleted) (hrecorded h)) ?_
          simp [hcompleted, hfailed, h]

theorem tryStatement_result :
    (∃ task, (tryStatement req c).result = .ok task ∧ task.map A2ATask.state = lastState req c) ∧
        ¬ (Interrupted req c ∨ c.raises .closing = some .cancelled) ∨
      (∃ e, (tryStatement req c).result = .error e) ∧
        (Interrupted req c ∨ c.raises .closing = some .cancelled) := by
  by_cases hclosing : c.raises .closing = some .cancelled
  · exact .inr ⟨⟨.cancelled, by rw [tryStatement, closing, hclosing]⟩, .inr hclosing⟩
  · have hsame : tryStatement req c = (tryBlock req c).exceptThen fun text =>
        write req c .failing (.event (failedEvent (cut 200 text))) := by
      rw [tryStatement, closing]
      split
      · exact absurd ‹_› hclosing
      · rfl
    rw [hsame]
    rcases exceptThen_result (tryBlock req c) fun text =>
        write req c .failing (.event (failedEvent (cut 200 text))) with heq | ⟨⟨e, he⟩, herror⟩
    · rw [← heq]
      rcases @tryBlock_result req c with ⟨htask, hquiet⟩ | ⟨herror, hraises⟩
      · exact .inl ⟨htask, not_or.2 ⟨hquiet, hclosing⟩⟩
      · exact .inr ⟨herror, .inl hraises⟩
    · rcases @tryBlock_result req c with ⟨⟨task, htask, -⟩, -⟩ | ⟨-, hraises⟩
      · rw [he] at htask
        cases htask
      · exact .inr ⟨herror, .inl hraises⟩

theorem tryStatement_silent : (tryStatement req c).Silent := by
  have hblock : ((tryBlock req c).exceptThen fun text =>
      write req c .failing (.event (failedEvent (cut 200 text)))).Silent :=
    tryBlock_silent.exceptThen fun text => failedEvent_silent .failing (cut 200 text)
  rw [tryStatement, closing]
  split <;> exact hblock

theorem onlyCompleted_execute :
    OnlyCompleted (execute req c) (lastState req c) ↔ Settles req c := by
  rw [execute, Settles]
  have hsilent := @tryStatement_silent req c
  rcases @tryStatement_result req c with
    ⟨⟨task, htask, hstate⟩, hquiet⟩ | ⟨⟨e, he⟩, hraises⟩
  · obtain ⟨hresult, hlog⟩ := bind_ok (f := conclude req c) htask
    have hsame : OnlyCompleted (conclude req c task) (lastState req c) ↔
        OnlyCompleted (tryStatement req c >>= conclude req c) (lastState req c) := by
      constructor
      · intro h
        refine ⟨fun reply hok => h.returns reply (hresult ▸ hok), fun entry hmem hclaims => ?_,
          fun hne => hresult ▸ h.raises hne⟩
        rw [hlog] at hmem
        rcases List.mem_append.1 hmem with hmem | hmem
        · exact absurd hclaims (hsilent entry hmem)
        · exact h.claims entry hmem hclaims
      · intro h
        refine ⟨fun reply hok => h.returns reply (hresult.trans hok), fun entry hmem hclaims => ?_,
          fun hne => hresult ▸ h.raises hne⟩
        exact h.claims entry (hlog ▸ List.mem_append_right _ hmem) hclaims
    rw [not_or] at hquiet
    refine hsame.symm.trans ?_
    rw [← hstate, onlyCompleted_conclude]
    simp [hquiet.1, hquiet.2]
  · obtain ⟨hresult, hlog⟩ := bind_error (f := conclude req c) he
    refine iff_of_true (onlyCompleted_of_raises ⟨e, hresult⟩ ?_) ?_
    · intro entry hmem
      rw [hlog] at hmem
      exact hsilent entry hmem
    · rcases hraises with hraises | hraises
      · exact .inl hraises
      · exact .inr (.inl hraises)

/-- The adapter's rule, for the task that it has polled. -/
theorem adapter_rule {sent : A2ATask} (hsend : c.send false req.text req.configuration = some sent) :
    (A2AAdapter.result (.ok (A2AAdapter.invokeInner true (some sent) c.answers))).success = true ↔
      lastState req c = some "completed" := by
  rw [lastState, hsend, A2AAdapter.invokeInner, if_pos rfl, Option.map_some, A2AAdapter.result]
  dsimp only
  rw [A2AClient.polled_state, beq_iff_eq, Option.some.injEq]

/-- The rule of the pool's backend, for the task of a worker. -/
theorem docker_rule {sent : A2ATask} (hsend : c.send false req.text req.configuration = some sent)
    {world : Dispatcher.World} {moment : ℕ} {target : Dispatcher.DispatchTarget}
    {request : Dispatcher.DispatchRequest}
    (hworker : world.worker moment target request =
      .ended (some (workerTask (A2AClient.polled sent c.answers))) none) :
    ∃ attempt, Dispatcher.dockerInvoke world moment target request = .returns attempt ∧
      (attempt.success = true ↔ lastState req c = some "completed") := by
  rw [Dispatcher.dockerInvoke, hworker, lastState, hsend]
  refine ⟨_, rfl, ?_⟩
  dsimp only
  rw [workerTask, A2AClient.polled_state, beq_iff_eq, Option.some.injEq]

/-- **Success means completed**, to the orchestrator as to the adapter and the pool, exactly
when the last state is `completed` or `failed`, there is no task, or an exception comes before
the success is recorded. -/
theorem oneRule_iff_settles (req : Request) (c : Course) : OneRule req c ↔ Settles req c := by
  constructor
  · exact fun h => onlyCompleted_execute.1 h.external
  · intro h
    refine ⟨onlyCompleted_execute.2 h, fun sent hsend => adapter_rule hsend, ?_⟩
    intro sent hsend world moment target request hworker
    exact docker_rule hsend hworker

end Result

/-- A request on a session. -/
def shopRequest : Request where
  endpoint := "http://orchestrator:9000"
  taskId := "task-1"
  tenantId := "default"
  userMessage := "build a shop"
  eventCallback := false
  session := some { sessionId := some "s1", messages := some [] }
  sessionService := true

/-- The agent cancels the task after its first answer. -/
def canceledCourse : Course where
  send _ _ _ := some { taskId := "a1", state := "working" }
  answers := [some { taskId := "a1", state := "canceled", message := some "" }]
  raises _ := none
  stored _ := true

/-- A canceled orchestration returns normally. -/
theorem canceled_returns : ¬ OneRule shopRequest canceledCourse := by
  intro h
  have hreturns : (execute shopRequest canceledCourse).result = .ok "" := rfl
  have hcompleted := h.external.returns "" hreturns
  revert hcompleted
  decide

end ExternalOrchestrator
end AgentSwarm
