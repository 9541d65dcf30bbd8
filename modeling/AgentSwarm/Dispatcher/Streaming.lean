import AgentSwarm.Orchestrator.ExternalExecute
import AgentSwarm.Worker.Wire

/-!
# Streaming and blocking

`DockerBackend.invoke` and `A2AAdapter.invoke` send a task to a worker in one of
two ways.  Without a progress callback they block until the worker answers with
the finished record.  With one they are answered at once, poll the record, and
give each snapshot to the callback.

* `ProgressCallback`, `forward`, `exchange` — both ways, up to the last task seen.
* `DockerBackend.invoke`, `A2AAdapter.invoke` — what is made of that task.
* `Outcome` — how `call_llm` ends.
* `Streamed`, `Blocked` — an exchange of each kind with a worker, in which `call_llm`
  has an outcome and, when it is polled, its end is seen in time.
* `Following` — the invariant of the record while it is polled.
* `not_streaming_agrees` — a callback that is cancelled cancels the invoke.
* `streaming_agrees` — **otherwise both ways give the same result.**

The exchanges are parts of any run of the worker's server, with other messages,
clean-ups and cancellations between the steps of this one.
-/

namespace AgentSwarm
namespace Streaming

open ExternalOrchestrator (Raised workerTask)
open Dispatcher (AgentResult DispatchAttempt DispatchTarget)

/-! ## The client's side -/

/-- How a call of the progress callback ends. -/
inductive CallbackEnd where
  | returns
  /-- An `Exception` leaves it. -/
  | raises (text : String)
  /-- A `CancelledError` leaves it. -/
  | cancels
  deriving DecidableEq

/-- `on_progress`: what it does with the `k`-th snapshot. -/
abbrev ProgressCallback := ℕ → JsonObj → CallbackEnd

/-- What the client gets from the worker: the task of a `message/send`, blocking or
not, and those of the calls of `tasks/get` before the deadline. -/
structure Client where
  send : Bool → Option A2ATask
  answers : List (Option A2ATask)

section Exchange

variable (snapshot : A2ATask → JsonObj)

/-- The loop over the snapshots.  Only an `Exception` is caught. -/
def forward (onProgress : ProgressCallback) (k : ℕ) (a2aTask : A2ATask) :
    List A2ATask → Except Raised A2ATask
  | [] => .ok a2aTask
  | snap :: snaps =>
      match onProgress k (snapshot snap) with
      | .cancels => .error .cancelled
      | _ => forward onProgress (k + 1) snap snaps

/-- The task that is sent and, with a callback, polled. -/
def exchange (onProgress : Option ProgressCallback) (c : Client) :
    Except Raised (Option A2ATask) :=
  match onProgress with
  | none => .ok (c.send true)
  | some onProgress =>
      match c.send false with
      | none => .ok none
      | some a2aTask =>
          (forward snapshot onProgress 0 a2aTask (A2AClient.pollTask none c.answers)).map some

end Exchange

/-- The state and the message of a snapshot. -/
def snapshotOf (snap : A2ATask) : JsonObj :=
  [("state", .str snap.state), ("message", (snap.message.map Json.str).getD .null)]

/-- The same with the progress. -/
def snapshotWithProgress (snap : A2ATask) : JsonObj :=
  snapshotOf snap ++ [("progress", .arr (snap.progress.map .obj))]

/-- The attempt that a worker's task gives. -/
def DockerBackend.attempt (target : DispatchTarget) : Option A2ATask → DispatchAttempt
  | none => { target := target, success := false, error := some "Worker returned no task" }
  | some a2aTask =>
      let success := a2aTask.state == "completed"
      { target := target, success := success, output := Dispatcher.orElse a2aTask.message ""
        error := if success then none else some ("Worker task state: " ++ a2aTask.state) }

/-- `DockerBackend.invoke`, on a container. -/
def DockerBackend.invoke (target : DispatchTarget) (onProgress : Option ProgressCallback)
    (c : Client) : Except Raised DispatchAttempt :=
  (exchange snapshotOf onProgress c).map (DockerBackend.attempt target)

/-- `A2AAdapter.invoke`. -/
def A2AAdapter.invoke (onProgress : Option ProgressCallback) (c : Client) :
    Except Raised AgentResult :=
  (exchange snapshotWithProgress onProgress c).map fun a2aTask =>
    ExternalOrchestrator.A2AAdapter.result (.ok a2aTask)

/-- The attempt is that of the pool's backend for a worker that is left in this way. -/
theorem dockerInvoke_eq_attempt (world : Dispatcher.World) (moment : ℕ) (target : DispatchTarget)
    (request : Dispatcher.DispatchRequest) {a2aTask : Option A2ATask}
    (h : world.worker moment target request = .ended (a2aTask.map workerTask) none) :
    Dispatcher.dockerInvoke world moment target request =
      .returns (DockerBackend.attempt target a2aTask) := by
  cases a2aTask <;> simp [Dispatcher.dockerInvoke, h, DockerBackend.attempt, workerTask,
    Dispatcher.orElse]

/-! ## The worker's side -/

/-- How `call_llm` ends. -/
inductive Outcome where
  | returns (result : String)
  | raises (text : String)
  deriving DecidableEq

/-- The state that `_run` writes. -/
def Outcome.state : Outcome → Worker.TaskState
  | .returns _ => .completed
  | .raises _ => .failed

/-- The text of the message that `_run` appends to the history. -/
def Outcome.text : Outcome → String
  | .returns result => result
  | .raises text => "Error: " ++ text

/-- The step in which `call_llm` ends for the message `r`. -/
def Outcome.event (r : ℕ) (now : ℚ) : Outcome → Worker.Event
  | .returns result => .returns r result now
  | .raises text => .raises r text now

/-- The outcome that a step has for the message `r`, if it has one. -/
def outcomeOf (r : ℕ) : Worker.Event → Option Outcome
  | .returns r' result _ => if r' = r then some (.returns result) else none
  | .raises r' text _ => if r' = r then some (.raises text) else none
  | _ => none

/-- The step is a poll of the task. -/
def isPoll (taskId : String) : Worker.Event → Bool
  | .get taskId' => taskId' == taskId
  | _ => false

/-- A message with its record in `_tasks`, in some run of a server. -/
structure Sent (blocks : Bool) where
  blocking : ℕ → Bool
  r : ℕ
  taskId : String
  text : String
  before : List Worker.Event
  mode : blocking r = blocks
  inserted : (Run.exec (Worker.step blocking) Worker.init
    (before ++ [.insert r taskId text])).isSome

/-- The server once the record is there. -/
def Sent.opened {blocks : Bool} (x : Sent blocks) : Worker.Server :=
  (Run.exec (Worker.step x.blocking) Worker.init
    (x.before ++ [.insert x.r x.taskId x.text])).get x.inserted

/-- A message sent without blocking.  `earlier` and `later` are the steps of the
server before the deadline; the poll between them sees the end of the execution, and
the record has not been cleaned up. -/
structure Streamed (o : Outcome) extends Sent false where
  earlier : List Worker.Event
  later : List Worker.Event
  outcome : ∀ e ∈ earlier, ∀ o', outcomeOf r e = some o' → o' = o
  runs : (Run.exec (Worker.step blocking) toSent.opened earlier).isSome
  kept : ((Run.exec (Worker.step blocking) toSent.opened earlier).get runs).tasks.get taskId =
    some r
  terminal : (((Run.exec (Worker.step blocking) toSent.opened earlier).get runs).records
    r).state.terminal = true

/-- A message sent with blocking, up to the end of its execution. -/
structure Blocked (o : Outcome) extends Sent true where
  during : List Worker.Event
  now : ℚ
  ends : (Run.exec (Worker.step blocking) toSent.opened (during ++ [o.event r now])).isSome

section Answers

variable (event : String → JsonObj) {o : Outcome}

/-- The tasks that the polls of a run give. -/
def answersOf (blocking : ℕ → Bool) (taskId : String) :
    Worker.Server → List Worker.Event → List (Option A2ATask)
  | _, [] => []
  | s, e :: es =>
      match Worker.step blocking s e with
      | none => []
      | some t =>
          let rest := answersOf blocking taskId t es
          if isPoll taskId e then
            A2AClient.getReply taskId (s.handleGetTask event taskId) :: rest
          else rest

/-- The server at the poll that sees the end. -/
def Streamed.polled (x : Streamed o) : Worker.Server :=
  (Run.exec (Worker.step x.blocking) x.opened x.earlier).get x.runs

/-- The polls of a streamed exchange. -/
def Streamed.answers (x : Streamed o) : List (Option A2ATask) :=
  answersOf event x.blocking x.taskId x.opened (x.earlier ++ .get x.taskId :: x.later)

/-- The server when the execution of a blocking message has ended. -/
def Blocked.ended (y : Blocked o) : Worker.Server :=
  (Run.exec (Worker.step y.blocking) y.opened (y.during ++ [o.event y.r y.now])).get y.ends

/-- The record with which the worker answers a blocking message. -/
def Blocked.record (y : Blocked o) : Worker.Record := y.ended.records y.r

/-- A client that gets these answers, whichever way it sends. -/
def client (x : Streamed o) (y : Blocked o) : Client where
  send blocking :=
    A2AClient.sendReply
      (if blocking then Worker.finished event y.taskId y.record else Worker.sent x.taskId)
  answers := x.answers event

end Answers

/-! ## The record while it is polled -/

section Following

variable {event : String → JsonObj} {o : Outcome} {blocking : ℕ → Bool} {s t : Worker.Server}
  {e : Worker.Event} {r : ℕ} {taskId : String}

/-- The end of an execution, for the record of the message and for the others. -/
theorem record_finish (s : Worker.Server) {r r' : ℕ} (o : Outcome) (now : ℚ)
    (he : outcomeOf r e = if r' = r then some o else none) :
    (outcomeOf r e = none ∧
        ((s.finish r' o.state o.text now).records r).state = (s.records r).state ∧
        ((s.finish r' o.state o.text now).records r).history = (s.records r).history) ∨
      ∃ o', outcomeOf r e = some o' ∧
        ((s.finish r' o.state o.text now).records r).state = o'.state ∧
        ((s.finish r' o.state o.text now).records r).history =
          (s.records r).history ++ [("agent", o'.text)] := by
  by_cases hr : r' = r
  · subst hr
    exact .inr ⟨o, by simp [he], by simp [Worker.Server.finish]⟩
  · have hne : r ≠ r' := Ne.symm hr
    exact .inl (by simp [he, hr, Worker.Server.finish, Function.update_of_ne hne])

/-- The state and the history of a record change at the end of its execution only. -/
theorem record_step (hinserted : (s.pc r).early = false)
    (hstep : Worker.step blocking s e = some t) :
    (outcomeOf r e = none ∧ (t.records r).state = (s.records r).state ∧
        (t.records r).history = (s.records r).history) ∨
      ∃ o, outcomeOf r e = some o ∧ (t.records r).state = o.state ∧
        (t.records r).history = (s.records r).history ++ [("agent", o.text)] := by
  cases e with
  | returns r' result now =>
      simp only [Worker.step] at hstep
      split at hstep <;> cases hstep
      exact record_finish s (.returns result) now rfl
  | raises r' text now =>
      simp only [Worker.step] at hstep
      split at hstep <;> cases hstep
      exact record_finish s (.raises text) now rfl
  | progress r' event =>
      simp only [Worker.step] at hstep
      split at hstep <;> cases hstep
      by_cases hr : r = r'
      · subst hr
        exact .inl (by simp [outcomeOf])
      · exact .inl (by simp [outcomeOf, Function.update_of_ne hr])
  | insert r' taskId text =>
      have hr : r ≠ r' := by
        rintro rfl
        simp [(Worker.insert_step hstep).1] at hinserted
      simp only [Worker.step] at hstep
      split at hstep <;> cases hstep
      exact .inl (by simp [outcomeOf, Function.update_of_ne hr])
  | send r' now =>
      simp only [Worker.step] at hstep
      split at hstep <;> cases hstep
      exact .inl (by simp [outcomeOf, Worker.cleanup_records])
  | cancelTask taskId =>
      cases hstep
      exact .inl (by simp [outcomeOf, Worker.cancelTask_same])
  | get taskId =>
      cases hstep
      exact .inl ⟨rfl, rfl, rfl⟩
  | _ =>
      simp only [Worker.step] at hstep
      split at hstep <;> cases hstep
      exact .inl ⟨rfl, rfl, rfl⟩

/-- A message is inserted once. -/
theorem inserted_step (hinserted : (s.pc r).early = false)
    (hstep : Worker.step blocking s e = some t) : (t.pc r).early = false := by
  by_contra hearly
  have hbefore := Worker.early_step hstep (Bool.of_not_eq_false hearly)
  simp [hinserted] at hbefore

/-- The record is the one that `_run` leaves. -/
def Outcome.Wrote (o : Outcome) (record : Worker.Record) : Prop :=
  record.state = o.state ∧ record.reply = o.text

/-- A record that ends in an entry of the agent. -/
theorem reply_of_history {record : Worker.Record} {history : List (String × String)} {text : String}
    (h : record.history = history ++ [("agent", text)]) : record.reply = text := by
  simp [Worker.Record.reply, h]

/-- **The invariant.**  The record is not final, or it is the one that `_run` leaves. -/
structure Following (o : Outcome) (r : ℕ) (s : Worker.Server) : Prop where
  under : Worker.Under s
  inserted : (s.pc r).early = false
  record : (s.records r).state.terminal = false ∨ o.Wrote (s.records r)

theorem Following.step (h : Following o r s) (hstep : Worker.step blocking s e = some t)
    (houtcome : ∀ o', outcomeOf r e = some o' → o' = o) : Following o r t where
  under := Worker.under_step h.under hstep
  inserted := inserted_step h.inserted hstep
  record := by
    rcases record_step h.inserted hstep with ⟨-, hstate, hhistory⟩ |
      ⟨o', ho', hstate, hhistory⟩
    · rw [Outcome.Wrote, Worker.Record.reply, hstate, hhistory]
      exact h.record
    · obtain rfl := houtcome o' ho'
      exact .inr ⟨hstate, reply_of_history hhistory⟩

/-- The id leads to the record as long as it is kept. -/
theorem Following.kept_before (h : Following o r s) (hstep : Worker.step blocking s e = some t)
    (hget : t.tasks.get taskId = some r) : s.tasks.get taskId = some r := by
  refine Worker.get_step h.under hstep ?_ hget
  rintro r' text rfl
  obtain ⟨hearly, -, hget'⟩ := Worker.insert_step hstep
  obtain rfl : r = r' := Option.some.inj (hget.symm.trans hget')
  simp [h.inserted] at hearly

/-- Whatever the server does, as long as the outcome of the message is `o`. -/
theorem Following.exec (h : Following o r s) {es : List Worker.Event}
    (houtcome : ∀ e ∈ es, ∀ o', outcomeOf r e = some o' → o' = o)
    (hrun : Run.exec (Worker.step blocking) s es = some t) : Following o r t :=
  have halong : Run.Along (Worker.step blocking)
      (fun _ e => ∀ o', outcomeOf r e = some o' → o' = o) s es := Run.along_of_mem s houtcome
  Run.exec_invariant (fun _ _ _ hs hok hstep => hs.step hstep hok) h halong hrun

theorem Following.kept_before_exec (h : Following o r s) {es : List Worker.Event}
    (houtcome : ∀ e ∈ es, ∀ o', outcomeOf r e = some o' → o' = o)
    (hrun : Run.exec (Worker.step blocking) s es = some t)
    (hget : t.tasks.get taskId = some r) : s.tasks.get taskId = some r := by
  induction es generalizing s with
  | nil =>
      cases hrun
      exact hget
  | cons e es ih =>
      obtain ⟨u, hu, hut⟩ := Run.exec_cons_some hrun
      have hnext := h.step hu (houtcome e List.mem_cons_self)
      have hget' := ih hnext (fun e he => houtcome e (List.mem_cons_of_mem _ he)) hut
      exact h.kept_before hu hget'

/-- The client is told of the end in the words of `_run`. -/
def Outcome.Told (o : Outcome) (a2aTask : A2ATask) : Prop :=
  a2aTask.state = o.state.text ∧ a2aTask.message = some o.text

theorem Outcome.Wrote.told {record : Worker.Record} (h : o.Wrote record) (taskId : String) :
    o.Told (record.toTask event taskId) := by
  simp [Outcome.Told, Worker.Record.toTask, h.1, h.2]

/-- The states of the client that are terminal are those of the worker. -/
theorem isTerminal_toTask (taskId : String) (record : Worker.Record) :
    (record.toTask event taskId).isTerminal = record.state.terminal := by
  simp only [A2ATask.isTerminal, A2ATask.terminal, Worker.Record.toTask]
  cases record.state <;> decide

/-- Before the record is cleaned up, the polls tell nothing but the truth. -/
theorem answersOf_told (h : Following o r s) {es : List Worker.Event}
    (houtcome : ∀ e ∈ es, ∀ o', outcomeOf r e = some o' → o' = o)
    (hrun : Run.exec (Worker.step blocking) s es = some t)
    (hget : t.tasks.get taskId = some r) {a2aTask : A2ATask}
    (hmem : some a2aTask ∈ answersOf event blocking taskId s es) (hend : a2aTask.isTerminal) :
    o.Told a2aTask := by
  induction es generalizing s with
  | nil => simp [answersOf] at hmem
  | cons e es ih =>
      have hkept := h.kept_before_exec houtcome hrun hget
      obtain ⟨u, hu, hut⟩ := Run.exec_cons_some hrun
      have hnext := h.step hu (houtcome e List.mem_cons_self)
      have hrest := ih hnext (fun e he => houtcome e (List.mem_cons_of_mem _ he)) hut
      simp only [answersOf, hu] at hmem
      split at hmem
      · rw [List.mem_cons] at hmem
        rcases hmem with heq | hmem
        · rw [Worker.getReply_handleGetTask s taskId hkept, Option.some.injEq] at heq
          subst heq
          rw [isTerminal_toTask] at hend
          rcases h.record with hopen | hwrote
          · simp [hopen] at hend
          · exact hwrote.told taskId
        · exact hrest hmem
      · exact hrest hmem

theorem answersOf_append {es : List Worker.Event} (es' : List Worker.Event)
    (hrun : Run.exec (Worker.step blocking) s es = some t) :
    answersOf event blocking taskId s (es ++ es') =
      answersOf event blocking taskId s es ++ answersOf event blocking taskId t es' := by
  induction es generalizing s with
  | nil =>
      cases hrun
      rfl
  | cons e es ih =>
      obtain ⟨u, hu, hut⟩ := Run.exec_cons_some hrun
      simp only [List.cons_append, answersOf, hu, ih hut]
      split <;> rfl

end Following

/-! ## Both ways -/

section Agreement

variable {event : String → JsonObj} {o : Outcome}

theorem Sent.exec_opened {blocks : Bool} (x : Sent blocks) :
    Run.exec (Worker.step x.blocking) Worker.init (x.before ++ [.insert x.r x.taskId x.text]) =
      some x.opened :=
  (Option.some_get x.inserted).symm

/-- The record is new. -/
theorem Sent.following {blocks : Bool} (x : Sent blocks) (o : Outcome) :
    Following o x.r x.opened := by
  have hopened := x.exec_opened
  rw [Run.exec_append] at hopened
  obtain ⟨u, hu, hinsert⟩ := Option.bind_eq_some_iff.1 hopened
  obtain ⟨v, hv, hend⟩ := Run.exec_cons_some hinsert
  obtain rfl : v = x.opened := Option.some.inj hend
  have hunder : Worker.Under u :=
    (Run.throughout_of_preserved (fun _ _ _ => Worker.under_step) Worker.under_init
      x.before).last hu
  refine ⟨Worker.under_step hunder hv, (Worker.insert_step hv).2.1, .inl ?_⟩
  simp only [Worker.step] at hv
  split at hv
  · have hrecord : (x.opened.records x.r).state = .working := by simp [← Option.some.inj hv]
    simp [hrecord, Worker.TaskState.terminal]
  · simp at hv

variable (event) in
/-- The polling of a streamed exchange ends with the words of `_run`. -/
theorem Streamed.lastAnswer_told (x : Streamed o) :
    ∃ last, A2AClient.lastAnswer (x.answers event) = some last ∧ o.Told last := by
  have hopened := x.toSent.following o
  have hrun : Run.exec (Worker.step x.blocking) x.opened x.earlier = some x.polled :=
    (Option.some_get x.runs).symm
  have hkept : x.polled.tasks.get x.taskId = some x.r := x.kept
  have hterminal : (x.polled.records x.r).state.terminal = true := x.terminal
  have hwrote : o.Wrote (x.polled.records x.r) := by
    rcases (hopened.exec x.outcome hrun).record with hopen | hwrote
    · simp [hterminal] at hopen
    · exact hwrote
  have hpoll : ∃ later, answersOf event x.blocking x.taskId x.polled (.get x.taskId :: x.later) =
      some ((x.polled.records x.r).toTask event x.taskId) :: later := by
    refine ⟨answersOf event x.blocking x.taskId x.polled x.later, ?_⟩
    simp [answersOf, Worker.step, isPoll, Worker.getReply_handleGetTask _ _ hkept]
  obtain ⟨later, hlater⟩ := hpoll
  rw [Streamed.answers, answersOf_append _ hrun, hlater]
  refine A2AClient.lastAnswer_of_terminal ?_ ?_ (hwrote.told x.taskId) _
  · intro a2aTask hmem hend
    exact answersOf_told hopened x.outcome hrun hkept hmem hend
  · rw [isTerminal_toTask]
    exact hterminal

/-- A blocking message is answered with the words of `_run`. -/
theorem Blocked.wrote (y : Blocked o) : o.Wrote y.record := by
  have hrun : Run.exec (Worker.step y.blocking) y.opened (y.during ++ [o.event y.r y.now]) =
      some y.ended := (Option.some_get y.ends).symm
  rw [Run.exec_append] at hrun
  obtain ⟨u, hu, hlast⟩ := Option.bind_eq_some_iff.1 hrun
  obtain ⟨v, hv, hend⟩ := Run.exec_cons_some hlast
  obtain rfl : v = y.ended := Option.some.inj hend
  have hinserted : (u.pc y.r).early = false :=
    (Run.throughout_of_preserved (fun _ _ _ => inserted_step) (y.toSent.following o).inserted
      y.during).last hu
  have hevent : outcomeOf y.r (o.event y.r y.now) = some o := by
    cases o <;> simp [Outcome.event, outcomeOf]
  rcases record_step hinserted hv with ⟨hnone, -, -⟩ | ⟨o', ho', hstate, hhistory⟩
  · simp [hevent] at hnone
  · obtain rfl : o = o' := Option.some.inj (hevent.symm.trans ho')
    exact ⟨hstate, reply_of_history hhistory⟩

/-- A callback that only raises `Exception`s does not end the polling. -/
theorem forward_eq (snapshot : A2ATask → JsonObj) {onProgress : ProgressCallback}
    (hcallback : ∀ k snap, onProgress k snap ≠ .cancels) (snaps : List A2ATask) (k : ℕ)
    (a2aTask : A2ATask) :
    forward snapshot onProgress k a2aTask snaps = .ok (snaps.getLast?.getD a2aTask) := by
  induction snaps generalizing k a2aTask with
  | nil => rfl
  | cons snap snaps ih =>
      rw [forward, List.getLast?_cons]
      have hsnap := hcallback k (snapshot snap)
      split
      · contradiction
      · rw [ih]
        rfl

variable (event) in
/-- With a callback, the last task is the one polled. -/
theorem exchange_streaming (snapshot : A2ATask → JsonObj) {onProgress : ProgressCallback}
    (hcallback : ∀ k snap, onProgress k snap ≠ .cancels) (x : Streamed o) (y : Blocked o) :
    ∃ a2aTask, exchange snapshot (some onProgress) (client event x y) = .ok (some a2aTask) ∧
      o.Told a2aTask := by
  obtain ⟨last, hlast, htold⟩ := x.lastAnswer_told event
  let sent : A2ATask := { taskId := x.taskId, state := "working", message := some "" }
  have hkey := A2AClient.polled_key sent hlast
  simp only [A2ATask.key, Prod.mk.injEq] at hkey
  refine ⟨A2AClient.polled sent (x.answers event), ?_, ?_⟩
  · simp only [exchange, client, Bool.false_eq_true, if_false, Worker.sendReply_sent]
    rw [forward_eq snapshot hcallback]
    rfl
  · exact ⟨hkey.1.trans htold.1, hkey.2.1.trans htold.2⟩

variable (event) in
/-- Without one, it is the one in the answer. -/
theorem exchange_blocking (snapshot : A2ATask → JsonObj) (x : Streamed o) (y : Blocked o) :
    ∃ a2aTask, exchange snapshot none (client event x y) = .ok (some a2aTask) ∧
      o.Told a2aTask := by
  refine ⟨y.record.toTask event y.taskId, ?_, y.wrote.told y.taskId⟩
  simp [exchange, client, Worker.sendReply_finished]

/-- The attempt that an outcome comes to. -/
def Outcome.attempt (o : Outcome) (target : DispatchTarget) : DispatchAttempt :=
  match o with
  | .returns result => { target := target, success := true, output := result }
  | .raises text =>
      { target := target, success := false, output := "Error: " ++ text
        error := some "Worker task state: failed" }

/-- The adapter's result that an outcome comes to. -/
def Outcome.result : Outcome → AgentResult
  | .returns result => { success := true, output := result }
  | .raises text =>
      { success := false, output := "Error: " ++ text, error := some "A2A task state: failed" }

theorem attempt_of_told {a2aTask : A2ATask} (h : o.Told a2aTask) (target : DispatchTarget) :
    DockerBackend.attempt target (some a2aTask) = o.attempt target := by
  obtain ⟨hstate, hmessage⟩ := h
  have hor : Dispatcher.orElse (some o.text) "" = o.text := by
    simp only [Dispatcher.orElse]
    split <;> simp_all
  cases o <;> simp_all [DockerBackend.attempt, Outcome.attempt, Outcome.state, Outcome.text,
    Worker.TaskState.text]

theorem result_of_told {a2aTask : A2ATask} (h : o.Told a2aTask) :
    ExternalOrchestrator.A2AAdapter.result (.ok (some a2aTask)) = o.result := by
  obtain ⟨hstate, hmessage⟩ := h
  cases o <;> simp_all [ExternalOrchestrator.A2AAdapter.result, Outcome.result, Outcome.state,
    Outcome.text, Worker.TaskState.text]

/-- **Streaming and blocking agree**, for a callback that returns or raises an
`Exception` at each snapshot: both come to what the outcome of `call_llm` comes to. -/
theorem streaming_agrees (event : String → JsonObj) (o : Outcome) (x : Streamed o) (y : Blocked o)
    (target : DispatchTarget) (onProgress : ProgressCallback)
    (hcallback : ∀ k snap, onProgress k snap ≠ .cancels) :
    (DockerBackend.invoke target (some onProgress) (client event x y) =
        DockerBackend.invoke target none (client event x y) ∧
      DockerBackend.invoke target none (client event x y) = .ok (o.attempt target)) ∧
    (A2AAdapter.invoke (some onProgress) (client event x y) =
        A2AAdapter.invoke none (client event x y) ∧
      A2AAdapter.invoke none (client event x y) = .ok o.result) := by
  obtain ⟨polled, hpolled, htold⟩ := exchange_streaming event snapshotOf hcallback x y
  obtain ⟨polled', hpolled', htold'⟩ :=
    exchange_streaming event snapshotWithProgress hcallback x y
  obtain ⟨answered, hanswered, htold₁⟩ := exchange_blocking event snapshotOf x y
  obtain ⟨answered', hanswered', htold₂⟩ :=
    exchange_blocking event snapshotWithProgress x y
  have hdocker : DockerBackend.invoke target none (client event x y) = .ok (o.attempt target) := by
    rw [DockerBackend.invoke, hanswered]
    exact congrArg Except.ok (attempt_of_told htold₁ target)
  have hadapter : A2AAdapter.invoke none (client event x y) = .ok o.result := by
    rw [A2AAdapter.invoke, hanswered']
    exact congrArg Except.ok (result_of_told htold₂)
  refine ⟨⟨?_, hdocker⟩, ?_, hadapter⟩
  · rw [hdocker, DockerBackend.invoke, hpolled]
    exact congrArg Except.ok (attempt_of_told htold target)
  · rw [hadapter, A2AAdapter.invoke, hpolled']
    exact congrArg Except.ok (result_of_told htold')

end Agreement

/-! ## A callback that is cancelled -/

/-- A message that is polled while it is worked on, and when it is done. -/
def polledTests : Streamed (.returns "done") where
  blocking _ := false
  r := 0
  taskId := "3f2a"
  text := "write the tests"
  before := [.send 0 1000]
  mode := rfl
  inserted := by decide +kernel
  earlier := [.register 0 "3f2a", .get "3f2a", .progress 0 "write_file", .returns 0 "done" 1001]
  later := []
  outcome := by simp [outcomeOf]
  runs := by decide +kernel
  kept := by decide +kernel
  terminal := by decide +kernel

/-- The same message, sent with blocking. -/
def blockedTests : Blocked (.returns "done") where
  blocking _ := true
  r := 0
  taskId := "9c41"
  text := "write the tests"
  before := [.send 0 1000]
  mode := rfl
  inserted := by decide +kernel
  during := [.progress 0 "write_file"]
  now := 1001
  ends := by decide +kernel

/-- The progress event of a tool. -/
def toolEvent (tool : String) : JsonObj := [("tool", .str tool)]

/-- A callback that lets a `CancelledError` through does not only lose its snapshot: the
invoke is cancelled, and the task with it. -/
theorem not_streaming_agrees :
    ¬ ∀ (event : String → JsonObj) (o : Outcome) (x : Streamed o) (y : Blocked o)
        (target : DispatchTarget) (onProgress : ProgressCallback),
      DockerBackend.invoke target (some onProgress) (client event x y) =
          DockerBackend.invoke target none (client event x y) ∧
        A2AAdapter.invoke (some onProgress) (client event x y) =
          A2AAdapter.invoke none (client event x y) := by
  intro h
  have hsame := (h toolEvent _ polledTests blockedTests (Dispatcher.dockerTarget "tester")
    fun _ _ => .cancels).1
  have hstreaming : (DockerBackend.invoke (Dispatcher.dockerTarget "tester")
      (some fun _ _ => .cancels) (client toolEvent polledTests blockedTests)).toOption = none := by
    decide +kernel
  have hblocking : (DockerBackend.invoke (Dispatcher.dockerTarget "tester") none
      (client toolEvent polledTests blockedTests)).toOption.isSome := by
    decide +kernel
  rw [← hsame, hstreaming] at hblocking
  cases hblocking

/-- A callback whose first call raises because its connection is closed. -/
theorem streaming_agrees_raises :
    (DockerBackend.invoke (Dispatcher.dockerTarget "tester")
          (some fun k _ => if k = 0 then .raises "closed" else .returns)
          (client toolEvent polledTests blockedTests) =
        DockerBackend.invoke (Dispatcher.dockerTarget "tester") none
          (client toolEvent polledTests blockedTests) ∧
      DockerBackend.invoke (Dispatcher.dockerTarget "tester") none
          (client toolEvent polledTests blockedTests) =
        .ok ((Outcome.returns "done").attempt (Dispatcher.dockerTarget "tester"))) ∧
    (A2AAdapter.invoke (some fun k _ => if k = 0 then .raises "closed" else .returns)
          (client toolEvent polledTests blockedTests) =
        A2AAdapter.invoke none (client toolEvent polledTests blockedTests) ∧
      A2AAdapter.invoke none (client toolEvent polledTests blockedTests) =
        .ok (Outcome.returns "done").result) :=
  streaming_agrees toolEvent _ polledTests blockedTests (Dispatcher.dockerTarget "tester") _
    fun k _ => by split <;> simp

end Streaming
end AgentSwarm
