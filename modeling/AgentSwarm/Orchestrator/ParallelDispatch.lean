import Mathlib.Data.List.Perm.Basic
import AgentSwarm.Dispatcher.Base
import AgentSwarm.Session.MergeOrder
import AgentSwarm.Session.Service

/-!
# Dispatching one agent, and several at once

The orchestrator has a tool that dispatches one agent and a tool that dispatches
a list of them concurrently.  The first writes two events and the artifacts to
the session; the second writes nothing.

* `Caller`, `Spec` — the fields of the orchestrator that the tools read, and one
  entry of a list of agents.
* `ToolRun` — what a tool answers, what it asks of the session service, and the
  dispatches it keeps.
* `toolDispatchAgent`, `toolDispatchAgentsParallel` — the tools.
* `applyCalls` — the sessions after a list of calls.
* `AuditAlike` — both ways leave the same in every session, up to the order of
  the events, the ids and the times.
* `auditAlike_iff` — **main result**: this is so exactly when there is no
  session to write to, or no dispatch returns.
-/

namespace AgentSwarm
namespace ParallelDispatch

open Dispatcher (DispatchRequest DispatchResult Exn)
open SessionService (Call Row Session)

/-! ## The tools -/

/-- What the tools read of the orchestrator.  `emits` tells whether
`_current_emit` is set. -/
structure Caller where
  currentTaskId : String
  currentTenantId : String
  currentSessionWorkDir : Option String := none
  currentSvcSessionId : Option String := none
  sessionService : Bool := true
  sharedContext : String := ""
  emits : Bool := true

/-- An agent to dispatch, with `""` for what its arguments leave out. -/
structure Spec where
  agentType : String := ""
  task : String := ""

/-- What a run of a tool leaves. -/
structure ToolRun where
  answer : Except Exn String
  calls : List Call := []
  dispatched : Dict String (String × DispatchResult)

/-- `s[:n]`. -/
def cut (n : ℕ) (s : String) : String := String.ofList (s.toList.take n)

/-- `s or default`. -/
def orText (s default : String) : String := if s = "" then default else s

/-- `_build_worker_task`. -/
def Caller.buildWorkerTask (o : Caller) (task : String) : String :=
  if o.sharedContext = "" then task
  else o.sharedContext ++ "\n\n---\n\n## 你的具体任务\n" ++ task

/-- `_build_dispatch_context`. -/
def Caller.buildDispatchContext (o : Caller) : JsonObj :=
  let ctx : JsonObj := [("task_id", .str o.currentTaskId), ("tenant_id", .str o.currentTenantId)]
  match o.currentSessionWorkDir with
  | some dir => if dir = "" then ctx else ctx.set "shared_dir" (.str dir)
  | none => ctx

/-- The request for an agent.  Only the tool for one agent passes a progress
callback on. -/
def Caller.request (o : Caller) (spec : Spec) (streaming : Bool) : DispatchRequest where
  agentType := spec.agentType
  task := o.buildWorkerTask spec.task
  context := o.buildDispatchContext
  streaming := streaming

/-- `self._session_service and self._current_svc_session_id`. -/
def Caller.audited (o : Caller) : Option String :=
  if o.sessionService then o.currentSvcSessionId.filter (· ≠ "") else none

/-- `result.output or result.error or "无响应"`. -/
def responseText (result : DispatchResult) : String :=
  orText result.output (orText (result.error.getD "") "无响应")

def stateText (result : DispatchResult) : String :=
  if result.success then "completed" else "failed"

/-- `agent_type.split("-")[0]`. -/
def firstWord (agentType : String) : String :=
  String.ofList (agentType.toList.takeWhile (· ≠ '-'))

/-- The event of a dispatch. -/
def dispatchedEvent (agentType dispatchId : String) : JsonObj :=
  [("type", .str "agent_dispatched"), ("agent_type", .str agentType),
    ("dispatch_id", .str dispatchId)]

/-- The event of its outcome. -/
def completedEvent (agentType dispatchId : String) (result : DispatchResult) : JsonObj :=
  [("type", .str "agent_completed"), ("agent_type", .str agentType),
    ("dispatch_id", .str dispatchId), ("success", .bool result.success),
    ("artifacts", .arr (result.artifacts.map .str)),
    ("error", .str (cut 200 (result.error.getD "")))]

/-- The artifacts of a success, under the first word of the agent's type. -/
def artifactsDelta (agentType : String) (result : DispatchResult) : JsonObj :=
  [("artifacts", .obj [(firstWord agentType, .arr (result.artifacts.map .str))])]

/-- What `_tool_dispatch_agent` asks of the session service. -/
def Caller.auditCalls (o : Caller) (agentType dispatchId : String) (result : DispatchResult) :
    List Call :=
  match o.audited with
  | none => []
  | some sid =>
      [.appendEvent sid (dispatchedEvent agentType dispatchId),
        .appendEvent sid (completedEvent agentType dispatchId result)] ++
      if result.success ∧ result.artifacts ≠ [] then
        [.updateState sid (artifactsDelta agentType result)]
      else []

/-- `_tool_dispatch_agent`.  `dispatch` is the dispatcher and `newId` what `uuid4`
gives. -/
def toolDispatchAgent (o : Caller) (dispatch : DispatchRequest → Except Exn DispatchResult)
    (newId : String) (dispatched : Dict String (String × DispatchResult)) (spec : Spec) :
    ToolRun :=
  match dispatch (o.request spec o.emits) with
  | .error e => { answer := .error e, dispatched := dispatched }
  | .ok result =>
      { answer := .ok ("已分派 Agent '" ++ spec.agentType ++ "'（dispatch_id=" ++ newId ++ "）\n"
          ++ "任务状态: " ++ stateText result ++ "\n"
          ++ "Agent 响应: " ++ cut 500 (responseText result))
        calls := o.auditCalls spec.agentType newId result
        dispatched := dispatched.set newId (spec.agentType, result) }

/-- `await asyncio.gather(…)`: the results in order, or an exception of one of
the dispatches. -/
def gather : List (Except Exn DispatchResult) → Except Exn (List DispatchResult)
  | [] => .ok []
  | .error e :: _ => .error e
  | .ok result :: results =>
      match gather results with
      | .error e => .error e
      | .ok results => .ok (result :: results)

/-- The lines and the records of the outcomes, from the `n`-th on. -/
def report (newId : ℕ → String) :
    ℕ → List (Spec × DispatchResult) → Dict String (String × DispatchResult) →
      List String × Dict String (String × DispatchResult)
  | _, [], dispatched => ([], dispatched)
  | n, (spec, result) :: outcomes, dispatched =>
      let line := "\n[" ++ spec.agentType ++ "（dispatch_id=" ++ newId n ++ "）]\n"
        ++ "  状态: " ++ stateText result ++ "\n"
        ++ "  响应: " ++ cut 300 (responseText result)
      let (lines, dispatched) :=
        report newId (n + 1) outcomes (dispatched.set (newId n) (spec.agentType, result))
      (line :: lines, dispatched)

/-- `_tool_dispatch_agents_parallel`.  `dispatcher` gives what becomes of the
`n`-th dispatch. -/
def toolDispatchAgentsParallel (o : Caller)
    (dispatcher : ℕ → DispatchRequest → Except Exn DispatchResult) (newId : ℕ → String)
    (dispatched : Dict String (String × DispatchResult)) (specs : List Spec) : ToolRun :=
  if specs = [] then { answer := .ok "错误：agents 列表为空", dispatched := dispatched }
  else
    match gather (specs.mapIdx fun n spec => dispatcher n (o.request spec false)) with
    | .error e => { answer := .error e, dispatched := dispatched }
    | .ok results =>
        let (lines, dispatched) := report newId 0 (specs.zip results) dispatched
        { answer := .ok ("\n".intercalate
            (("并行分派完成（" ++ toString results.length ++ " 个 Agent）：") :: lines))
          dispatched := dispatched }

/-- `_tool_dispatch_agent` once for each agent of the list, from the `n`-th on.
A call that raises does not keep the others from being made. -/
def serialCalls (o : Caller) (dispatcher : ℕ → DispatchRequest → Except Exn DispatchResult)
    (newId : ℕ → String) : ℕ → List Spec → List Call
  | _, [] => []
  | n, spec :: specs =>
      (toolDispatchAgent o (dispatcher n) (newId n) [] spec).calls ++
        serialCalls o dispatcher newId (n + 1) specs

/-! ## The sessions -/

/-- One call of the session service, with no other call at work on the session. -/
def applyCall (now : ℚ) (db : String → Option Row) (call : Call) : String → Option Row :=
  match db call.sessionId with
  | none => db
  | some row =>
      Function.update db call.sessionId
        (some (call.modify now { row with sessionId := call.sessionId }).toRow)

/-- The calls one after the other; `clock` gives the reading that the `n`-th makes. -/
def applyCalls (clock : ℕ → ℚ) : ℕ → (String → Option Row) → List Call → String → Option Row
  | _, db, [] => db
  | n, db, call :: calls => applyCalls clock (n + 1) (applyCall (clock n) db call) calls

/-- An event without its time, its id renamed. -/
def anonymous (rename : String → String) (event : JsonObj) : JsonObj :=
  (event.erase "timestamp").map fun entry =>
    match entry with
    | ("dispatch_id", .str id) => ("dispatch_id", .str (rename id))
    | entry => entry

/-- `a` and `b` were made of `before` by the same events, up to their order, their
ids and their times, and have the same state up to key order. -/
def SameLeft (before a b : Row) : Prop :=
  ∃ ea eb rename, a.events = before.events ++ ea ∧ b.events = before.events ++ eb ∧
    Function.Injective rename ∧ (ea.map (anonymous rename)).Perm (eb.map (anonymous id)) ∧
    Json.Same (.obj a.state) (.obj b.state)

/-- **The same audit trail.**  In every session, the tool for several agents
leaves what the tool for one leaves when it is called once for each. -/
def AuditAlike (o : Caller) (dispatcher : ℕ → DispatchRequest → Except Exn DispatchResult)
    (newId newId' : ℕ → String) (clock clock' : ℕ → ℚ)
    (dispatched : Dict String (String × DispatchResult)) (db : String → Option Row)
    (specs : List Spec) : Prop :=
  ∀ sid before, db sid = some before → ∃ a b,
    applyCalls clock 0 db
      (toolDispatchAgentsParallel o dispatcher newId dispatched specs).calls sid = some a ∧
    applyCalls clock' 0 db (serialCalls o dispatcher newId' 0 specs) sid = some b ∧
    SameLeft before a b

/-- The condition: there is no session to write to, or no dispatch returns. -/
def NothingToRecord (o : Caller) (dispatcher : ℕ → DispatchRequest → Except Exn DispatchResult)
    (db : String → Option Row) (specs : List Spec) : Prop :=
  ∀ sid, o.audited = some sid → (db sid).isSome → ∀ n spec, specs[n]? = some spec →
    ∃ e, dispatcher n (o.request spec o.emits) = .error e

variable {o : Caller} {dispatcher : ℕ → DispatchRequest → Except Exn DispatchResult}
  {newId newId' : ℕ → String} {clock clock' : ℕ → ℚ}
  {dispatched : Dict String (String × DispatchResult)} {db : String → Option Row} {sid : String}
  {specs : List Spec}

/-! ## What the calls do -/

/-- The call appends an event to the session. -/
def appends (sid : String) : Call → Bool
  | .appendEvent sid' _ => sid' = sid
  | _ => false

/-- A call makes the log of a session longer exactly when it appends to it. -/
theorem applyCall_events {row : Row} (h : db sid = some row) (now : ℚ) (call : Call) :
    ∃ row', applyCall now db call sid = some row' ∧
      row'.events.length = row.events.length + if appends sid call then 1 else 0 := by
  unfold applyCall
  by_cases hsid : sid = call.sessionId
  · subst hsid
    rw [h]
    cases call <;> simp [Call.modify, Call.sessionId, appends]
  · have hother : appends sid call = false := by
      cases call with
      | appendEvent sid' event => simpa [appends, Call.sessionId, eq_comm] using hsid
      | _ => rfl
    refine ⟨row, ?_, by simp [hother]⟩
    cases db call.sessionId with
    | none => exact h
    | some other => rw [← h]; exact Function.update_of_ne hsid _ _

theorem applyCalls_events {row : Row} (h : db sid = some row) (n : ℕ) (calls : List Call) :
    ∃ row', applyCalls clock n db calls sid = some row' ∧
      row'.events.length = row.events.length + calls.countP (appends sid) := by
  induction calls generalizing n db row with
  | nil => exact ⟨row, h, rfl⟩
  | cons call calls ih =>
      obtain ⟨row₁, hrow₁, hlength₁⟩ := applyCall_events h (clock n) call
      obtain ⟨row₂, hrow₂, hlength₂⟩ := ih hrow₁ (n + 1)
      refine ⟨row₂, hrow₂, ?_⟩
      rw [hlength₂, hlength₁, List.countP_cons]
      omega

/-- Calls on a session that is not there do nothing. -/
theorem applyCalls_of_absent {calls : List Call} (h : ∀ call ∈ calls, db call.sessionId = none)
    (n : ℕ) : applyCalls clock n db calls = db := by
  induction calls generalizing n with
  | nil => rfl
  | cons call calls ih =>
      have hcall := h call List.mem_cons_self
      rw [applyCalls, applyCall, hcall]
      exact ih (fun call hc => h call (List.mem_cons_of_mem _ hc)) (n + 1)

/-! ## What the tools ask for -/

/-- The tool for several agents asks for nothing. -/
theorem parallel_calls (o : Caller) (dispatcher : ℕ → DispatchRequest → Except Exn DispatchResult)
    (newId : ℕ → String) (dispatched : Dict String (String × DispatchResult))
    (specs : List Spec) :
    (toolDispatchAgentsParallel o dispatcher newId dispatched specs).calls = [] := by
  unfold toolDispatchAgentsParallel
  split
  · rfl
  · split <;> rfl

/-- The tool for one agent writes to the session of the orchestrator only, and
only when its dispatch returned. -/
theorem toolDispatchAgent_calls {dispatch : DispatchRequest → Except Exn DispatchResult}
    {id : String} {spec : Spec} {call : Call}
    (h : call ∈ (toolDispatchAgent o dispatch id dispatched spec).calls) :
    o.audited = some call.sessionId ∧
      ∃ result, dispatch (o.request spec o.emits) = .ok result := by
  unfold toolDispatchAgent at h
  cases hdispatch : dispatch (o.request spec o.emits) with
  | error e => simp [hdispatch] at h
  | ok result =>
    refine ⟨?_, result, rfl⟩
    simp only [hdispatch, Caller.auditCalls] at h
    cases haudited : o.audited with
    | none => simp [haudited] at h
    | some sid =>
      simp only [haudited, List.mem_append, List.mem_cons, List.not_mem_nil, or_false] at h
      rcases h with (rfl | rfl) | h
      · rfl
      · rfl
      · split at h
        · obtain rfl : call = _ := by simpa using h
          rfl
        · cases h

theorem mem_serialCalls {call : Call} {n : ℕ} (h : call ∈ serialCalls o dispatcher newId n specs) :
    ∃ k spec, specs[k]? = some spec ∧
      call ∈ (toolDispatchAgent o (dispatcher (n + k)) (newId (n + k)) [] spec).calls := by
  induction specs generalizing n with
  | nil => cases h
  | cons spec specs ih =>
      rcases List.mem_append.1 h with h | h
      · exact ⟨0, spec, rfl, h⟩
      · obtain ⟨k, spec', hk, hcall⟩ := ih h
        refine ⟨k + 1, spec', hk, ?_⟩
        rwa [show n + (k + 1) = n + 1 + k by omega]

/-- The dispatch that returned is in the log. -/
theorem countP_serialCalls {n k : ℕ} {spec : Spec} {result : DispatchResult}
    (haudited : o.audited = some sid) (hk : specs[k]? = some spec)
    (hresult : dispatcher (n + k) (o.request spec o.emits) = .ok result) :
    0 < (serialCalls o dispatcher newId n specs).countP (appends sid) := by
  have hmem : Call.appendEvent sid (dispatchedEvent spec.agentType (newId (n + k))) ∈
      serialCalls o dispatcher newId n specs := by
    induction specs generalizing n k with
    | nil => cases hk
    | cons spec' specs ih =>
        cases k with
        | zero =>
          obtain rfl : spec' = spec := by simpa using hk
          refine List.mem_append_left _ ?_
          rw [toolDispatchAgent, show dispatcher n = dispatcher (n + 0) from rfl, hresult]
          simp [Caller.auditCalls, haudited]
        | succ k =>
          rw [show n + (k + 1) = n + 1 + k by omega] at hresult ⊢
          exact List.mem_append_right _ (ih hk hresult)
  exact List.countP_pos_iff.2 ⟨_, hmem, by simp [appends]⟩

theorem SameLeft.rfl {row : Row} : SameLeft row row row :=
  ⟨[], [], id, by simp, by simp, Function.injective_id, by simp, Json.Same.refl _⟩

/-- **The audit trail.**  Dispatching several agents leaves what dispatching them
one by one leaves exactly when there is nothing to record: no session, or no
dispatch that returns. -/
theorem auditAlike_iff (o : Caller)
    (dispatcher : ℕ → DispatchRequest → Except Exn DispatchResult) (newId newId' : ℕ → String)
    (clock clock' : ℕ → ℚ) (dispatched : Dict String (String × DispatchResult))
    (db : String → Option Row) (specs : List Spec) :
    AuditAlike o dispatcher newId newId' clock clock' dispatched db specs ↔
      NothingToRecord o dispatcher db specs := by
  unfold AuditAlike
  rw [parallel_calls]
  constructor
  · intro halike sid haudited hrow n spec hspec
    obtain ⟨before, hbefore⟩ := Option.isSome_iff_exists.1 hrow
    obtain ⟨a, b, ha, hb, ea, eb, rename, hea, heb, -, hperm, -⟩ := halike sid before hbefore
    cases hresult : dispatcher n (o.request spec o.emits) with
    | error e => exact ⟨e, rfl⟩
    | ok result =>
      -- the serial calls made the log longer, the others did not
      have hpos : 0 < (serialCalls o dispatcher newId' 0 specs).countP (appends sid) :=
        countP_serialCalls haudited hspec (by rwa [Nat.zero_add])
      obtain ⟨b', hb', hlength⟩ := @applyCalls_events clock' db sid before hbefore 0
        (serialCalls o dispatcher newId' 0 specs)
      obtain rfl : b = b' := Option.some.inj (hb.symm.trans hb')
      obtain rfl : before = a := Option.some.inj (hbefore.symm.trans ha)
      have hsame := hperm.length_eq
      simp only [List.length_map] at hsame
      have hla := congrArg List.length hea
      have hlb := congrArg List.length heb
      rw [List.length_append] at hla hlb
      omega
  · intro hnothing sid before hbefore
    have hserial : applyCalls clock' 0 db (serialCalls o dispatcher newId' 0 specs) = db := by
      refine applyCalls_of_absent ?_ 0
      intro call hcall
      obtain ⟨k, spec, hk, hmem⟩ := mem_serialCalls hcall
      obtain ⟨haudited, result, hresult⟩ := toolDispatchAgent_calls hmem
      by_contra hrow
      obtain ⟨e, he⟩ :=
        hnothing call.sessionId haudited (Option.isSome_iff_ne_none.2 hrow) k spec hk
      rw [Nat.zero_add, he] at hresult
      cases hresult
    exact ⟨before, before, hbefore, by rw [hserial, hbefore], .rfl⟩

/-! ## A list with one agent -/

/-- **Nothing is recorded** of an agent that is dispatched with the tool for
several: its two events and its artifacts are missing from the session. -/
theorem parallel_not_audited :
    ¬AuditAlike
      { currentTaskId := "t1", currentTenantId := "acme", currentSvcSessionId := some "s1" }
      (fun _ _ => .ok { success := true, artifacts := ["index.html"] })
      (fun _ => "d1") (fun _ => "d1") (fun _ => 0) (fun _ => 0) []
      (fun _ => some { tenantId := "acme", workDir := "/srv/acme/s1", state := [], events := [],
                       createdAt := 0 })
      [{ agentType := "frontend-ux-pro", task := "build the page" }] := by
  intro halike
  obtain ⟨a, b, ha, hb, ea, eb, rename, hea, heb, -, hperm, -⟩ := halike "s1" _ rfl
  have hnone : a.events.length = 0 := by
    cases ha
    rfl
  have htwo : b.events.length = 2 := by
    cases hb
    rfl
  have hsame := hperm.length_eq
  rw [hea] at hnone
  rw [heb] at htwo
  simp only [List.length_map, List.length_append] at hsame hnone htwo
  omega

end ParallelDispatch
end AgentSwarm
