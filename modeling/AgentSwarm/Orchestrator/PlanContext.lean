import Mathlib.Data.List.Dedup
import AgentSwarm.Lib.Path
import AgentSwarm.Orchestrator.ParallelDispatch
import AgentSwarm.Orchestrator.Resume

/-!
# The plan, and the workers that are told of it

`plan_task` puts a plan together, keeps it as the shared context of the turn, and stores it in
the state of the session.  Every worker is told the shared context; a later turn of the
session takes the stored plan into its own.

* `PlanArgs`, `toolPlanTask` — the tool.
* `checkAgentStatus` — what the tool for a dispatch's outcome answers.
* `Talk`, `Act`, `step` — the sessions, the copies of the orchestrator and the turns on them, of
  which several may be at work at once, and on one copy.
* `PlanArgs.summary` — the part of a plan that later turns are told.
* `Talk.Apart`, `Act.Spares` — some of the turns share their copies with none.
* `Goes` — what such a turn does to its copy concerns no other turn.
* `Kept` — the invariant: the plan is stored, and every turn that is not older knows it.
* `plan_reaches_workers` — **every worker is told of the last plan**: in full in the turn that
  made it, and its summary in every turn that read the session after it.
* `outcome_recalled` — **what a worker has answered can be asked for again** in its turn.
-/

namespace AgentSwarm
namespace Planning

open Adapters (truthy)
open Dispatcher (DispatchRequest DispatchResult Exn)
open Json (get_deepMerge mergeEntry_obj mergeEntry_of_plain)
open ParallelDispatch (Caller Spec ToolRun applyCall applyCalls cut orText stateText
  toolDispatchAgent toolDispatchAgentsParallel)
open AgentSwarm.Path (PurePath)
open Resume (contains contains_iff planSummary resume)
open SessionService (Call Row)

/-! ## The tools -/

/-- A subtask, with `""` for a description that is left out. -/
structure Subtask where
  agentType : Option String := none
  description : String := ""

/-- The arguments of `plan_task`, with the defaults of those that are left out. -/
structure PlanArgs where
  analysis : String := ""
  techStack : String := ""
  apiContract : String := ""
  subtasks : List Subtask := []
  integrationNotes : String := ""

/-- A section of the plan, if there is anything in it. -/
def headed (heading text : String) : List String :=
  if text = "" then [] else [heading ++ "\n" ++ text ++ "\n"]

/-- The text that becomes the shared context. -/
def PlanArgs.sharedContext (args : PlanArgs) : String :=
  "\n".intercalate ("=== 项目计划（共享上下文） ===\n" ::
    (headed "## 需求分析" args.analysis ++ (headed "## 技术选型" args.techStack ++
      (headed "## API 契约（前后端必须共同遵循）" args.apiContract ++
        headed "## 集成要点" args.integrationNotes))))

/-- The subtask as it is stored. -/
def Subtask.entry (st : Subtask) : Json :=
  .obj [("agent_type", st.agentType.elim .null .str),
    ("description", .str (cut 200 st.description))]

/-- The plan as it is stored. -/
def PlanArgs.plan (args : PlanArgs) : JsonObj :=
  [("analysis", .str (cut 500 args.analysis)), ("api_contract", .str (cut 2000 args.apiContract)),
    ("tech_stack", .str (cut 500 args.techStack)),
    ("subtasks", .arr (args.subtasks.map Subtask.entry))]

/-- `plan_created`. -/
def PlanArgs.createdEvent (args : PlanArgs) : JsonObj :=
  [("type", .str "plan_created"), ("subtask_count", .num args.subtasks.length)]

/-- A line of the answer. -/
def Subtask.line (i : ℕ) (st : Subtask) : String :=
  "  " ++ toString (i + 1) ++ ". [" ++ st.agentType.getD "?" ++ "] " ++ cut 80 st.description

/-- `can_parallel`. -/
def PlanArgs.canParallel (args : PlanArgs) : Bool :=
  1 < (args.subtasks.map fun st => st.agentType.getD "").dedup.length

/-- The answer of the tool. -/
def PlanArgs.answer (args : PlanArgs) : String :=
  "计划已生成并保存为共享上下文。\n\n" ++
    "子任务列表（" ++ toString args.subtasks.length ++ " 个）：\n" ++
    "\n".intercalate (args.subtasks.mapIdx Subtask.line) ++ "\n\n" ++ "建议：" ++
    if args.canParallel then "多个不同类型的 Agent 可使用 dispatch_agents_parallel 并行执行"
    else "使用 dispatch_agent 串行执行"

/-- What may raise in `plan_task`. -/
inductive PlanPlace where
  | updating
  | appending
  | writing

/-- What a run of `plan_task` leaves. -/
structure PlanRun where
  answer : Except Exn String
  calls : List Call := []
  sharedContext : String
  written : Option (PurePath × String) := none

/-- What `plan_task` asks of the session service. -/
def PlanArgs.calls (args : PlanArgs) (sid : String) : List Call :=
  [.updateState sid [("plan", .obj args.plan)], .appendEvent sid args.createdEvent]

/-- `_tool_plan_task`.  `artifactsDir` is what `_get_artifacts_dir` gives if there is a task
manager, and `raises` what comes up where the tool waits or writes.  The shared context is
changed before any of it. -/
def toolPlanTask (o : Caller) (artifactsDir : Option PurePath) (raises : PlanPlace → Option Exn)
    (args : PlanArgs) : PlanRun :=
  let calls := (o.audited.map args.calls).getD []
  match o.audited.bind fun _ => raises .updating with
  | some e => { answer := .error e, sharedContext := args.sharedContext }
  | none =>
      match o.audited.bind fun _ => raises .appending with
      | some e =>
          { answer := .error e, calls := calls.take 1, sharedContext := args.sharedContext }
      | none =>
          match artifactsDir.bind fun _ => raises .writing with
          | some e => { answer := .error e, calls := calls, sharedContext := args.sharedContext }
          | none =>
              { answer := .ok args.answer
                calls := calls
                sharedContext := args.sharedContext
                written := artifactsDir.map fun dir =>
                  ((dir.join "_plan").join "project_plan.md", args.sharedContext) }

/-- The status of a dispatch that is known. -/
def statusText (dispatchId agentType : String) (result : DispatchResult) : String :=
  "Agent '" ++ agentType ++ "'（" ++ dispatchId ++ "）状态:\n" ++
    "  状态: " ++ stateText result ++ "\n" ++
    "  最新消息: " ++ cut 500 (orText result.output (orText (result.error.getD "") "无"))

/-- `_tool_check_agent_status`. -/
def checkAgentStatus (dispatched : Dict String (String × DispatchResult)) (dispatchId : String) :
    String :=
  match dispatched.get dispatchId with
  | none => "错误：未找到分派 " ++ dispatchId
  | some (agentType, result) => statusText dispatchId agentType result

/-! ## The turns of the sessions -/

/-- A copy of the orchestrator: the fields that turns set and change. -/
structure Copy where
  caller : Caller
  dispatched : Dict String (String × DispatchResult) := []

/-- Where a turn is: the session it is a turn of, and the copy that it runs on. -/
inductive Phase where
  | waiting
  /-- It waits for the state of its session. -/
  | reading (sid : String) (c : ℕ)
  | working (sid : String) (c : ℕ)
  | over

/-- The rows at the session service, the shared contexts of the sessions, the copies of the
orchestrator, and the turns. -/
structure Talk where
  db : String → Option Row
  saved : String → String
  copies : ℕ → Copy
  turns : ℕ → Phase

/-- What happens.  `clock` and `now` are the readings of the clock. -/
inductive Act where
  /-- `execute` begins on a copy.  The resolver gives the same copy to two turns when both fall
  back to it. -/
  | begins (k : ℕ) (sid : String) (c : ℕ) (taskId tenantId : String)
  /-- The state of the session is there; `readable` tells whether it can be read. -/
  | reads (k : ℕ) (readable : Bool)
  | plan (k : ℕ) (artifactsDir : Option PurePath) (raises : PlanPlace → Option Exn)
      (args : PlanArgs) (clock : ℕ → ℚ)
  | dispatch (k : ℕ) (spec : Spec) (dispatch : DispatchRequest → Except Exn DispatchResult)
      (newId : String) (clock : ℕ → ℚ)
  | parallel (k : ℕ) (specs : List Spec)
      (dispatcher : ℕ → DispatchRequest → Except Exn DispatchResult) (newId : ℕ → String)
  /-- A call of the session service by someone else. -/
  | call (now : ℚ) (call : Call)
  | returns (k : ℕ)
  | raises (k : ℕ)
  /-- The process starts again, with the shared contexts that are on the disk. -/
  | restart (saved : String → String)

def Copy.withContext (copy : Copy) (context : String) : Copy :=
  { copy with caller := { copy.caller with sharedContext := context } }

/-- The state of the session goes into the shared context. -/
def Copy.withState (copy : Copy) : Option JsonObj → Copy
  | some state => copy.withContext (resume state copy.caller.sharedContext)
  | none => copy

/-- What `execute` leaves of its copy. -/
def Copy.cleared (copy : Copy) : Copy where
  caller := { copy.caller with
    currentSessionWorkDir := none, currentSvcSessionId := none, emits := false }

/-- A tool has answered, or raised, which ends the turn. -/
def Phase.after (p : Phase) : Except Exn String → Phase
  | .ok _ => p
  | .error _ => .over

/-- A turn when the process starts again. -/
def Phase.stopped : Phase → Phase
  | .reading .. | .working .. => .over
  | p => p

/-- The copy that a turn is on. -/
def Phase.copy : Phase → Option ℕ
  | .reading _ c | .working _ c => some c
  | _ => none

/-- The turn moves, and leaves a copy so. -/
def Talk.goto (s : Talk) (k : ℕ) (p : Phase) (c : ℕ) (copy : Copy) : Talk :=
  { s with copies := Function.update s.copies c copy, turns := Function.update s.turns k p }

/-- The state of the session, if it is there. -/
def Talk.state (s : Talk) (sid : String) : Option JsonObj := (s.db sid).map Row.state

/-- A tool that dispatches has run. -/
def Talk.ran (s : Talk) (k : ℕ) (sid : String) (c : ℕ) (clock : ℕ → ℚ) (run : ToolRun) : Talk :=
  { s with db := applyCalls clock 0 s.db run.calls }.goto k
    (Phase.after (.working sid c) run.answer) c
    { s.copies c with dispatched := run.dispatched }

section Turns

variable (workDir : String → String)

/-- A copy as `execute` sets it for a turn. -/
def Copy.fresh (sid taskId tenantId context : String) : Copy where
  caller :=
    { currentTaskId := taskId
      currentTenantId := tenantId
      currentSessionWorkDir := some (workDir sid)
      currentSvcSessionId := some sid
      sharedContext := context }

/-- One step; what a turn does that is not there is none.  The orchestrators have a session
service.  A tool is one step: on a copy that no other turn is on, nothing comes between. -/
def step (s : Talk) : Act → Option Talk
  | .begins k sid c taskId tenantId =>
      match s.turns k with
      | .waiting =>
          some (s.goto k (.reading sid c) c (.fresh workDir sid taskId tenantId (s.saved sid)))
      | _ => none
  | .reads k readable =>
      match s.turns k with
      | .reading sid c =>
          some (s.goto k (.working sid c) c
            ((s.copies c).withState (if readable then s.state sid else none)))
      | _ => none
  | .plan k artifactsDir raises args clock =>
      match s.turns k with
      | .working sid c =>
          let run := toolPlanTask (s.copies c).caller artifactsDir raises args
          some ({ s with db := applyCalls clock 0 s.db run.calls }.goto k
            (Phase.after (.working sid c) run.answer) c
            ((s.copies c).withContext run.sharedContext))
      | _ => none
  | .dispatch k spec dispatch newId clock =>
      match s.turns k with
      | .working sid c =>
          some (s.ran k sid c clock (toolDispatchAgent (s.copies c).caller dispatch newId
            (s.copies c).dispatched spec))
      | _ => none
  | .parallel k specs dispatcher newId =>
      match s.turns k with
      | .working sid c =>
          some (s.ran k sid c (fun _ => 0) (toolDispatchAgentsParallel (s.copies c).caller
            dispatcher newId (s.copies c).dispatched specs))
      | _ => none
  | .call now call => some { s with db := applyCall now s.db call }
  | .returns k =>
      match s.turns k with
      | .working sid c =>
          some ({ s with
            saved := Function.update s.saved sid (s.copies c).caller.sharedContext }.goto k
              .over c (s.copies c).cleared)
      | _ => none
  | .raises k =>
      match s.turns k with
      | .reading _ c | .working _ c => some (s.goto k .over c (s.copies c))
      | _ => none
  | .restart saved => some { s with saved := saved, turns := fun k => (s.turns k).stopped }

end Turns

/-! ## What is to be shown -/

/-- The part of a plan that later turns are told: the contract, or without one the analysis. -/
def PlanArgs.summary (args : PlanArgs) : String :=
  if args.apiContract ≠ "" then cut 2000 args.apiContract else cut 500 args.analysis

/-- The call stores a plan for the session. -/
def Stores (sid : String) : Call → Prop
  | .updateState sid' delta => sid' = sid ∧ delta.get "plan" ≠ none
  | _ => False

/-- The session gets a plan: of a turn of its own, or of one whose copy writes to it. -/
def Act.Plans (sid : String) (s : Talk) : Act → Prop
  | .plan k .. => ∃ sid' c, s.turns k = .working sid' c ∧
      (sid' = sid ∨ (s.copies c).caller.audited = some sid)
  | .call _ c => Stores sid c
  | _ => False

/-- A turn of the session begins without its state. -/
def Act.Unread (sid : String) (s : Talk) : Act → Prop
  | .reads k readable => readable = false ∧ ∃ c, s.turns k = .reading sid c
  | _ => False

/-- The turn dispatches a worker, by itself or with others. -/
def Act.Dispatches (k : ℕ) (spec : Spec) : Act → Prop
  | .dispatch j spec' .. => j = k ∧ spec' = spec
  | .parallel j specs .. => j = k ∧ spec ∈ specs
  | _ => False

/-- The turn has read the state of its session, or is over. -/
def Phase.Begun : Phase → Prop
  | .waiting | .reading .. => False
  | _ => True

/-- The turns of `alone` share their copies with none. -/
def Talk.Apart (alone : ℕ → Prop) (s : Talk) : Prop :=
  ∀ i j c, alone i → (s.turns i).copy = some c → (s.turns j).copy = some c → i = j

/-- No turn begins on a copy that another turn is on, if one of the two is of `alone`. -/
def Act.Spares (alone : ℕ → Prop) (s : Talk) : Act → Prop
  | .begins k _ c .. => ∀ j, alone k ∨ alone j → (s.turns j).copy ≠ some c
  | _ => True

/-- **The invariant.**  The plan of turn `k` is stored, turn `k` has it in full, and every turn
of the session that is not in `older` has its summary: of the turns that share their copies
with none. -/
structure Kept (sid : String) (args : PlanArgs) (k : ℕ) (older alone : ℕ → Prop) (s : Talk) :
    Prop where
  apart : s.Apart alone
  stored : ∃ state, s.state sid = some state ∧ planSummary state = .str args.summary
  begun : (s.turns k).Begun
  own : ∀ c, s.turns k = .working sid c →
    (s.copies c).caller.sharedContext = args.sharedContext
  told : ∀ j c, alone j → ¬ older j → s.turns j = .working sid c →
    contains (s.copies c).caller.sharedContext args.summary = true

variable {sid : String} {workDir : String → String} {s t : Talk} {act : Act} {args : PlanArgs}
  {k : ℕ} {older alone : ℕ → Prop} {state : JsonObj} {context : String} {c : ℕ} {copy : Copy}

/-! ## Texts -/

theorem contains_append_left (text part more : String) (h : contains text part = true) :
    contains (more ++ text) part = true := by
  rw [contains_iff] at h ⊢
  rw [String.toList_append]
  exact h.trans (List.suffix_append _ _).isInfix

theorem contains_self (text : String) : contains text text = true := by
  rw [contains_iff]

theorem contains_cut (n : ℕ) (text : String) : contains text (cut n text) = true := by
  rw [contains_iff, cut, String.toList_ofList]
  exact (List.take_prefix _ _).isInfix

theorem contains_trans {a b c : String} (h : contains a b = true) (h' : contains b c = true) :
    contains a c = true := by
  rw [contains_iff] at h h' ⊢
  exact h'.trans h

theorem contains_intercalate {text : String} {texts : List String} (h : text ∈ texts)
    (separator : String) : contains (separator.intercalate texts) text = true := by
  induction texts with
  | nil => cases h
  | cons first texts ih =>
      cases texts with
      | nil =>
          obtain rfl := List.mem_singleton.1 h
          rw [String.intercalate_singleton]
          exact contains_self text
      | cons second texts =>
          rw [String.intercalate_cons_cons]
          rcases List.mem_cons.1 h with rfl | hrest
          · exact Resume.contains_append_right _ _ _
              (Resume.contains_append_right _ _ _ (contains_self text))
          · exact contains_append_left _ _ _ (ih hrest)

/-- What has a heading is in the whole. -/
theorem contains_headed (heading : String) {text : String} {texts : List String}
    (h : headed heading text ⊆ texts) (separator : String) :
    contains (separator.intercalate texts) text = true := by
  by_cases hempty : text = ""
  · rw [hempty, contains_iff]
    exact List.nil_infix
  · rw [headed, if_neg hempty] at h
    refine contains_trans (contains_intercalate (h List.mem_cons_self) separator) ?_
    exact Resume.contains_append_right _ _ _ (contains_append_left _ _ _ (contains_self text))

/-- The plan has its summary in it. -/
theorem contains_summary (args : PlanArgs) : contains args.sharedContext args.summary = true := by
  unfold PlanArgs.summary PlanArgs.sharedContext
  split
  · refine contains_trans (contains_headed "## API 契约（前后端必须共同遵循）" ?_ _)
      (contains_cut 2000 _)
    exact fun text htext => List.mem_cons_of_mem _ (List.mem_append_right _
      (List.mem_append_right _ (List.mem_append_left _ htext)))
  · refine contains_trans (contains_headed "## 需求分析" ?_ _) (contains_cut 500 _)
    exact fun text htext => List.mem_cons_of_mem _ (List.mem_append_left _ htext)

/-- **Resuming.**  The stored plan is in the context that a turn begins with. -/
theorem contains_resume {summary : String} (h : planSummary state = .str summary)
    (hne : summary ≠ "") (context : String) : contains (resume state context) summary = true := by
  have hplan : ∃ context', Resume.withPlan context (planSummary state) = .ok context' ∧
      contains context' summary = true := by
    rw [h, Resume.withPlan]
    split
    · refine ⟨_, rfl, ?_⟩
      refine Resume.contains_append_right _ _ _ (Resume.contains_append_right _ _ _ ?_)
      exact contains_append_left _ _ _ (contains_self summary)
    · rename_i hnot
      refine ⟨context, rfl, ?_⟩
      by_contra hout
      exact hnot ⟨hne, by simpa using hout⟩
  obtain ⟨context', heq, hin⟩ := hplan
  obtain ⟨more, hmore⟩ := Resume.withResult_eq_append context'
    ((state.get "last_result").getD .null)
  rw [resume, heq]
  simp only [hmore]
  exact Resume.contains_append_right _ _ _ hin

/-! ## The stored plan -/

theorem get_deepMerge_of_none {delta : JsonObj} {key : String} (h : delta.get key = none)
    (target : JsonObj) : (deepMerge target delta).get key = target.get key := by
  induction delta generalizing target with
  | nil => rw [deepMerge_nil]
  | cons entry delta ih =>
      obtain ⟨name, value⟩ := entry
      rw [Dict.get_cons] at h
      split at h
      · cases h
      · rename_i hne
        rw [deepMerge, ih h, Dict.get_set_of_ne _ _ (by simpa using hne)]

theorem planSummary_congr {state' : JsonObj} (h : state.get "plan" = state'.get "plan") :
    planSummary state = planSummary state' := by
  rw [planSummary, planSummary, h]

/-- A call that stores no plan. -/
theorem stored_applyCall {db : String → Option Row} {value : Json} {c : Call}
    (h : ∃ state, (db sid).map Row.state = some state ∧ planSummary state = value)
    (hok : ¬ Stores sid c) (now : ℚ) :
    ∃ state, (applyCall now db c sid).map Row.state = some state ∧ planSummary state = value := by
  obtain ⟨state, hstate, hvalue⟩ := h
  obtain ⟨row, hrow, rfl⟩ := Option.map_eq_some_iff.1 hstate
  unfold applyCall
  by_cases hsid : sid = c.sessionId
  · subst hsid
    rw [hrow]
    dsimp only
    rw [Function.update_self]
    refine ⟨_, rfl, ?_⟩
    cases c with
    | updateState sid delta =>
        have hnone : delta.get "plan" = none := by
          by_contra hsome
          exact hok ⟨rfl, hsome⟩
        exact (planSummary_congr (get_deepMerge_of_none hnone _)).trans hvalue
    | _ => exact hvalue
  · refine ⟨row.state, ?_, hvalue⟩
    cases db c.sessionId with
    | none => exact hstate
    | some other =>
        dsimp only
        rw [Function.update_of_ne hsid]
        exact hstate

theorem stored_applyCalls {db : String → Option Row} {value : Json} {calls : List Call}
    (h : ∃ state, (db sid).map Row.state = some state ∧ planSummary state = value)
    (hok : ∀ c ∈ calls, ¬ Stores sid c) (clock : ℕ → ℚ) (n : ℕ) :
    ∃ state, (applyCalls clock n db calls sid).map Row.state = some state ∧
      planSummary state = value := by
  induction calls generalizing db n with
  | nil => exact h
  | cons c calls ih =>
      exact ih (stored_applyCall h (hok c List.mem_cons_self) (clock n))
        (fun c hc => hok c (List.mem_cons_of_mem _ hc)) (n + 1)

/-! ## One step -/

/-- Everything a step can do. -/
inductive Moved (workDir : String → String) (s : Talk) : Act → Talk → Prop
  | begins {k : ℕ} {sid : String} {c : ℕ} {taskId tenantId : String}
      (hwaiting : s.turns k = .waiting) :
      Moved workDir s (.begins k sid c taskId tenantId)
        (s.goto k (.reading sid c) c (.fresh workDir sid taskId tenantId (s.saved sid)))
  | reads {k : ℕ} {readable : Bool} {sid : String} {c : ℕ} (hr : s.turns k = .reading sid c) :
      Moved workDir s (.reads k readable)
        (s.goto k (.working sid c) c
          ((s.copies c).withState (if readable then s.state sid else none)))
  | plan {k : ℕ} {artifactsDir : Option PurePath} {raises : PlanPlace → Option Exn}
      {args : PlanArgs} {clock : ℕ → ℚ} {sid : String} {c : ℕ} {run : PlanRun}
      (hw : s.turns k = .working sid c)
      (hrun : run = toolPlanTask (s.copies c).caller artifactsDir raises args) :
      Moved workDir s (.plan k artifactsDir raises args clock)
        ({ s with db := applyCalls clock 0 s.db run.calls }.goto k
          (Phase.after (.working sid c) run.answer) c
          ((s.copies c).withContext run.sharedContext))
  | dispatch {k : ℕ} {spec : Spec} {dispatch : DispatchRequest → Except Exn DispatchResult}
      {newId : String} {clock : ℕ → ℚ} {sid : String} {c : ℕ} (hw : s.turns k = .working sid c) :
      Moved workDir s (.dispatch k spec dispatch newId clock)
        (s.ran k sid c clock (toolDispatchAgent (s.copies c).caller dispatch newId
          (s.copies c).dispatched spec))
  | parallel {k : ℕ} {specs : List Spec}
      {dispatcher : ℕ → DispatchRequest → Except Exn DispatchResult} {newId : ℕ → String}
      {sid : String} {c : ℕ} (hw : s.turns k = .working sid c) :
      Moved workDir s (.parallel k specs dispatcher newId)
        (s.ran k sid c (fun _ => 0) (toolDispatchAgentsParallel (s.copies c).caller dispatcher
          newId (s.copies c).dispatched specs))
  | call {now : ℚ} {call : Call} :
      Moved workDir s (.call now call) { s with db := applyCall now s.db call }
  | ends {k c : ℕ} {act : Act} {saved : String → String} {copy : Copy}
      (hact : act = .returns k ∨ act = .raises k) (hon : (s.turns k).copy = some c) :
      Moved workDir s act ({ s with saved := saved }.goto k .over c copy)
  | restart {saved : String → String} :
      Moved workDir s (.restart saved)
        { s with saved := saved, turns := fun k => (s.turns k).stopped }

theorem step_moved (h : step workDir s act = some t) : Moved workDir s act t := by
  cases act with
  | call now call =>
      cases h
      exact .call
  | returns k =>
      simp only [step] at h
      split at h
      · rename_i sid c hw
        cases h
        exact .ends (.inl rfl) (by rw [hw]; rfl)
      · cases h
  | raises k =>
      simp only [step] at h
      split at h
      · rename_i sid c hr
        cases h
        exact .ends (.inr rfl) (by rw [hr]; rfl)
      · rename_i sid c hw
        cases h
        exact .ends (.inr rfl) (by rw [hw]; rfl)
      · cases h
  | restart saved =>
      cases h
      exact .restart
  | _ =>
      simp only [step] at h
      split at h
      · cases h
        constructor <;> first | assumption | rfl
      · cases h

/-- Turn `j` moves, and what it leaves of its copy concerns no other turn. -/
structure Goes (alone : ℕ → Prop) (s t : Talk) (j : ℕ) (p : Phase) (c : ℕ) (copy : Copy) :
    Prop where
  turns : t.turns = Function.update s.turns j p
  copies : t.copies = Function.update s.copies c copy
  on : ∀ c', p.copy = some c' → c' = c
  free : ∀ i, alone j ∨ alone i → i ≠ j → (s.turns i).copy ≠ some c

variable {i j : ℕ} {p : Phase}

/-- The other turns are on other copies. -/
theorem Talk.Apart.ne (h : s.Apart alone) (hj : (s.turns j).copy = some c) (i : ℕ)
    (halone : alone j ∨ alone i) (hne : i ≠ j) : (s.turns i).copy ≠ some c := by
  intro hi
  rcases halone with halone | halone
  · exact hne (h j i c halone hj hi).symm
  · exact hne (h i j c halone hi hj)

/-- No two turns of which one is in `alone` are on one copy after the move. -/
theorem Goes.apart (h : Goes alone s t j p c copy) (hs : s.Apart alone) : t.Apart alone := by
  intro i i' c' hi hic hic'
  rw [h.turns] at hic hic'
  by_cases hij : i = j
  · subst hij
    rw [Function.update_self] at hic
    obtain rfl := h.on c' hic
    by_contra hne
    rw [Function.update_of_ne (Ne.symm hne)] at hic'
    exact h.free i' (.inl hi) (Ne.symm hne) hic'
  · rw [Function.update_of_ne hij] at hic
    by_cases hij' : i' = j
    · subst hij'
      rw [Function.update_self] at hic'
      obtain rfl := h.on c' hic'
      exact absurd hic (h.free i (.inr hi) hij)
    · rw [Function.update_of_ne hij'] at hic'
      exact hs i i' c' hi hic hic'

/-- A turn that is at work after the move is the one that moved, or has its copy as it was. -/
theorem Goes.working (h : Goes alone s t j p c copy) (hi : alone i) {c' : ℕ}
    (hw : t.turns i = .working sid c') :
    (i = j ∧ p = .working sid c' ∧ t.copies c' = copy) ∨
      (i ≠ j ∧ s.turns i = .working sid c' ∧ t.copies c' = s.copies c') := by
  rw [h.turns] at hw
  by_cases hij : i = j
  · subst hij
    rw [Function.update_self] at hw
    obtain rfl := h.on c' (by rw [hw]; rfl)
    exact .inl ⟨rfl, hw, by rw [h.copies, Function.update_self]⟩
  · rw [Function.update_of_ne hij] at hw
    have hne : c' ≠ c := by
      rintro rfl
      exact h.free i (.inr hi) hij (by rw [hw]; rfl)
    exact .inr ⟨hij, hw, by rw [h.copies, Function.update_of_ne hne]⟩

theorem Goes.begun (h : Goes alone s t j p c copy) (hs : (s.turns k).Begun)
    (hp : j = k → p.Begun) : (t.turns k).Begun := by
  rw [h.turns]
  by_cases hk : k = j
  · rw [hk, Function.update_self]
    exact hp hk.symm
  · rw [Function.update_of_ne hk]
    exact hs

theorem on_after {answer : Except Exn String} {c' : ℕ}
    (h : (Phase.after (.working sid c) answer).copy = some c') : c' = c := by
  cases answer with
  | error e => cases h
  | ok text =>
      cases h
      rfl

theorem begun_after (sid : String) (c : ℕ) (answer : Except Exn String) :
    (Phase.after (.working sid c) answer).Begun := by
  cases answer <;> trivial

/-- A turn that is at work after a tool has been answered. -/
theorem after_eq_working {sid' : String} {c' : ℕ} {answer : Except Exn String}
    (h : Phase.after (.working sid c) answer = .working sid' c') :
    (sid' = sid ∧ c' = c) ∧ ∃ text, answer = .ok text := by
  cases answer with
  | error e => cases h
  | ok text =>
      cases h
      exact ⟨⟨rfl, rfl⟩, text, rfl⟩

/-- A turn moves to the copy that it is on already, or on which there is no other. -/
theorem goes_goto {u : Talk} (hcopies : u.copies = s.copies) (hturns : u.turns = s.turns)
    (hon : ∀ c', p.copy = some c' → c' = c)
    (hfree : ∀ i, alone j ∨ alone i → i ≠ j → (s.turns i).copy ≠ some c) :
    Goes alone s (u.goto j p c copy) j p c copy := by
  refine ⟨?_, ?_, hon, hfree⟩
  · rw [Talk.goto, hturns]
  · rw [Talk.goto, hcopies]

/-- A tool that dispatches moves its turn. -/
theorem goes_ran (hs : s.Apart alone) (hw : s.turns j = .working sid c) (clock : ℕ → ℚ)
    (run : ToolRun) :
    Goes alone s (s.ran j sid c clock run) j (Phase.after (.working sid c) run.answer) c
      { s.copies c with dispatched := run.dispatched } :=
  goes_goto rfl rfl (fun _ => on_after) (hs.ne (by rw [hw]; rfl))

@[simp] theorem Phase.copy_stopped (p : Phase) : p.stopped.copy = none := by
  cases p <;> rfl

theorem Phase.Begun.stopped (h : p.Begun) : p.stopped.Begun := by
  cases p <;> trivial

/-- After a restart no turn is at work. -/
theorem Phase.stopped_ne_working (p : Phase) (sid : String) (c : ℕ) :
    p.stopped ≠ .working sid c := by
  cases p <;> simp [Phase.stopped]

theorem apart_stopped (h : t.turns = fun k => (s.turns k).stopped) : t.Apart alone := by
  intro i j c _ hi
  rw [h, Phase.copy_stopped] at hi
  cases hi

/-- A turn moves, and the plan stays stored. -/
theorem Kept.moved (h : Kept sid args k older alone s) (hk : alone k)
    (hgoes : Goes alone s t j p c copy)
    (hstored : ∃ state, t.state sid = some state ∧ planSummary state = .str args.summary)
    (hbegun : j = k → p.Begun)
    (hown : j = k → ∀ c', p = .working sid c' → copy.caller.sharedContext = args.sharedContext)
    (htold : alone j → ¬ older j → ∀ c', p = .working sid c' →
      contains copy.caller.sharedContext args.summary = true) :
    Kept sid args k older alone t := by
  refine ⟨hgoes.apart h.apart, hstored, hgoes.begun h.begun hbegun, fun c' hw => ?_,
    fun i c' hi hold hw => ?_⟩
  · rcases hgoes.working hk hw with ⟨rfl, hp, hcopy⟩ | ⟨-, hs, hcopy⟩ <;> rw [hcopy]
    · exact hown rfl c' hp
    · exact h.own c' hs
  · rcases hgoes.working hi hw with ⟨rfl, hp, hcopy⟩ | ⟨-, hs, hcopy⟩ <;> rw [hcopy]
    · exact htold hi hold c' hp
    · exact h.told i c' hi hold hs

/-- A tool that dispatches leaves the context of its copy alone. -/
theorem Kept.ran (h : Kept sid args k older alone s) (hk : alone k) {sid' : String}
    (hw : s.turns j = .working sid' c) {run : ToolRun} (hcalls : ∀ c ∈ run.calls, ¬ Stores sid c)
    (clock : ℕ → ℚ) : Kept sid args k older alone (s.ran j sid' c clock run) := by
  have hstored := stored_applyCalls h.stored hcalls clock 0
  refine h.moved hk (goes_ran h.apart hw clock run) hstored (fun _ => begun_after _ _ _)
    (fun hj c' hp => ?_) (fun hj hold c' hp => ?_)
  · obtain ⟨⟨rfl, rfl⟩, -⟩ := after_eq_working hp
    exact h.own c' (hj ▸ hw)
  · obtain ⟨⟨rfl, rfl⟩, -⟩ := after_eq_working hp
    exact h.told j c' hj hold hw

theorem not_stores_dispatch {o : Caller} {dispatch : DispatchRequest → Except Exn DispatchResult}
    {newId : String} {dispatched : Dict String (String × DispatchResult)} {spec : Spec} :
    ∀ c ∈ (toolDispatchAgent o dispatch newId dispatched spec).calls, ¬ Stores sid c := by
  intro c hc
  unfold toolDispatchAgent at hc
  split at hc
  · cases hc
  · rename_i result _
    simp only [Caller.auditCalls] at hc
    split at hc
    · cases hc
    · simp only [List.mem_append, List.mem_cons, List.not_mem_nil, or_false] at hc
      rcases hc with (rfl | rfl) | hc
      · exact id
      · exact id
      · split at hc
        · obtain rfl := List.mem_singleton.1 hc
          rintro ⟨-, hsome⟩
          exact hsome rfl
        · cases hc

/-- What `plan_task` asks for stores nothing for another session. -/
theorem not_stores_plan {o : Caller} {artifactsDir : Option PurePath}
    {raises : PlanPlace → Option Exn} {args : PlanArgs} (hother : o.audited ≠ some sid) :
    ∀ c ∈ (toolPlanTask o artifactsDir raises args).calls, ¬ Stores sid c := by
  intro c hc
  have hall : c ∈ (o.audited.map args.calls).getD [] := by
    unfold toolPlanTask at hc
    dsimp only at hc
    split at hc
    · cases hc
    · split at hc
      · exact List.mem_of_mem_take hc
      · split at hc <;> exact hc
  cases haudited : o.audited with
  | none =>
      rw [haudited] at hall
      cases hall
  | some sid' =>
      rw [haudited] at hall hother
      rcases List.mem_cons.1 hall with rfl | hevent
      · rintro ⟨rfl, -⟩
        exact hother rfl
      · obtain rfl := List.mem_singleton.1 hevent
        exact id

/-- **One step** without another plan. -/
theorem kept_step (h : Kept sid args k older alone s) (hk : alone k) (hne : args.summary ≠ "")
    (hplans : ¬ act.Plans sid s) (hread : ¬ act.Unread sid s) (hspares : act.Spares alone s)
    (hstep : step workDir s act = some t) : Kept sid args k older alone t := by
  cases step_moved hstep with
  | @begins j _ c _ _ hwaiting =>
      refine h.moved hk (goes_goto rfl rfl (fun _ hc => (Option.some.inj hc).symm)
        fun i halone _ => hspares i halone) h.stored (fun hj => ?_) (fun _ _ hp => by cases hp)
        (fun _ _ _ hp => by cases hp)
      have hbegun := h.begun
      rw [← hj, hwaiting] at hbegun
      exact hbegun.elim
  | @reads j readable sid' c hr =>
      refine h.moved hk (goes_goto rfl rfl (fun _ hc => (Option.some.inj hc).symm)
        (h.apart.ne (by rw [hr]; rfl))) h.stored (fun _ => trivial) (fun hj => ?_)
        (fun _ _ _ hp => ?_)
      · have hbegun := h.begun
        rw [← hj, hr] at hbegun
        exact hbegun.elim
      · cases hp
        obtain ⟨state, hstate, hsummary⟩ := h.stored
        have hreadable : readable = true := by
          by_contra hnot
          exact hread ⟨by simpa using hnot, c, hr⟩
        rw [if_pos hreadable, hstate]
        exact contains_resume hsummary hne _
  | @plan j _ _ _ clock sid' c run hw hrun =>
      have hother : sid' ≠ sid ∧ (s.copies c).caller.audited ≠ some sid := by
        constructor <;> intro heq
        · exact hplans ⟨sid', c, hw, .inl heq⟩
        · exact hplans ⟨sid', c, hw, .inr heq⟩
      have hstored := stored_applyCalls h.stored (hrun ▸ not_stores_plan hother.2) clock 0
      refine h.moved hk (goes_goto rfl rfl (fun _ => on_after) (h.apart.ne (by rw [hw]; rfl)))
        hstored (fun _ => begun_after _ _ _) (fun _ _ hp => ?_) (fun _ _ _ hp => ?_)
      · exact absurd (after_eq_working hp).1.1.symm hother.1
      · exact absurd (after_eq_working hp).1.1.symm hother.1
  | dispatch hw => exact h.ran hk hw not_stores_dispatch _
  | parallel hw =>
      refine h.ran hk hw (fun c hc => ?_) _
      rw [ParallelDispatch.parallel_calls] at hc
      cases hc
  | call => exact ⟨h.apart, stored_applyCall h.stored hplans _, h.begun, h.own, h.told⟩
  | @ends j c _ _ _ _ hon =>
      exact h.moved hk (goes_goto rfl rfl (fun _ hc => by cases hc) (h.apart.ne hon)) h.stored
        (fun _ => trivial) (fun _ _ hp => by cases hp) (fun _ _ _ hp => by cases hp)
  | restart =>
      exact ⟨apart_stopped rfl, h.stored, h.begun.stopped,
        fun c hw => absurd hw (Phase.stopped_ne_working _ _ _),
        fun j c _ _ hw => absurd hw (Phase.stopped_ne_working _ _ _)⟩

/-! ## The plan -/

theorem ne_empty_of_contains {text part : String} (h : contains text part = true)
    (hne : part ≠ "") : text ≠ "" := by
  rintro rfl
  rw [contains_iff] at h
  exact hne (String.toList_inj.1 (List.eq_nil_of_infix_nil h))

/-- The task of a worker begins with the shared context of the turn. -/
theorem task_eq {o : Caller} (hctx : o.sharedContext ≠ "") (spec : Spec) (streaming : Bool) :
    (o.request spec streaming).task =
      o.sharedContext ++ "\n\n---\n\n## 你的具体任务\n" ++ spec.task := if_neg hctx

/-- The worker that a step dispatches is told of the plan: in full in the turn of the plan, and
its summary in a turn of the session that is not older. -/
def Tells (sid : String) (args : PlanArgs) (k : ℕ) (older alone : ℕ → Prop) (s : Talk)
    (act : Act) : Prop :=
  ∀ j spec streaming c, act.Dispatches j spec → alone j → s.turns j = .working sid c →
    (j = k → ((s.copies c).caller.request spec streaming).task =
      args.sharedContext ++ "\n\n---\n\n## 你的具体任务\n" ++ spec.task) ∧
    (¬ older j →
      contains ((s.copies c).caller.request spec streaming).task args.summary = true)

theorem Kept.tells (h : Kept sid args k older alone s) (hne : args.summary ≠ "") (act : Act) :
    Tells sid args k older alone s act := by
  intro j spec streaming c _ hj hw
  constructor
  · rintro rfl
    have hown := h.own c hw
    have hctx : (s.copies c).caller.sharedContext ≠ "" := by
      rw [hown]
      exact ne_empty_of_contains (contains_summary args) hne
    rw [task_eq hctx, hown]
  · intro hold
    have htold := h.told j c hj hold hw
    rw [task_eq (ne_empty_of_contains htold hne), String.append_assoc]
    exact Resume.contains_append_right _ _ _ htold

/-- A turn at work in a session. -/
def planning : Talk where
  db := fun id => if id = "s1" then some ⟨"default", "/w", [], [], 0⟩ else none
  saved := fun _ => ""
  copies := fun _ => .fresh (fun _ => "/w") "s1" "t1" "default" ""
  turns := fun k => if k = 0 then .working "s1" 0 else .waiting

theorem planning_apart : planning.Apart fun _ => True := by
  have honly : ∀ i c, (planning.turns i).copy = some c → i = 0 := by
    intro i c h
    by_contra hi
    simp [planning, hi, Phase.copy] at h
  exact fun i j c _ hi hj => (honly i c hi).trans (honly j c hj).symm

/-- The step keeps the outcome of a dispatch of the turn under an id that it gives once. -/
def Act.Records (s : Talk) (k : ℕ) (id agentType : String) (result : DispatchResult) : Act → Prop
  | .dispatch j spec dispatcher newId _ => j = k ∧ newId = id ∧ spec.agentType = agentType ∧
      ∃ sid c, s.turns k = .working sid c ∧
        dispatcher ((s.copies c).caller.request spec (s.copies c).caller.emits) = .ok result
  | .parallel j specs dispatcher newId => j = k ∧ ∃ n spec, specs[n]? = some spec ∧
      newId n = id ∧ (∀ m < specs.length, newId m = id → m = n) ∧ spec.agentType = agentType ∧
        ∃ sid c, s.turns k = .working sid c ∧
          dispatcher n ((s.copies c).caller.request spec false) = .ok result
  | _ => False

/-- The step gives the id to a dispatch of the turn. -/
def Act.Gives (k : ℕ) (id : String) : Act → Prop
  | .dispatch j _ _ newId _ => j = k ∧ newId = id
  | .parallel j specs _ newId => j = k ∧ ∃ n < specs.length, newId n = id
  | _ => False

/-- The outcome is kept, as long as the turn is at work, on a copy that no other turn is on. -/
structure Recorded (k : ℕ) (id agentType : String) (result : DispatchResult) (s : Talk) : Prop where
  apart : s.Apart (· = k)
  begun : (s.turns k).Begun
  get : ∀ sid c, s.turns k = .working sid c →
    (s.copies c).dispatched.get id = some (agentType, result)

variable {id agentType : String} {result : DispatchResult}

/-- The ids of a report that are not the one. -/
theorem get_report_of_ne {newId : ℕ → String} (n : ℕ) (outcomes : List (Spec × DispatchResult))
    (dispatched : Dict String (String × DispatchResult))
    (h : ∀ m < outcomes.length, newId (n + m) ≠ id) :
    (ParallelDispatch.report newId n outcomes dispatched).2.get id = dispatched.get id := by
  induction outcomes generalizing n dispatched with
  | nil => rfl
  | cons outcome outcomes ih =>
      obtain ⟨spec, result⟩ := outcome
      rw [ParallelDispatch.report]
      dsimp only
      rw [ih (n + 1)]
      · exact Dict.get_set_of_ne _ _ (Ne.symm (h 0 (Nat.zero_lt_succ _)))
      · intro m hm
        rw [Nat.add_assoc, Nat.add_comm 1 m]
        exact h (m + 1) (Nat.succ_lt_succ hm)

/-- The outcome of a report under an id that it gives once. -/
theorem get_report {newId : ℕ → String} (n : ℕ) {outcomes : List (Spec × DispatchResult)}
    (dispatched : Dict String (String × DispatchResult)) {i : ℕ} {spec : Spec}
    (hi : outcomes[i]? = some (spec, result))
    (honce : ∀ m < outcomes.length, newId (n + m) = newId (n + i) → m = i) :
    (ParallelDispatch.report newId n outcomes dispatched).2.get (newId (n + i)) =
      some (spec.agentType, result) := by
  induction outcomes generalizing n dispatched i with
  | nil => cases hi
  | cons outcome outcomes ih =>
      obtain ⟨spec', result'⟩ := outcome
      rw [ParallelDispatch.report]
      dsimp only
      cases i with
      | zero =>
          cases hi
          rw [get_report_of_ne]
          · exact Dict.get_set_self _ _ _
          · intro m hm heq
            rw [Nat.add_assoc, Nat.add_comm 1 m] at heq
            cases honce (m + 1) (Nat.succ_lt_succ hm) heq
      | succ i =>
          have hrest := ih (n + 1) (dispatched.set (newId n) (spec'.agentType, result')) hi
            fun m hm heq => ?_
          · rwa [Nat.add_assoc, Nat.add_comm 1 i] at hrest
          · rw [Nat.add_assoc, Nat.add_comm 1 m, Nat.add_assoc, Nat.add_comm 1 i] at heq
            exact Nat.succ_inj.1 (honce (m + 1) (Nat.succ_lt_succ hm) heq)

/-- The results that are gathered are those of the dispatches, in order. -/
theorem gather_ok {results : List (Except Exn DispatchResult)} {oks : List DispatchResult}
    (h : ParallelDispatch.gather results = .ok oks) : results = oks.map Except.ok := by
  induction results generalizing oks with
  | nil =>
      cases h
      rfl
  | cons first results ih =>
      cases first with
      | error e => cases h
      | ok result =>
          rw [ParallelDispatch.gather] at h
          cases hrest : ParallelDispatch.gather results with
          | error e =>
              rw [hrest] at h
              cases h
          | ok rest =>
              rw [hrest] at h
              cases h
              rw [ih hrest, List.map_cons]

/-- What the tool for several agents keeps when it answers. -/
theorem parallel_answer {o : Caller} {dispatcher : ℕ → DispatchRequest → Except Exn DispatchResult}
    {newId : ℕ → String} {dispatched : Dict String (String × DispatchResult)} {specs : List Spec}
    {text : String}
    (h : (toolDispatchAgentsParallel o dispatcher newId dispatched specs).answer = .ok text) :
    ∃ oks : List DispatchResult,
      specs.mapIdx (fun n spec => dispatcher n (o.request spec false)) = oks.map Except.ok ∧
      (toolDispatchAgentsParallel o dispatcher newId dispatched specs).dispatched =
        (ParallelDispatch.report newId 0 (specs.zip oks) dispatched).2 := by
  unfold toolDispatchAgentsParallel at h ⊢
  by_cases hspecs : specs = []
  · subst hspecs
    exact ⟨[], rfl, rfl⟩
  · rw [if_neg hspecs] at h ⊢
    cases hgather : ParallelDispatch.gather
        (specs.mapIdx fun n spec => dispatcher n (o.request spec false)) with
    | error e =>
        rw [hgather] at h
        cases h
    | ok oks => exact ⟨oks, gather_ok hgather, rfl⟩

/-- The outcomes that the tool for several agents keeps. -/
theorem get_parallel {o : Caller} {dispatcher : ℕ → DispatchRequest → Except Exn DispatchResult}
    {newId : ℕ → String} {dispatched : Dict String (String × DispatchResult)} {specs : List Spec}
    {text : String} {n : ℕ} {spec : Spec}
    (h : (toolDispatchAgentsParallel o dispatcher newId dispatched specs).answer = .ok text)
    (hn : specs[n]? = some spec) (honce : ∀ m < specs.length, newId m = newId n → m = n)
    (hresult : dispatcher n (o.request spec false) = .ok result) :
    (toolDispatchAgentsParallel o dispatcher newId dispatched specs).dispatched.get (newId n) =
      some (spec.agentType, result) := by
  obtain ⟨oks, hoks, hkept⟩ := parallel_answer h
  have hlength : specs.length = oks.length := by
    have hlengths := congrArg List.length hoks
    simpa using hlengths
  have hok : oks[n]? = some result := by
    have hat := congrArg (fun results => results[n]?) hoks
    simp only [List.getElem?_mapIdx, hn, List.getElem?_map, Option.map_some, hresult] at hat
    obtain ⟨r, hr, hsame⟩ := Option.map_eq_some_iff.1 hat.symm
    cases hsame
    exact hr
  have hzip : (specs.zip oks)[n]? = some (spec, result) :=
    List.getElem?_zip_eq_some.2 ⟨hn, hok⟩
  have hall : ∀ m < (specs.zip oks).length, newId (0 + m) = newId (0 + n) → m = n := by
    intro m hm heq
    rw [Nat.zero_add, Nat.zero_add] at heq
    rw [List.length_zip, ← hlength, Nat.min_self] at hm
    exact honce m hm heq
  have hget := get_report 0 dispatched hzip hall
  rw [Nat.zero_add] at hget
  rw [hkept]
  exact hget

/-- What a tool that answered has kept. -/
theorem recorded_ran (hapart : s.Apart (· = k)) (hw : s.turns k = .working sid c) {run : ToolRun}
    {clock : ℕ → ℚ}
    (h : ∀ text, run.answer = .ok text → run.dispatched.get id = some (agentType, result)) :
    Recorded k id agentType result (s.ran k sid c clock run) := by
  have hgoes := goes_ran hapart hw clock run
  refine ⟨hgoes.apart hapart, ?_, fun sid' c' hc' => ?_⟩
  · rw [hgoes.turns, Function.update_self]
    exact begun_after _ _ _
  · rw [hgoes.turns, Function.update_self] at hc'
    obtain ⟨⟨rfl, rfl⟩, text, htext⟩ := after_eq_working hc'
    rw [hgoes.copies, Function.update_self]
    exact h text htext

/-- **The dispatch.** -/
theorem recorded_of_records (hapart : s.Apart (· = k))
    (hrec : act.Records s k id agentType result) (hstep : step workDir s act = some t) :
    Recorded k id agentType result t := by
  cases act with
  | dispatch j spec dispatch newId clock =>
      obtain ⟨rfl, rfl, rfl, sid, c, hw, hresult⟩ := hrec
      simp only [step, hw] at hstep
      cases hstep
      refine recorded_ran hapart hw fun text _ => ?_
      rw [toolDispatchAgent, hresult]
      exact Dict.get_set_self _ _ _
  | parallel j specs dispatcher newId =>
      obtain ⟨rfl, n, spec, hn, rfl, honce, rfl, sid, c, hw, hresult⟩ := hrec
      simp only [step, hw] at hstep
      cases hstep
      exact recorded_ran hapart hw fun text htext => get_parallel htext hn honce hresult
  | _ => exact hrec.elim

/-- A turn moves; if it is the one, it has kept the outcome. -/
theorem Recorded.moved (h : Recorded k id agentType result s)
    (hgoes : Goes (· = k) s t j p c copy) (hbegun : j = k → p.Begun)
    (hkept : j = k → ∀ sid c', p = .working sid c' →
      copy.dispatched.get id = some (agentType, result)) :
    Recorded k id agentType result t := by
  refine ⟨hgoes.apart h.apart, hgoes.begun h.begun hbegun, fun sid c' hw => ?_⟩
  rcases hgoes.working rfl hw with ⟨rfl, hp, hcopy⟩ | ⟨-, hs, hcopy⟩ <;> rw [hcopy]
  · exact hkept rfl sid c' hp
  · exact h.get sid c' hs

/-- A tool that gives other ids. -/
theorem Recorded.ran (h : Recorded k id agentType result s) (hw : s.turns j = .working sid c)
    {run : ToolRun} (clock : ℕ → ℚ)
    (hsame : j = k → ∀ text, run.answer = .ok text →
      run.dispatched.get id = (s.copies c).dispatched.get id) :
    Recorded k id agentType result (s.ran j sid c clock run) := by
  refine h.moved (goes_ran h.apart hw clock run) (fun _ => begun_after _ _ _)
    fun hj sid' c' hp => ?_
  obtain ⟨⟨rfl, rfl⟩, text, htext⟩ := after_eq_working hp
  exact (hsame hj text htext).trans (h.get sid' c' (hj ▸ hw))

/-- **One step** that does not give the id again. -/
theorem recorded_step (h : Recorded k id agentType result s) (hok : ¬ act.Gives k id)
    (hspares : act.Spares (· = k) s) (hstep : step workDir s act = some t) :
    Recorded k id agentType result t := by
  cases step_moved hstep with
  | begins hwaiting =>
      refine h.moved (goes_goto rfl rfl (fun _ hc => (Option.some.inj hc).symm)
        fun i halone _ => hspares i halone) (fun hj => ?_) (fun _ _ _ hp => by cases hp)
      have hbegun := h.begun
      rw [← hj, hwaiting] at hbegun
      exact hbegun.elim
  | reads hr =>
      refine h.moved (goes_goto rfl rfl (fun _ hc => (Option.some.inj hc).symm)
        (h.apart.ne (by rw [hr]; rfl))) (fun _ => trivial) (fun hj => ?_)
      have hbegun := h.begun
      rw [← hj, hr] at hbegun
      exact hbegun.elim
  | plan hw _ =>
      refine h.moved (goes_goto rfl rfl (fun _ => on_after) (h.apart.ne (by rw [hw]; rfl)))
        (fun _ => begun_after _ _ _) (fun hj sid' c' hp => ?_)
      obtain ⟨⟨rfl, rfl⟩, -⟩ := after_eq_working hp
      exact h.get sid' c' (hj ▸ hw)
  | @dispatch _ _ _ newId _ _ _ hw =>
      refine h.ran hw _ fun hj text htext => ?_
      have hne : id ≠ newId := fun heq => hok ⟨hj, heq.symm⟩
      unfold toolDispatchAgent at htext ⊢
      split at htext
      · cases htext
      · exact Dict.get_set_of_ne _ _ hne
  | parallel hw =>
      refine h.ran hw _ fun hj text htext => ?_
      obtain ⟨oks, -, hkept⟩ := parallel_answer htext
      rw [hkept]
      refine get_report_of_ne 0 _ _ fun m hm heq => hok ⟨hj, m, ?_, ?_⟩
      · exact Nat.lt_of_lt_of_le hm (by simp)
      · rwa [Nat.zero_add] at heq
  | call => exact ⟨h.apart, h.begun, h.get⟩
  | ends _ hon =>
      exact h.moved (goes_goto rfl rfl (fun _ hc => by cases hc) (h.apart.ne hon))
        (fun _ => trivial) (fun _ _ _ hp => by cases hp)
  | restart =>
      exact ⟨apart_stopped rfl, h.begun.stopped,
        fun sid c hw => absurd hw (Phase.stopped_ne_working _ _ _)⟩

/-- **What a worker has answered can be asked for again.**  As long as its turn is at work, and
no other turn begins on its copy of the orchestrator, `check_agent_status` gives the outcome of
a dispatch, by itself or with others, whatever is dispatched after it under other ids and
whatever other turns do. -/
theorem outcome_recalled {acts : List Act} (hapart : s.Apart (· = k))
    (hrec : act.Records s k id agentType result) (hstep : step workDir s act = some t)
    (honce : ∀ act' ∈ acts, ¬ act'.Gives k id)
    (hspares : Run.Along (step workDir) (fun u act' => act'.Spares (· = k) u) t acts) :
    Run.Throughout (step workDir)
      (fun u => ∀ sid c, u.turns k = .working sid c →
        checkAgentStatus (u.copies c).dispatched id = statusText id agentType result) t acts := by
  have hrun := Run.throughout_of_invariant
    (fun _ _ _ h hok hstep => recorded_step h hok.1 hok.2 hstep)
    (recorded_of_records hapart hrec hstep) ((Run.along_of_mem t honce).and hspares)
  refine hrun.mono fun u h sid c hw => ?_
  rw [checkAgentStatus, h.get sid c hw]

/-- A turn that begins on a copy takes from the one that is on it what was answered. -/
example : ∃ t u, Run.exec (step fun _ => "/w") planning
      [.dispatch 0 ⟨"frontend", "a"⟩ (fun _ => .ok { success := true }) "d1" fun _ => 0] = some t ∧
    checkAgentStatus (t.copies 0).dispatched "d1" =
      statusText "d1" "frontend" { success := true } ∧
    step (fun _ => "/w") t (.begins 1 "s2" 0 "t2" "default") = some u ∧
    checkAgentStatus (u.copies 0).dispatched "d1" = "错误：未找到分派 d1" :=
  ⟨_, _, rfl, rfl, rfl, rfl⟩

/-- Two workers at once. -/
def twoWorkers : Act :=
  .parallel 0 [⟨"frontend", "a"⟩, ⟨"backend", "b"⟩]
    (fun _ _ => .ok { success := true, output := "done" }) fun n => if n = 0 then "d1" else "d2"

/-- A turn of another session begins on another copy, and a third worker is dispatched. -/
theorem first_recalled :
    ∃ t, step (fun _ => "/w") planning twoWorkers = some t ∧
      Run.Throughout (step fun _ => "/w")
        (fun u => ∀ sid c, u.turns 0 = .working sid c →
          checkAgentStatus (u.copies c).dispatched "d1" =
            statusText "d1" "frontend" { success := true, output := "done" }) t
        [.begins 1 "s2" 1 "t2" "default",
          .dispatch 0 ⟨"frontend", "c"⟩ (fun _ => .ok { success := false }) "d3" fun _ => 0] := by
  have hapart : planning.Apart (· = 0) := fun i j c _ => planning_apart i j c trivial
  have hrec : twoWorkers.Records planning 0 "d1" "frontend"
      { success := true, output := "done" } :=
    ⟨rfl, 0, ⟨"frontend", "a"⟩, rfl, rfl, by decide, rfl, _, _, rfl, rfl⟩
  refine ⟨_, rfl, outcome_recalled hapart hrec rfl (by simp [Act.Gives]) ?_⟩
  refine .cons (fun j hj heq => ?_) rfl (.cons trivial rfl trivial)
  rcases hj with h | rfl
  · cases h
  · cases heq

end Planning
end AgentSwarm
