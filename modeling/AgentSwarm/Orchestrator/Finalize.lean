import AgentSwarm.Lib.Path
import AgentSwarm.Lib.Run
import AgentSwarm.Orchestrator.Execute
import AgentSwarm.Orchestrator.ParallelDispatch

/-!
# The tool `finalize`

Before it accepts a `finalize`, the tool reviews the work directory: each agent type
dispatched so far must have left a file with content under the directory of its role.
Its answer is a text, and the loop of `execute` looks in that text for the mark of a
failed review.

* `Found`, `Look` — the files below a directory, as one walk finds them.
* `reviewArtifacts` — the review.
* `toolFinalize` — the tool, with what it comes upon as a `Moment`.
* `Loop`, `step` — the loop of `execute`, one event at a time, with the agent types that
  have been dispatched.
* `execute_of_run` — a run of `step` ends as `Outside.execute` does on the same answers.

Errors of the file system are left out.
-/

namespace AgentSwarm
namespace Orchestrator
namespace Finalize

open AgentSwarm.Path (PurePath)
open ParallelDispatch (firstWord)

/-! ## The review -/

/-- What a walk finds: the names on the way to it from where the walk starts,
`is_file()`, and `st_size`. -/
structure Found where
  parts : List String
  isFile : Bool
  size : ℕ
  deriving DecidableEq

/-- The files of the host at one moment: what there is below a path that exists. -/
abbrev Look := PurePath → Option (List Found)

/-- What the review returns. -/
structure Review where
  missing : List String := []
  perAgent : Dict String ℕ := []
  empty : List String := []

def Review.passed (review : Review) : Bool := review.missing.isEmpty && review.empty.isEmpty

/-- One round of the loop of `review_artifacts`. -/
def reviewOne (look : Look) (artifactsDir : PurePath) (review : Review) (agentType : String) :
    Review :=
  let files := ((look (artifactsDir.join (firstWord agentType))).getD []).filter (·.isFile)
  let review := { review with perAgent := review.perAgent.set agentType files.length }
  if files = [] then { review with missing := review.missing ++ [agentType] }
  else if files.filter (0 < ·.size) = [] then { review with empty := review.empty ++ [agentType] }
  else review

/-- `review_artifacts`. -/
def reviewArtifacts (look : Look) (dispatchedTypes : List String) (artifactsDir : PurePath) :
    Review :=
  dispatchedTypes.foldl (reviewOne look artifactsDir) {}

/-- There is a file with content under the directory of the role. -/
def HasFile (look : Look) (artifactsDir : PurePath) (agentType : String) : Prop :=
  ∃ found, look (artifactsDir.join (firstWord agentType)) = some found ∧
    ∃ file ∈ found, file.isFile = true ∧ 0 < file.size

theorem passed_reviewOne (look : Look) (artifactsDir : PurePath) (review : Review)
    (agentType : String) : (reviewOne look artifactsDir review agentType).passed = true ↔
      review.passed = true ∧ HasFile look artifactsDir agentType := by
  unfold reviewOne HasFile
  cases look (artifactsDir.join (firstWord agentType)) with
  | none => simp [Review.passed]
  | some found =>
      simp only [Option.getD_some, Option.some.injEq, exists_eq_left']
      split
      · rename_i hnone
        have hno : ¬ ∃ file ∈ found, file.isFile = true ∧ 0 < file.size := by
          rintro ⟨file, hfile, hisFile, -⟩
          exact absurd hisFile (List.filter_eq_nil_iff.1 hnone file hfile)
        simp [Review.passed, hno]
      · split
        · rename_i hempty
          have hno : ¬ ∃ file ∈ found, file.isFile = true ∧ 0 < file.size := by
            rintro ⟨file, hfile, hisFile, hsize⟩
            have hmem : file ∈ found.filter (·.isFile) := List.mem_filter.2 ⟨hfile, hisFile⟩
            exact absurd hsize (by simpa using List.filter_eq_nil_iff.1 hempty file hmem)
          simp [Review.passed, hno]
        · rename_i hsome
          obtain ⟨file, hmem⟩ := List.exists_mem_of_ne_nil _ hsome
          obtain ⟨hmem, hsize⟩ := List.mem_filter.1 hmem
          obtain ⟨hfile, hisFile⟩ := List.mem_filter.1 hmem
          exact (and_iff_left ⟨file, hfile, hisFile, by simpa using hsize⟩).symm

/-- **The review** passes exactly when each dispatched type has a file with content. -/
theorem passed_reviewArtifacts (look : Look) (dispatchedTypes : List String)
    (artifactsDir : PurePath) :
    (reviewArtifacts look dispatchedTypes artifactsDir).passed = true ↔
      ∀ agentType ∈ dispatchedTypes, HasFile look artifactsDir agentType := by
  have hloop : ∀ (types : List String) (review : Review),
      (types.foldl (reviewOne look artifactsDir) review).passed = true ↔
        review.passed = true ∧ ∀ agentType ∈ types, HasFile look artifactsDir agentType := by
    intro types
    induction types with
    | nil => simp
    | cons agentType types ih =>
        intro review
        rw [List.foldl_cons, ih, passed_reviewOne, List.forall_mem_cons, and_assoc]
  rw [reviewArtifacts, hloop]
  exact and_iff_right rfl

/-! ## The tool -/

/-- What stays as it is during a run: whether there is a task manager, the work directory
of the session, whether events are recorded for a session, `json.loads`, and the text of
a value that is not a text itself. -/
structure Fields where
  taskManager : Bool
  currentSessionWorkDir : Option PurePath
  recordsEvents : Bool
  loads : String → Loaded
  repr : Json → String

/-- What `append_event` does. -/
inductive Appended where
  | returns
  | raises
  | cancelled
  deriving DecidableEq

/-- What a `finalize` comes upon: the work directory of the task, the files as the review
and as the list of files find them, and what becomes of its event. -/
structure Moment where
  taskDir : Option PurePath
  review : Look
  listing : Look
  appended : Appended

variable (f : Fields)

/-- `_get_artifacts_dir`. -/
def Fields.artifactsDir (m : Moment) : Option PurePath :=
  match (if f.taskManager then m.taskDir else none) with
  | some dir => some dir
  | none => f.currentSessionWorkDir

/-- The directory that is reviewed, if a review is required. -/
def Fields.reviewed (dispatched : Dict String String) (m : Moment) : Option PurePath :=
  if f.taskManager ∧ dispatched ≠ [] then f.artifactsDir m else none

/-- The answer when the review has failed. -/
def reviewFailedText (review : Review) : String :=
  "[REVIEW_FAILED]" ++ (" 审查未通过，以下已分派 Agent 未产出文件: " ++
    ", ".intercalate review.missing ++ "。请用 dispatch_agent 让它们产出后再次 finalize。")

/-- `f.parent.name`, for what a walk from `dir` finds. -/
def parentName (dir : PurePath) (found : Found) : String :=
  ((dir.parts ++ found.parts).dropLast.getLast?).getD ""

/-- The files that are listed: those that do not lie in a directory of the plan. -/
def realFiles (dir : PurePath) (found : List Found) : List Found :=
  found.filter fun x => x.isFile && !"_plan".toList.isPrefixOf (parentName dir x).toList

def noFilesWarning : String := "\n\n⚠️ 警告：工作目录中没有产出文件。请确认 Worker 是否已正确执行任务。"

def noDirWarning : String := "\n\n⚠️ 警告：已分派 Agent 但找不到工作目录。产出物可能未正确保存。"

/-- The list of the files found. -/
def fileList (files : List Found) : String :=
  "\n\n已验证产出物（" ++ toString files.length ++ " 个文件）：" ++ "\n" ++
    "\n".intercalate (files.map fun x => "  - " ++ Path.joined x.parts)

/-- What there is in the artifacts directory, if it exists. -/
def Fields.listed (m : Moment) : Option (List Found) :=
  (f.artifactsDir m).bind fun dir => (m.listing dir).map (realFiles dir)

/-- `artifact_warning`. -/
def Fields.artifactWarning (dispatched : Dict String String) (m : Moment) : String :=
  if f.taskManager then
    match f.listed m with
    | some [] => noFilesWarning
    | some files => fileList files
    | none => if dispatched ≠ [] then noDirWarning else ""
  else ""

/-- `str(value)`. -/
def Fields.format : Json → String
  | .str text => text
  | value => f.repr value

/-- `summary[:500]` does not raise. -/
def sliceable : Json → Bool
  | .str _ => true
  | .arr _ => true
  | _ => false

/-- `args.get("summary", "")`. -/
def summaryArg (fields : JsonObj) : Json := (fields.get "summary").getD (.str "")

/-- The answer when the task is accepted as done. -/
def Fields.finalizeText (dispatched : Dict String String) (m : Moment) (fields : JsonObj) :
    String :=
  "[FINALIZE] 任务已完成。摘要：" ++ "\n" ++
    (f.format (summaryArg fields) ++ f.artifactWarning dispatched m)

/-- The event that records it, and then the answer. -/
def Fields.accept (dispatched : Dict String String) (m : Moment) (fields : JsonObj) :
    ToolOutcome :=
  if f.recordsEvents then
    if sliceable (summaryArg fields) then
      match m.appended with
      | .returns => .returns (f.finalizeText dispatched m fields) false
      | .raises => .raises
      | .cancelled => .cancelled
    else .raises
  else .returns (f.finalizeText dispatched m fields) false

/-- The event is recorded, if one is to be. -/
def Fields.Recorded (m : Moment) (fields : JsonObj) : Prop :=
  f.recordsEvents = true → sliceable (summaryArg fields) = true ∧ m.appended = .returns

theorem accept_cases (dispatched : Dict String String) (m : Moment) (fields : JsonObj) :
    (f.Recorded m fields ∧
        f.accept dispatched m fields = .returns (f.finalizeText dispatched m fields) false) ∨
      ¬ f.Recorded m fields ∧
        (f.accept dispatched m fields = .raises ∨ f.accept dispatched m fields = .cancelled) := by
  unfold Fields.accept Fields.Recorded
  cases f.recordsEvents <;> cases sliceable (summaryArg fields) <;> cases m.appended <;> simp

/-- `_tool_finalize`.  `dispatched` are the agent types under the ids of their
dispatches. -/
def toolFinalize (dispatched : Dict String String) (m : Moment) : Json → ToolOutcome
  | .obj fields =>
      match f.reviewed dispatched m with
      | some dir =>
          let review := reviewArtifacts m.review (dispatched.map Prod.snd) dir
          if review.passed then f.accept dispatched m fields
          else .returns (reviewFailedText review) false
      | none => f.accept dispatched m fields
  | _ => .raises

/-! ## The loop -/

/-- What a tool other than `finalize` does.  `records` are the dispatches it keeps, by id
and agent type. -/
inductive Answer where
  | returns (result : String) (records : List (String × String))
  | raises
  | cancelled

/-- How the loop ends. -/
inductive Ending where
  /-- By a `finalize` that was accepted. -/
  | finalized
  /-- By a response without calls. -/
  | replied
  /-- By the limit on iterations. -/
  | exhausted
  | llmFailed
  | raised
  | cancelled
  deriving DecidableEq

/-- Where the loop is; `calling` has the calls of the response that are to come. -/
inductive Place where
  | asking
  | calling (calls : List ToolCall)
  | over (e : Ending)
  deriving DecidableEq

/-- The loop of `execute`.  `dispatched` are the agent types in `_dispatched`, by id. -/
structure Loop where
  iteration : ℕ
  place : Place
  messages : List Message
  dispatched : Dict String String
  finalResult : Json

namespace Loop

/-- `execute` before its first iteration. -/
def start (systemPrompt : String) (session : Option History) (userMessage : String) : Loop where
  iteration := 0
  place := .asking
  messages := startMessages systemPrompt session userMessage
  dispatched := []
  finalResult := .str "任务执行完毕，但未产生最终结果。"

/-- The part of the state that does not tell the agent types. -/
def turn (s : Loop) : Turn := ⟨s.messages, decide (s.dispatched ≠ []), s.finalResult⟩

def finish (s : Loop) (e : Ending) : Loop := { s with place := .over e }

def append (s : Loop) (m : Message) : Loop := { s with messages := s.messages ++ [m] }

/-- On to the next call, or to the next iteration. -/
def next (s : Loop) : List ToolCall → Loop
  | call :: calls => { s with place := .calling (call :: calls) }
  | [] =>
      if s.iteration + 1 < maxIterations then
        { s with iteration := s.iteration + 1, place := .asking }
      else s.finish .exhausted

/-- The LLM is asked. -/
def ask (s : Loop) (c : Completion) : Loop :=
  let s := { s with messages := (s.turn.beforeCall s.iteration).messages }
  match c with
  | .raises => { s with finalResult := .str "编排器调用 LLM 失败" }.finish .llmFailed
  | .noChoice => s.finish .raised
  | .cancelled => s.finish .cancelled
  | .reply content [] =>
      { s.append (.assistant content []) with
        finalResult := contentOr content s.finalResult }.finish .replied
  | .reply content (call :: calls) =>
      { s.append (.assistant content (call :: calls)) with place := .calling (call :: calls) }

/-- `_dispatched[dispatch_id] = (agent_type, result)`, for each dispatch. -/
def keep (dispatched : Dict String String) (records : List (String × String)) :
    Dict String String :=
  records.foldl (fun (d : Dict String String) r => d.set r.1 r.2) dispatched

/-- A tool other than `finalize` is called. -/
def answer (s : Loop) (call : ToolCall) (calls : List ToolCall) : Answer → Loop
  | .returns result records =>
      { s.append (.tool call.id result) with
        dispatched := keep s.dispatched records }.next calls
  | .raises => s.finish .raised
  | .cancelled => s.finish .cancelled

/-- `finalize` is called: the loop looks for the mark in its result. -/
def finalize (s : Loop) (loads : String → Loaded) (call : ToolCall) (calls : List ToolCall)
    (args : Json) : ToolOutcome → Loop
  | .returns result _ =>
      let s := s.append (.tool call.id result)
      if reviewFailed result then s.next calls
      else { s with finalResult := summaryOf loads args result }.finish .finalized
  | .raises => s.finish .raised
  | .cancelled => s.finish .cancelled

end Loop

/-- What comes from outside of the loop. -/
inductive Event where
  | completion (c : Completion)
  /-- The arguments of the call cannot be loaded. -/
  | unloadable
  | tool (answer : Answer)
  | finalize (m : Moment)

/-- One event of the loop. -/
def step (s : Loop) (e : Event) : Option Loop :=
  match s.place, e with
  | .asking, .completion c => some (s.ask c)
  | .calling (call :: calls), e =>
      match f.loads call.arguments, e with
      | .raises, .unloadable => some (s.finish .raised)
      | .decodeError, .unloadable =>
          some ((s.append (.tool call.id (parseFailure call.arguments))).next calls)
      | .value _, .tool answer =>
          if call.name = "finalize" then none else some (s.answer call calls answer)
      | .value args, .finalize m =>
          if call.name = "finalize" then
            some (s.finalize f.loads call calls args (toolFinalize f s.dispatched m args))
          else none
      | _, _ => none
  | _, _ => none

/-! ## The same loop as before -/

/-- How `execute` is left. -/
def Ending.exit : Ending → Exit
  | .raised => .raised
  | .cancelled => .cancelled
  | _ => .returned

/-- What `execute` makes of the answer of a tool. -/
def Answer.outcome : Answer → ToolOutcome
  | .returns result records => .returns result (decide (records ≠ []))
  | .raises => .raises
  | .cancelled => .cancelled

/-- The calls of a response. -/
def callsOf : Completion → List ToolCall
  | .reply _ calls => calls
  | _ => []

/-- The place in the response of iteration `i` of the first of the calls that are to come. -/
def placeOf (out : Outside) (i : ℕ) (calls : List ToolCall) : ℕ :=
  (callsOf (out.completion i)).length - calls.length

/-- `out` gives the answers that the event stands for. -/
def Follows (out : Outside) (s : Loop) (e : Event) : Prop :=
  match s.place, e with
  | .asking, .completion c => out.completion s.iteration = c
  | .calling calls, .tool answer =>
      out.executeTool s.iteration (placeOf out s.iteration calls) = answer.outcome
  | .calling (call :: calls), .finalize m =>
      ∀ args, f.loads call.arguments = .value args →
        out.executeTool s.iteration (placeOf out s.iteration (call :: calls)) =
          toolFinalize f s.dispatched m args
  | _, _ => True

/-- What `Outside.execute` has still to do from a state of the loop. -/
def rest (out : Outside) (s : Loop) : Turn × Exit :=
  match s.place with
  | .over e => (s.turn, e.exit)
  | .asking =>
      let o := out.iterate (maxIterations - s.iteration) s.turn
      (o.turn, o.exit)
  | .calling calls =>
      let (t, e) := out.runCalls s.iteration (placeOf out s.iteration calls) calls s.turn
      let o := afterCalls [] t (out.iterate (maxIterations - (s.iteration + 1)) t) e
      (o.turn, o.exit)

variable {f} {out : Outside} {s t : Loop} {e : Event}

/-- The state makes sense: there is an iteration for it, and the calls to come are the
last ones of its response. -/
def Placed (out : Outside) (s : Loop) : Prop :=
  match s.place with
  | .asking => s.iteration < maxIterations
  | .calling calls => s.iteration < maxIterations ∧ calls <:+ callsOf (out.completion s.iteration)
  | .over _ => True

theorem placeOf_succ {i : ℕ} {call : ToolCall} {calls : List ToolCall}
    (h : call :: calls <:+ callsOf (out.completion i)) :
    placeOf out i calls = placeOf out i (call :: calls) + 1 := by
  have hle := h.length_le
  rw [List.length_cons] at hle
  rw [placeOf, placeOf, List.length_cons]
  omega

theorem placed_next {calls : List ToolCall} (hi : s.iteration < maxIterations)
    (h : calls <:+ callsOf (out.completion s.iteration)) : Placed out (s.next calls) := by
  cases calls with
  | cons call calls => exact ⟨hi, h⟩
  | nil =>
      rw [Loop.next]
      split
      · assumption
      · trivial

/-- Going on to the next iteration is what is left after the last call. -/
theorem rest_next {calls : List ToolCall} (hi : s.iteration < maxIterations) :
    rest out (s.next calls) = rest out { s with place := .calling calls } := by
  cases calls with
  | cons call calls => rfl
  | nil =>
      rw [Loop.next]
      split
      · rfl
      · rename_i hlast
        have hzero : maxIterations - (s.iteration + 1) = 0 := by omega
        simp only [rest, Loop.finish, Outside.runCalls, afterCalls, hzero, Outside.iterate]
        rfl

theorem keep_ne_nil (dispatched : Dict String String) (records : List (String × String)) :
    decide (Loop.keep dispatched records ≠ []) =
      (decide (dispatched ≠ []) || decide (records ≠ [])) := by
  induction records generalizing dispatched with
  | nil => rw [Loop.keep, List.foldl_nil]; simp
  | cons r records ih =>
      have hset : dispatched.set r.1 r.2 ≠ [] := by
        intro hnil
        have hget := Dict.get_set_self dispatched r.1 r.2
        rw [hnil] at hget
        cases hget
      rw [Loop.keep, List.foldl_cons, ← Loop.keep, ih]
      simp [hset]

/-- A `finalize` dispatches nothing. -/
theorem toolFinalize_returns {dispatched : Dict String String} {m : Moment} {args : Json}
    {result : String} {flag : Bool}
    (h : toolFinalize f dispatched m args = .returns result flag) : flag = false := by
  have haccept : ∀ fields, f.accept dispatched m fields = .returns result flag →
      flag = false := by
    intro fields h
    obtain ⟨-, heq⟩ | ⟨-, heq | heq⟩ := accept_cases f dispatched m fields <;>
      rw [heq] at h <;> cases h
    rfl
  cases args with
  | obj fields =>
      simp only [toolFinalize] at h
      split at h
      · split at h
        · exact haccept fields h
        · cases h
          rfl
      · exact haccept fields h
  | null => cases h
  | bool => cases h
  | num => cases h
  | str => cases h
  | arr => cases h

/-- The lists passed to the LLM do not matter for how the loop ends. -/
theorem afterCalls_passed (ms : List Message) (t : Turn) (o : Outcome) (e : CallsEnd) :
    ((afterCalls ms t o e).turn, (afterCalls ms t o e).exit) =
      ((afterCalls [] t o e).turn, (afterCalls [] t o e).exit) := by
  cases e <;> rfl

/-- What a response leaves to do. -/
theorem rest_ask (hi : s.iteration < maxIterations) (hplace : s.place = .asking) :
    rest out (s.ask (out.completion s.iteration)) = rest out s ∧
      Placed out (s.ask (out.completion s.iteration)) := by
  obtain ⟨n, hn⟩ : ∃ n, maxIterations - s.iteration = n + 1 := ⟨_, (Nat.succ_pred (by omega)).symm⟩
  have hi' : maxIterations - (n + 1) = s.iteration := by omega
  have hn' : maxIterations - (s.iteration + 1) = n := by omega
  have hbefore : s.turn.beforeCall s.iteration =
      { s.turn with messages := (s.turn.beforeCall s.iteration).messages } := by
    unfold Turn.beforeCall Turn.append
    split <;> rfl
  have hrest : rest out s =
      ((out.iterate (n + 1) s.turn).turn, (out.iterate (n + 1) s.turn).exit) := by
    simp only [rest, hplace, hn]
  rw [hrest, Outside.iterate, hi', hbefore]
  cases hc : out.completion s.iteration with
  | raises => exact ⟨rfl, trivial⟩
  | noChoice => exact ⟨rfl, trivial⟩
  | cancelled => exact ⟨rfl, trivial⟩
  | reply content calls =>
      cases calls with
      | nil => exact ⟨rfl, trivial⟩
      | cons call calls =>
          have hcalls : callsOf (out.completion s.iteration) = call :: calls := by rw [hc]; rfl
          have hzero : placeOf out s.iteration (call :: calls) = 0 := by simp [placeOf, hcalls]
          refine ⟨?_, hi, ⟨[], hcalls.symm⟩⟩
          simp only [rest, Loop.ask, Loop.append, hzero, hn', if_neg (List.cons_ne_nil call calls)]
          rw [← afterCalls_passed (s.turn.beforeCall s.iteration).messages]
          rfl

section

variable {call : ToolCall} {calls : List ToolCall} {args : Json}

/-- A tool other than `finalize` leaves the rest as it is. -/
theorem rest_answer (hloads : out.loads = f.loads) (hi : s.iteration < maxIterations)
    (hsuffix : call :: calls <:+ callsOf (out.completion s.iteration))
    (hload : f.loads call.arguments = .value args) (hname : call.name ≠ "finalize")
    {answer : Answer} (houtcome : out.executeTool s.iteration
      (placeOf out s.iteration (call :: calls)) = answer.outcome) :
    rest out (s.answer call calls answer) =
        rest out { s with place := .calling (call :: calls) } ∧
      Placed out (s.answer call calls answer) := by
  have hnext := placeOf_succ hsuffix
  have hsuffix' := (List.suffix_cons call calls).trans hsuffix
  cases answer with
  | raises =>
      refine ⟨?_, trivial⟩
      simp only [rest, Outside.runCalls, hloads, hload, houtcome, Answer.outcome]
      rfl
  | cancelled =>
      refine ⟨?_, trivial⟩
      simp only [rest, Outside.runCalls, hloads, hload, houtcome, Answer.outcome]
      rfl
  | returns result records =>
      refine ⟨?_, placed_next hi hsuffix'⟩
      rw [Loop.answer, rest_next (by exact hi)]
      simp only [rest, Outside.runCalls, hloads, hload, houtcome, Answer.outcome, hname,
        false_and, if_false]
      rw [← hnext]
      simp only [Loop.turn, Loop.append, keep_ne_nil]
      rfl

/-- `finalize` leaves the rest as it is, whether the loop finds the mark or not. -/
theorem rest_finalize (hloads : out.loads = f.loads) (hi : s.iteration < maxIterations)
    (hsuffix : call :: calls <:+ callsOf (out.completion s.iteration))
    (hload : f.loads call.arguments = .value args) (hname : call.name = "finalize")
    {m : Moment} (houtcome : out.executeTool s.iteration
      (placeOf out s.iteration (call :: calls)) = toolFinalize f s.dispatched m args) :
    rest out (s.finalize f.loads call calls args (toolFinalize f s.dispatched m args)) =
        rest out { s with place := .calling (call :: calls) } ∧
      Placed out (s.finalize f.loads call calls args (toolFinalize f s.dispatched m args)) := by
  have hnext := placeOf_succ hsuffix
  have hsuffix' := (List.suffix_cons call calls).trans hsuffix
  cases htool : toolFinalize f s.dispatched m args with
  | raises =>
      refine ⟨?_, trivial⟩
      simp only [rest, Outside.runCalls, hloads, hload, houtcome, htool]
      rfl
  | cancelled =>
      refine ⟨?_, trivial⟩
      simp only [rest, Outside.runCalls, hloads, hload, houtcome, htool]
      rfl
  | returns result flag =>
      obtain rfl := toolFinalize_returns htool
      rw [Loop.finalize]
      by_cases hmark : reviewFailed result = true
      · rw [if_pos hmark]
        refine ⟨?_, placed_next hi hsuffix'⟩
        rw [rest_next (by exact hi)]
        simp only [rest, Outside.runCalls, hloads, hload, houtcome, htool, hmark,
          not_true_eq_false, and_false, if_false, Bool.or_false]
        rw [← hnext]
        rfl
      · rw [if_neg hmark]
        refine ⟨?_, trivial⟩
        simp only [rest, Outside.runCalls, hloads, hload, houtcome, htool, hname, hmark,
          Bool.false_eq_true, not_false_eq_true, and_self, if_true, Bool.or_false]
        rfl

end

/-- **A step** leaves the rest of the loop as it is. -/
theorem rest_step (hloads : out.loads = f.loads) (hplaced : Placed out s)
    (hfollows : Follows f out s e) (h : step f s e = some t) :
    rest out t = rest out s ∧ Placed out t := by
  unfold step at h
  split at h
  · -- the LLM is asked
    rename_i c hplace
    cases h
    simp only [Placed, hplace] at hplaced
    simp only [Follows, hplace] at hfollows
    rw [← hfollows]
    exact rest_ask hplaced hplace
  · -- a tool is called
    rename_i call calls hplace
    simp only [Placed, hplace] at hplaced
    obtain ⟨hi, hsuffix⟩ := hplaced
    have hrest : rest out s = rest out { s with place := .calling (call :: calls) } := by
      rw [← hplace]
    rw [hrest]
    split at h
    · rename_i hload
      cases h
      refine ⟨?_, trivial⟩
      simp only [rest, Outside.runCalls, hloads, hload]
      rfl
    · rename_i hload
      cases h
      refine ⟨?_, placed_next hi ((List.suffix_cons call calls).trans hsuffix)⟩
      rw [rest_next (by exact hi)]
      simp only [rest, Outside.runCalls, hloads, hload]
      rw [← placeOf_succ hsuffix]
      rfl
    · rename_i args answer hload
      split at h
      · cases h
      · rename_i hname
        cases h
        simp only [Follows, hplace] at hfollows
        exact rest_answer hloads hi hsuffix hload hname hfollows
    · rename_i args m hload
      split at h
      · rename_i hname
        cases h
        simp only [Follows, hplace] at hfollows
        exact rest_finalize hloads hi hsuffix hload hname (hfollows args hload)
      · cases h
    · cases h
  · cases h

/-- **One loop.**  A run of `step` that is over ends as `Outside.execute` does when it is
given the same answers. -/
theorem execute_of_run (hloads : out.loads = f.loads) {systemPrompt userMessage : String}
    {session : Option History} {events : List Event} {ending : Ending}
    (hfollows : Run.Along (step f) (Follows f out)
      (Loop.start systemPrompt session userMessage) events)
    (hrun : Run.exec (step f) (Loop.start systemPrompt session userMessage) events = some t)
    (hover : t.place = .over ending) :
    (out.execute systemPrompt session userMessage).turn = t.turn ∧
      (out.execute systemPrompt session userMessage).exit = ending.exit := by
  let first := Loop.start systemPrompt session userMessage
  have hinv : rest out t = rest out first ∧ Placed out t := by
    refine Run.exec_invariant (I := fun s => rest out s = rest out first ∧ Placed out s)
      ?_ ⟨rfl, show 0 < maxIterations by decide⟩ hfollows hrun
    rintro s e u ⟨hrest, hplaced⟩ hok hstep
    obtain ⟨hsame, hplaced'⟩ := rest_step hloads hplaced hok hstep
    exact ⟨hsame.trans hrest, hplaced'⟩
  have hend : rest out t = (t.turn, ending.exit) := by simp only [rest, hover]
  have hfirst : rest out first = ((out.execute systemPrompt session userMessage).turn,
      (out.execute systemPrompt session userMessage).exit) := rfl
  have heq := hfirst.symm.trans (hinv.1.symm.trans hend)
  exact ⟨congrArg Prod.fst heq, congrArg Prod.snd heq⟩

end Finalize
end Orchestrator
end AgentSwarm
