import AgentSwarm.Common.Json
import AgentSwarm.Orchestrator.Messages

/-!
# The loop of the orchestrator

`Orchestrator.execute` asks the LLM for a response, appends it and a tool message
for each of its calls, and asks again, until a response has no calls, a
`finalize` passes the review, or 25 iterations are over.  The list it appends to
is the session's own one when that has messages already.

* `Completion`, `ToolOutcome`, `Loaded`, `Outside` — what the LLM, the tools and
  `json.loads` answer.
* `Turn` — the state of the loop.
* `Outside.runCalls` — the loop over the calls of one response.
* `Outside.iterate`, `Outside.execute` — the loop over the responses, with the
  lists it passes to the LLM.
* `savedMessages` — the list `run_orchestration` saves afterwards.
* `Outside.answered`, `Outside.callsEnd` — which calls of a response get a tool
  message, and what ends the loop over them.
* `Outside.runCalls_spec` — that loop, in these terms.

The event callback is left out: a broadcast raises nothing and a cancellation
there is one in the call that follows.  So is the choice of tools that is passed
with the list, and the shared context.
-/

namespace AgentSwarm
namespace Orchestrator

/-- What `json.loads` does with a text: a value, a `JSONDecodeError`, or another
error, as for too deep a nesting. -/
inductive Loaded where
  | value (v : Json)
  | decodeError
  | raises

/-- What `chat.completions.create` does. -/
inductive Completion where
  | reply (content : Option String) (toolCalls : List ToolCall)
  /-- A response whose `choices` are empty. -/
  | noChoice
  | raises
  | cancelled

/-- What `_execute_tool` does; `dispatched` tells whether it puts something into
`_dispatched`, out of which nothing is taken. -/
inductive ToolOutcome where
  | returns (result : String) (dispatched : Bool)
  | raises
  | cancelled

/-- What is outside of the loop: `json.loads`, the LLM by iteration, and the
tools by iteration and position of the call. -/
structure Outside where
  loads : String → Loaded
  completion : ℕ → Completion
  executeTool : ℕ → ℕ → ToolOutcome

/-- The state of the loop. -/
structure Turn where
  messages : List Message
  dispatched : Bool
  finalResult : Json

def Turn.append (s : Turn) (m : Message) : Turn := { s with messages := s.messages ++ [m] }

/-- What ends the loop over the calls of a response. -/
inductive CallsEnd where
  | goOn
  | finalized
  | raised
  | cancelled
  deriving DecidableEq

/-- How `execute` ends. -/
inductive Exit where
  | returned
  | raised
  | cancelled
  deriving DecidableEq

/-- `part in text`, of the characters of two texts. -/
def isPartOf (part : List Char) : List Char → Bool
  | [] => part.isEmpty
  | c :: text => part.isPrefixOf (c :: text) || isPartOf part text

/-- `"[REVIEW_FAILED]" in result`. -/
def reviewFailed (result : String) : Bool := isPartOf "[REVIEW_FAILED]".toList result.toList

/-- The tool message for arguments that cannot be parsed. -/
def parseFailure (arguments : String) : String :=
  "工具调用参数解析失败: " ++ String.ofList (arguments.toList.take 200)

/-- `fargs.get("summary", result)`, and `result` where that raises. -/
def summaryOf (loads : String → Loaded) (args : Json) (result : String) : Json :=
  let fargs := match args with
    | .str text => loads text
    | v => .value v
  match fargs with
  | .value (.obj fields) => (Dict.get fields "summary").getD (.str result)
  | _ => .str result

/-- The calls of the response of iteration `i`, from position `j` on. -/
def Outside.runCalls (out : Outside) (i : ℕ) : ℕ → List ToolCall → Turn → Turn × CallsEnd
  | _, [], s => (s, .goOn)
  | j, call :: calls, s =>
      match out.loads call.arguments with
      | .raises => (s, .raised)
      | .decodeError =>
          out.runCalls i (j + 1) calls (s.append (.tool call.id (parseFailure call.arguments)))
      | .value args =>
          match out.executeTool i j with
          | .raises => (s, .raised)
          | .cancelled => (s, .cancelled)
          | .returns result dispatched =>
              let s := { s.append (.tool call.id result) with
                dispatched := s.dispatched || dispatched }
              if call.name = "finalize" ∧ ¬ reviewFailed result then
                ({ s with finalResult := summaryOf out.loads args result }, .finalized)
              else out.runCalls i (j + 1) calls s

def maxIterations : ℕ := 25

/-- The message that asks for a `finalize` in the last iterations. -/
def forceFinalize : String := "请立即调用 finalize 工具来完成任务，总结目前的工作成果。"

/-- What `execute` leaves: the lists it passed to the LLM, its state, and how it
ended. -/
structure Outcome where
  passed : List (List Message)
  turn : Turn
  exit : Exit

/-- `msg.content or final_result`. -/
def contentOr (content : Option String) (finalResult : Json) : Json :=
  match content.filter (· ≠ "") with
  | some text => .str text
  | none => finalResult

/-- The list as it is passed to the LLM in iteration `i`. -/
def Turn.beforeCall (s : Turn) (i : ℕ) : Turn :=
  if i = maxIterations - 4 ∧ s.dispatched then s.append (.user forceFinalize) else s

/-- An iteration after the loop over its calls; `rest` are the next iterations. -/
def afterCalls (passed : List Message) (s : Turn) (rest : Outcome) : CallsEnd → Outcome
  | .goOn => { rest with passed := passed :: rest.passed }
  | .finalized => ⟨[passed], s, .returned⟩
  | .raised => ⟨[passed], s, .raised⟩
  | .cancelled => ⟨[passed], s, .cancelled⟩

/-- The last `n` iterations. -/
def Outside.iterate (out : Outside) : ℕ → Turn → Outcome
  | 0, s => ⟨[], s, .returned⟩
  | n + 1, s =>
      let i := maxIterations - (n + 1)
      let s := s.beforeCall i
      match out.completion i with
      | .raises => ⟨[s.messages], { s with finalResult := .str "编排器调用 LLM 失败" }, .returned⟩
      | .noChoice => ⟨[s.messages], s, .raised⟩
      | .cancelled => ⟨[s.messages], s, .cancelled⟩
      | .reply content calls =>
          let s' := s.append (.assistant content calls)
          if calls = [] then
            ⟨[s.messages], { s' with finalResult := contentOr content s'.finalResult }, .returned⟩
          else
            let (s', e) := out.runCalls i 0 calls s'
            afterCalls s.messages s' (out.iterate n s') e

/-- The list `execute` starts with. -/
def startMessages (systemPrompt : String) (session : Option History) (userMessage : String) :
    List Message :=
  match session with
  | some ⟨[], _⟩ => [.system systemPrompt, .user userMessage]
  | some h => h.messages ++ [.user userMessage]
  | none => [.system systemPrompt, .user userMessage]

/-- `Orchestrator.execute`. -/
def Outside.execute (out : Outside) (systemPrompt : String) (session : Option History)
    (userMessage : String) : Outcome :=
  out.iterate maxIterations
    ⟨startMessages systemPrompt session userMessage, false, .str "任务执行完毕，但未产生最终结果。"⟩

/-- The list `run_orchestration` saves for the session, if it saves one.  When
`execute` raises, `session.messages` is still the list it was: the one `execute`
appended to, or an empty one.  A `CancelledError` is not caught. -/
def savedMessages (session : Option History) (outcome : Outcome) : Option (List Message) :=
  session.bind fun h =>
    match outcome.exit with
    | .returned => some outcome.turn.messages
    | .raised => some (if h.messages = [] then [] else outcome.turn.messages)
    | .cancelled => none

/-! ## The calls of one response -/

/-- What ends the loop at a call, if anything does. -/
def Outside.stopsAt (out : Outside) (i j : ℕ) (call : ToolCall) : Option CallsEnd :=
  match out.loads call.arguments with
  | .raises => some .raised
  | .decodeError => none
  | .value _ =>
      match out.executeTool i j with
      | .raises => some .raised
      | .cancelled => some .cancelled
      | .returns result _ =>
          if call.name = "finalize" ∧ ¬ reviewFailed result then some .finalized else none

/-- What ends the loop over the calls. -/
def Outside.callsEnd (out : Outside) (i : ℕ) : ℕ → List ToolCall → CallsEnd
  | _, [] => .goOn
  | j, call :: calls => (out.stopsAt i j call).getD (out.callsEnd i (j + 1) calls)

/-- The calls that get a tool message: those before the one that ends the loop,
and that one as well if it is a `finalize`. -/
def Outside.answered (out : Outside) (i : ℕ) : ℕ → List ToolCall → List ToolCall
  | _, [] => []
  | j, call :: calls =>
      match out.stopsAt i j call with
      | none => call :: out.answered i (j + 1) calls
      | some .finalized => [call]
      | some _ => []

variable {out : Outside} {i : ℕ}

theorem stopsAt_ne_goOn (j : ℕ) (call : ToolCall) : out.stopsAt i j call ≠ some .goOn := by
  unfold Outside.stopsAt
  split
  · decide
  · decide
  · split
    · decide
    · decide
    · split <;> decide

theorem answered_initial (j : ℕ) (calls : List ToolCall) : out.answered i j calls <+: calls := by
  induction calls generalizing j with
  | nil => exact List.prefix_refl []
  | cons call calls ih =>
      rw [Outside.answered]
      split
      · exact (List.prefix_cons_inj call).2 (ih (j + 1))
      · exact ⟨calls, rfl⟩
      · exact List.nil_prefix

/-- When nothing ends the loop, every call is answered. -/
theorem answered_of_goOn {j : ℕ} {calls : List ToolCall} (h : out.callsEnd i j calls = .goOn) :
    out.answered i j calls = calls := by
  induction calls generalizing j with
  | nil => rfl
  | cons call calls ih =>
      cases hstop : out.stopsAt i j call with
      | none =>
          rw [Outside.callsEnd, hstop, Option.getD_none] at h
          simp only [Outside.answered, hstop, ih h]
      | some e =>
          rw [Outside.callsEnd, hstop, Option.getD_some] at h
          exact absurd (h ▸ hstop) (stopsAt_ne_goOn j call)

/-- A call that does not end the loop leaves its tool message. -/
theorem runCalls_of_none {j : ℕ} {call : ToolCall} (h : out.stopsAt i j call = none)
    (calls : List ToolCall) (s : Turn) :
    ∃ (content : String) (s' : Turn), s'.messages = s.messages ++ [.tool call.id content] ∧
      out.runCalls i j (call :: calls) s = out.runCalls i (j + 1) calls s' := by
  unfold Outside.stopsAt at h
  rw [Outside.runCalls]
  split at h
  · cases h
  · exact ⟨_, _, rfl, rfl⟩
  · split at h
    · cases h
    · cases h
    · split at h
      · cases h
      · exact ⟨_, _, rfl, if_neg ‹_›⟩

/-- A call that ends the loop leaves a tool message if it is a `finalize`. -/
theorem runCalls_of_some {j : ℕ} {call : ToolCall} {e : CallsEnd}
    (h : out.stopsAt i j call = some e) (calls : List ToolCall) (s : Turn) :
    (out.runCalls i j (call :: calls) s).2 = e ∧
      ∃ replies, replies.map Prod.fst = (if e = .finalized then [call.id] else []) ∧
        (out.runCalls i j (call :: calls) s).1.messages = s.messages ++ toolMessages replies := by
  have hnone : s.messages = s.messages ++ toolMessages [] := (List.append_nil s.messages).symm
  unfold Outside.stopsAt at h
  rw [Outside.runCalls]
  split at h
  · cases h
    exact ⟨rfl, [], rfl, hnone⟩
  · cases h
  · split at h
    · cases h
      exact ⟨rfl, [], rfl, hnone⟩
    · cases h
      exact ⟨rfl, [], rfl, hnone⟩
    · split at h
      · cases h
        simp only [if_pos ‹_›]
        exact ⟨trivial, [(call.id, _)], rfl, rfl⟩
      · cases h

/-- **The loop over the calls.**  It appends one tool message for each answered
call, in order, and ends as the calls say. -/
theorem Outside.runCalls_spec (j : ℕ) (calls : List ToolCall) (s : Turn) :
    (out.runCalls i j calls s).2 = out.callsEnd i j calls ∧
      ∃ replies, replies.map Prod.fst = (out.answered i j calls).map ToolCall.id ∧
        (out.runCalls i j calls s).1.messages = s.messages ++ toolMessages replies := by
  induction calls generalizing j s with
  | nil => exact ⟨rfl, [], rfl, (List.append_nil s.messages).symm⟩
  | cons call calls ih =>
      cases hstop : out.stopsAt i j call with
      | none =>
          obtain ⟨content, s', hmessages, hrun⟩ := runCalls_of_none hstop calls s
          obtain ⟨hend, replies, hreplies, hrest⟩ := ih (j + 1) s'
          rw [hrun, callsEnd, answered, hstop]
          refine ⟨hend, (call.id, content) :: replies, ?_, ?_⟩
          · simp only [List.map_cons, hreplies]
          · rw [hrest, hmessages, List.append_assoc]
            rfl
      | some e =>
          obtain ⟨hend, replies, hreplies, hrest⟩ := runCalls_of_some hstop calls s
          rw [callsEnd, answered, hstop]
          refine ⟨hend, replies, ?_, hrest⟩
          rw [hreplies]
          cases e <;> rfl

end Orchestrator
end AgentSwarm
