import AgentSwarm.Lib.Effect
import AgentSwarm.Orchestrator.Execute

/-!
# The loop of a worker

`run_agent_loop` asks the LLM, runs the tools it calls for and asks again, until a response
calls for none or the iterations are used up.  The tools work on states `W` of something
outside and raise an `E`.

* `Event`, `Chat` — the progress events, and what the loop has done so far.
* `runCalls`, `loop`, `runAgentLoop` — the tool calls of one response, the iterations, the
  function.
* `InOrder` — each response is followed by one tool message for each of its calls, in order.
* `runCalls_spec`, `loop_inOrder` — what the calls of one response leave when no tool raises,
  and that the messages of a run are in order.
* `RunFits`, `loop_no_tool_raises_iff` — **no tool ends the loop exactly when every call it
  comes to fits**, for any account `fits` of the calls that do not raise.
-/

namespace AgentSwarm
namespace AgentLoop

open Orchestrator (ToolCall Message Completion Loaded answers toolMessages)

/-- A progress event. -/
inductive Event where
  | assistant (step : ℕ) (content : String)
  | tool (step : ℕ) (tool result : String)
  deriving DecidableEq

/-- Where the exception comes from that ends the loop. -/
inductive Failure (E : Type) where
  | llm
  /-- `response.choices[0]`. -/
  | noChoice
  | cancelled
  | tool (e : E)

/-- What the loop has done: `passed` are the lists it has given to the LLM. -/
structure Chat (W : Type) where
  messages : List Message
  passed : List (List Message)
  progress : List Event
  world : W

/-- `s[:n]`. -/
def prefixOf (n : ℕ) (s : String) : String := String.ofList (s.toList.take n)

/-- `fn_args`. -/
def fnArgs (loads : String → Loaded) (arguments : String) : Json :=
  match loads arguments with
  | .value v => v
  | .decodeError => .obj []
  | .raises => .obj []

variable {W E : Type}

/-- `llm_call` is given the messages there are. -/
def Chat.ask (s : Chat W) : Chat W := { s with passed := s.passed ++ [s.messages] }

/-- A response, and its event. -/
def Chat.respond (s : Chat W) (step : ℕ) (content : Option String) (calls : List ToolCall) :
    Chat W :=
  { s with
    messages := s.messages ++ [.assistant content calls]
    progress := s.progress ++ [.assistant step (prefixOf 500 (content.getD ""))] }

/-- The result of a tool, its event, and the state it leaves. -/
def Chat.answer (s : Chat W) (step : ℕ) (call : ToolCall) (result : String) (w : W) : Chat W :=
  { s with
    messages := s.messages ++ [.tool call.id result]
    progress := s.progress ++ [.tool step call.name (prefixOf 200 result)]
    world := w }

section

variable (tool : String → Json → Eff W E String) (loads : String → Loaded)

/-- `execute_tool(fn_name, fn_args)`. -/
def execute (call : ToolCall) : Eff W E String := tool call.name (fnArgs loads call.arguments)

/-- The tool calls of one response, and the exception of the tool that raises. -/
def runCalls (step : ℕ) : List ToolCall → Chat W → Option E × Chat W
  | [], s => (none, s)
  | call :: calls, s =>
      match execute tool loads call s.world with
      | (.error e, w) => (some e, { s with world := w })
      | (.ok result, w) => runCalls step calls (s.answer step call result w)

variable (llm : ℕ → Completion)

/-- The iterations from `step` on, `n` at most. -/
def loop : ℕ → ℕ → Chat W → Except (Failure E) String × Chat W
  | 0, _, s => (.ok "", s)
  | n + 1, step, s =>
      match llm step with
      | .raises => (.error .llm, s.ask)
      | .cancelled => (.error .cancelled, s.ask)
      | .noChoice => (.error .noChoice, s.ask)
      | .reply content calls =>
          if calls = [] then (.ok (content.getD ""), s.ask.respond step content calls)
          else
            match runCalls tool loads step calls (s.ask.respond step content calls) with
            | (some e, s') => (.error (.tool e), s')
            | (none, s') => loop n (step + 1) s'

/-- The chat before the first iteration. -/
def initial (systemPrompt userMessage : String) (w : W) : Chat W where
  messages := [.system systemPrompt, .user userMessage]
  passed := []
  progress := []
  world := w

/-- `run_agent_loop`. -/
def runAgentLoop (systemPrompt userMessage : String) (maxIterations : ℕ) (w : W) :
    Except (Failure E) String × Chat W :=
  loop tool loads llm maxIterations 0 (initial systemPrompt userMessage w)

end

/-! ## The order of the messages -/

/-- Each response is followed by the tool messages of its calls, one for each and in the order
of the calls, before the next response. -/
def InOrder : List Message → Prop
  | [] => True
  | .assistant _ calls :: ms => answers ms = calls.map (·.id) ∧ InOrder ms
  | .system _ :: ms => InOrder ms
  | .user _ :: ms => InOrder ms
  | .tool _ _ :: ms => InOrder ms

theorem inOrder_append_of_closes {m : Message} (hm : m.closes) {ms xs : List Message}
    (hms : InOrder ms) (hxs : InOrder (m :: xs)) : InOrder (ms ++ m :: xs) := by
  induction ms with
  | nil => exact hxs
  | cons n ms ih =>
      cases n with
      | assistant content calls =>
          obtain ⟨hanswers, hrest⟩ := hms
          exact ⟨(Orchestrator.answers_append_of_closes hm ms xs).trans hanswers, ih hrest⟩
      | system content => exact ih hms
      | user content => exact ih hms
      | tool id content => exact ih hms

theorem inOrder_toolMessages (replies : List (String × String)) :
    InOrder (toolMessages replies) := by
  induction replies with
  | nil => trivial
  | cons reply replies ih => exact ih

/-- A response and the tool messages of its calls go behind messages in order. -/
theorem inOrder_turn {ms : List Message} (hms : InOrder ms) (content : Option String)
    {calls : List ToolCall} {replies : List (String × String)}
    (hids : replies.map Prod.fst = calls.map (·.id)) :
    InOrder (ms ++ .assistant content calls :: toolMessages replies) := by
  refine inOrder_append_of_closes rfl hms ?_
  have hanswers : answers (toolMessages replies) = calls.map (·.id) :=
    (Orchestrator.answers_toolMessages replies).trans hids
  exact ⟨hanswers, inOrder_toolMessages replies⟩

/-! ## What the loops leave -/

section

variable (tool : String → Json → Eff W E String) (loads : String → Loaded)

/-- The calls of a response when no tool raises: one tool message and one event for each, in
order. -/
theorem runCalls_spec {step : ℕ} {calls : List ToolCall} {s s' : Chat W}
    (h : runCalls tool loads step calls s = (none, s')) :
    ∃ results : List String, results.length = calls.length ∧
      s'.messages = s.messages ++ toolMessages ((calls.map (·.id)).zip results) ∧
      s'.progress = s.progress ++ ((calls.map (·.name)).zip results).map
        (fun called => .tool step called.1 (prefixOf 200 called.2)) ∧
      s'.passed = s.passed := by
  induction calls generalizing s with
  | nil =>
      obtain rfl : s = s' := congrArg Prod.snd h
      exact ⟨[], rfl, (List.append_nil _).symm, (List.append_nil _).symm, rfl⟩
  | cons call calls ih =>
      rw [runCalls] at h
      split at h
      · cases h
      · rename_i result w hresult
        obtain ⟨results, hlength, hmessages, hprogress, hpassed⟩ := ih h
        refine ⟨result :: results, congrArg (· + 1) hlength, ?_, ?_, hpassed⟩
        · rw [hmessages]
          simp [Chat.answer, toolMessages]
        · rw [hprogress]
          simp [Chat.answer]

variable (llm : ℕ → Completion)

/-- **The messages stay in order**, unless a tool ends the loop. -/
theorem loop_inOrder {n step : ℕ} {s : Chat W} (hs : InOrder s.messages)
    (hend : ∀ e, (loop tool loads llm n step s).1 ≠ .error (.tool e)) :
    InOrder (loop tool loads llm n step s).2.messages := by
  induction n generalizing step s with
  | zero => exact hs
  | succ n ih =>
      rw [loop] at hend ⊢
      split
      · exact hs
      · exact hs
      · exact hs
      · rename_i content calls hllm
        simp only [hllm] at hend
        split
        · rename_i hcalls
          subst hcalls
          exact @inOrder_turn s.messages hs content [] [] rfl
        · rename_i hcalls
          rw [if_neg hcalls] at hend
          split
          · rename_i e s' hrun
            rw [hrun] at hend
            exact absurd rfl (hend e)
          · rename_i s' hrun
            rw [hrun] at hend
            refine ih ?_ hend
            obtain ⟨results, hlength, hmessages, -⟩ := runCalls_spec tool loads hrun
            have hids : ((calls.map (·.id)).zip results).map Prod.fst = calls.map (·.id) :=
              List.map_fst_zip (by simp [hlength])
            rw [hmessages]
            simpa [Chat.respond, Chat.ask] using inOrder_turn hs content hids

end

/-! ## No tool ends the loop -/

section

variable (tool : String → Json → Eff W E String) (loads : String → Loaded)
  (fits : String → Json → W → Prop)

/-- The calls of a response fit, each in the state the ones before it leave. -/
def CallsFit : List ToolCall → W → Prop
  | [], _ => True
  | call :: calls, w =>
      fits call.name (fnArgs loads call.arguments) w ∧
        CallsFit calls (execute tool loads call w).2

/-- The state the calls of a response leave. -/
def worldAfter (calls : List ToolCall) (w : W) : W :=
  calls.foldl (fun w call => (execute tool loads call w).2) w

variable (llm : ℕ → Completion)

/-- The calls fit that a run of the loop comes to. -/
def RunFits : ℕ → ℕ → W → Prop
  | 0, _, _ => True
  | n + 1, step, w =>
      match llm step with
      | .reply _ calls =>
          CallsFit tool loads fits calls w ∧
            (calls ≠ [] → RunFits n (step + 1) (worldAfter tool loads calls w))
      | _ => True

/-- The state when no tool of a response has raised. -/
theorem runCalls_world {step : ℕ} {calls : List ToolCall} {s s' : Chat W}
    (h : runCalls tool loads step calls s = (none, s')) :
    s'.world = worldAfter tool loads calls s.world := by
  induction calls generalizing s with
  | nil =>
      obtain rfl : s = s' := congrArg Prod.snd h
      rfl
  | cons call calls ih =>
      rw [runCalls] at h
      split at h
      · cases h
      · rename_i result w hresult
        rw [ih h, worldAfter, worldAfter, List.foldl_cons, hresult]
        rfl

variable (hfits : ∀ name args w, fits name args w ↔ (tool name args).Returns w)

include hfits

/-- No tool of a response raises exactly when its calls fit. -/
theorem runCalls_none_iff (step : ℕ) (calls : List ToolCall) (s : Chat W) :
    (runCalls tool loads step calls s).1 = none ↔ CallsFit tool loads fits calls s.world := by
  induction calls generalizing s with
  | nil => exact iff_of_true rfl trivial
  | cons call calls ih =>
      rw [runCalls, CallsFit, hfits, Eff.returns_iff]
      have hcall : tool call.name (fnArgs loads call.arguments) = execute tool loads call := rfl
      rw [hcall]
      rcases execute tool loads call s.world with ⟨e | result, w⟩
      · simp
      · have hrest : CallsFit tool loads fits calls w ↔
            CallsFit tool loads fits calls (s.answer step call result w).world := Iff.rfl
        simpa [hrest] using ih (s.answer step call result w)

/-- **No tool ends the loop exactly when every call it comes to fits.** -/
theorem loop_no_tool_raises_iff (n step : ℕ) (s : Chat W) :
    (∀ e, (loop tool loads llm n step s).1 ≠ .error (.tool e)) ↔
      RunFits tool loads fits llm n step s.world := by
  induction n generalizing step s with
  | zero => exact iff_of_true (fun _ h => by cases h) trivial
  | succ n ih =>
      rw [loop, RunFits]
      cases hllm : llm step with
      | raises => exact iff_of_true (fun _ h => by cases h) trivial
      | cancelled => exact iff_of_true (fun _ h => by cases h) trivial
      | noChoice => exact iff_of_true (fun _ h => by cases h) trivial
      | reply content calls =>
          by_cases hcalls : calls = []
          · subst hcalls
            exact iff_of_true (fun _ h => by cases h) ⟨trivial, fun h => absurd rfl h⟩
          · simp only [if_neg hcalls]
            rw [forall_prop_of_true (p := calls ≠ []) hcalls]
            have hnone := runCalls_none_iff tool loads fits hfits step calls
              (s.ask.respond step content calls)
            rcases hrun : runCalls tool loads step calls (s.ask.respond step content calls)
              with ⟨_ | e, s'⟩
            · rw [hrun] at hnone
              have hworld := runCalls_world tool loads hrun
              rw [ih, hworld]
              exact (and_iff_right (hnone.1 rfl)).symm
            · rw [hrun] at hnone
              refine iff_of_false (fun h => h e rfl) ?_
              rintro ⟨hfit, -⟩
              cases hnone.2 hfit

end

end AgentLoop
end AgentSwarm
