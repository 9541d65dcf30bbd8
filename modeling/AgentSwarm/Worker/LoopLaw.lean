import Mathlib.Data.Nat.Find
import AgentSwarm.Worker.AgentLoop

/-!
# The law of the loop of a worker

When the LLM always gives a response and the tools always return a text, what `run_agent_loop`
does is settled by the responses: it goes on to the first one without tool calls, or to the limit
on iterations.

* `Inputs` — the responses in the order in which they come, the tool, and the first messages.
* `Inputs.called`, `Inputs.worldBefore` — the tools of each response, run one after another.
* `Inputs.turn`, `Inputs.events` — what a response adds to the messages and to the progress.
* `Inputs.chatBefore` — the account of the loop up to an iteration.
* `LoopLaw` — what is passed to the LLM and how often, what is returned, and the progress.
* `loop_of_endsAt`, `loop_of_busy` — the loop against the account, when a response ends it and
  when none does.
* `run_loopLaw` — **every run follows the law**.
-/

namespace AgentSwarm
namespace AgentLoop

open Orchestrator (ToolCall Message Completion Loaded toolMessages)

/-- A response of the LLM. -/
structure Response where
  content : Option String
  toolCalls : List ToolCall

/-- What `run_agent_loop` is given, but for the limit: `llm_call` gives one response after
another, and `execute_tool` returns a text, whatever it does to the state. -/
structure Inputs (W : Type) where
  responses : ℕ → Response
  tool : String → Json → W → String × W
  loads : String → Loaded
  systemPrompt : String
  userMessage : String
  world : W

variable {W E : Type}

namespace Inputs

variable (x : Inputs W)

/-- `llm_call`. -/
def llmCall (i : ℕ) : Completion := .reply (x.responses i).content (x.responses i).toolCalls

/-- `execute_tool`. -/
def executeTool (name : String) (args : Json) : Eff W E String := fun w =>
  (.ok (x.tool name args w).1, (x.tool name args w).2)

variable (E) in
/-- `run_agent_loop`. -/
def run (maxIterations : ℕ) : Except (Failure E) String × Chat W :=
  runAgentLoop x.executeTool x.loads x.llmCall x.systemPrompt x.userMessage maxIterations x.world

/-! ## The account -/

/-- Some calls with the results of their tools, and the state these leave. -/
def runTools : List ToolCall → W → List (ToolCall × String) × W
  | [], w => ([], w)
  | call :: calls, w =>
      let answer := x.tool call.name (fnArgs x.loads call.arguments) w
      let rest := runTools calls answer.2
      ((call, answer.1) :: rest.1, rest.2)

/-- The state before response `i`. -/
def worldBefore : ℕ → W
  | 0 => x.world
  | i + 1 => (x.runTools (x.responses i).toolCalls (worldBefore i)).2

/-- The calls of response `i` with the results of their tools. -/
def called (i : ℕ) : List (ToolCall × String) :=
  (x.runTools (x.responses i).toolCalls (x.worldBefore i)).1

/-- Response `i` and its tool messages. -/
def turn (i : ℕ) : List Message :=
  .assistant (x.responses i).content (x.responses i).toolCalls ::
    toolMessages ((x.called i).map fun c => (c.1.id, c.2))

/-- The event of response `i`, and those of its tools. -/
def events (i : ℕ) : List Event :=
  .assistant i (prefixOf 500 ((x.responses i).content.getD "")) ::
    (x.called i).map fun c => .tool i c.1.name (prefixOf 200 c.2)

/-- The messages before response `i`. -/
def messagesBefore (i : ℕ) : List Message :=
  [.system x.systemPrompt, .user x.userMessage] ++ (List.range i).flatMap x.turn

/-- The loop before iteration `i`, if it comes to that. -/
def chatBefore (i : ℕ) : Chat W where
  messages := x.messagesBefore i
  passed := (List.range i).map x.messagesBefore
  progress := (List.range i).flatMap x.events
  world := x.worldBefore i

/-- Response `k` is the first one without tool calls. -/
def EndsAt (k : ℕ) : Prop :=
  (x.responses k).toolCalls = [] ∧ ∀ j < k, (x.responses j).toolCalls ≠ []

end Inputs

/-- The law.  Each list passed to the LLM starts with the two messages and is in order; the LLM
is asked up to the first response without tool calls, within the limit; the content of that
response is returned, or the empty text; and there is one event for each response and for each
tool that has been run, in order. -/
structure LoopLaw (x : Inputs W) (maxIterations : ℕ) (run : Except (Failure E) String × Chat W) :
    Prop where
  starts : ∀ ms ∈ run.2.passed, [.system x.systemPrompt, .user x.userMessage] <+: ms
  inOrder : ∀ ms ∈ run.2.passed, InOrder ms
  asks : ∀ k, x.EndsAt k → run.2.passed.length = min (k + 1) maxIterations
  asks_all : (∀ k, ¬x.EndsAt k) → run.2.passed.length = maxIterations
  returns : ∀ k, x.EndsAt k → k < maxIterations → run.1 = .ok ((x.responses k).content.getD "")
  returns_empty : (∀ k < maxIterations, ¬x.EndsAt k) → run.1 = .ok ""
  progress : run.2.progress = (List.range run.2.passed.length).flatMap x.events
  executed : run.2.world = x.worldBefore run.2.passed.length

namespace Inputs

variable {x : Inputs W}

/-! ## The account, step by step -/

variable (x) in
theorem runTools_calls (calls : List ToolCall) (w : W) :
    (x.runTools calls w).1.map Prod.fst = calls := by
  induction calls generalizing w with
  | nil => rfl
  | cons call calls ih => exact congrArg (call :: ·) (ih _)

variable (x) in
/-- A turn keeps the messages in order: it has a tool message for each of its calls. -/
theorem inOrder_messagesBefore (i : ℕ) : InOrder (x.messagesBefore i) := by
  induction i with
  | zero => trivial
  | succ i ih =>
      have hids : ((x.called i).map fun c => (c.1.id, c.2)).map Prod.fst =
          (x.responses i).toolCalls.map (·.id) := by
        have hcalls := congrArg (List.map (·.id)) (x.runTools_calls (x.responses i).toolCalls
          (x.worldBefore i))
        rw [List.map_map] at hcalls ⊢
        exact hcalls
      have hturn := inOrder_turn ih (x.responses i).content hids
      rw [messagesBefore, List.range_succ, List.flatMap_append, List.flatMap_singleton,
        ← List.append_assoc]
      exact hturn

theorem EndsAt.unique {j k : ℕ} (hj : x.EndsAt j) (hk : x.EndsAt k) : j = k := by
  rcases lt_trichotomy j k with hlt | heq | hlt
  · exact absurd hj.1 (hk.2 j hlt)
  · exact heq
  · exact absurd hk.1 (hj.2 k hlt)

/-- If a response has no tool calls, a first one has none. -/
theorem exists_endsAt {n : ℕ} (h : (x.responses n).toolCalls = []) : ∃ k ≤ n, x.EndsAt k := by
  have hsome : ∃ k, (x.responses k).toolCalls = [] := ⟨n, h⟩
  refine ⟨Nat.find hsome, Nat.find_min' hsome h, Nat.find_spec hsome, ?_⟩
  exact fun j hj => Nat.find_min hsome hj

/-! ## The loop -/

/-- The calls of one response: one message and one event for each. -/
theorem runCalls_eq (step : ℕ) (calls : List ToolCall) (s : Chat W) :
    runCalls (E := E) x.executeTool x.loads step calls s = (none, {
      messages := s.messages ++
        toolMessages ((x.runTools calls s.world).1.map fun c => (c.1.id, c.2))
      passed := s.passed
      progress := s.progress ++
        (x.runTools calls s.world).1.map fun c => .tool step c.1.name (prefixOf 200 c.2)
      world := (x.runTools calls s.world).2 }) := by
  induction calls generalizing s with
  | nil => simp [runCalls, runTools, toolMessages]
  | cons call calls ih =>
      rw [runCalls]
      show runCalls (E := E) x.executeTool x.loads step calls _ = _
      rw [ih]
      simp [Chat.answer, runTools, toolMessages]

variable (x) in
/-- A response, and then its tools, is one step of the account. -/
theorem runCalls_chatBefore (i : ℕ) :
    runCalls (E := E) x.executeTool x.loads i (x.responses i).toolCalls
      ((x.chatBefore i).ask.respond i (x.responses i).content (x.responses i).toolCalls) =
        (none, x.chatBefore (i + 1)) := by
  rw [runCalls_eq]
  simp [chatBefore, Chat.ask, Chat.respond, messagesBefore, worldBefore, List.range_succ, turn,
    events, called]

/-- An iteration whose response has no tool calls. -/
theorem loop_last {n i : ℕ} (h : (x.responses i).toolCalls = []) :
    loop (E := E) x.executeTool x.loads x.llmCall (n + 1) i (x.chatBefore i) =
      (.ok ((x.responses i).content.getD ""), x.chatBefore (i + 1)) := by
  have hchat := congrArg Prod.snd (runCalls_chatBefore (E := E) x i)
  rw [loop, llmCall]
  dsimp only
  rw [if_pos h]
  rw [h] at hchat ⊢
  exact congrArg (Prod.mk _) hchat

/-- An iteration whose response has tool calls. -/
theorem loop_next {n i : ℕ} (h : (x.responses i).toolCalls ≠ []) :
    loop (E := E) x.executeTool x.loads x.llmCall (n + 1) i (x.chatBefore i) =
      loop x.executeTool x.loads x.llmCall n (i + 1) (x.chatBefore (i + 1)) := by
  rw [loop, llmCall]
  dsimp only
  rw [if_neg h, runCalls_chatBefore]

/-- **The loop up to a response that ends it.** -/
theorem loop_of_endsAt {k n i : ℕ} (h : x.EndsAt k) (hi : i ≤ k) (hk : k < i + n) :
    loop (E := E) x.executeTool x.loads x.llmCall n i (x.chatBefore i) =
      (.ok ((x.responses k).content.getD ""), x.chatBefore (k + 1)) := by
  induction n generalizing i with
  | zero => omega
  | succ n ih =>
      rcases Nat.eq_or_lt_of_le hi with rfl | hlt
      · exact loop_last h.1
      · rw [loop_next (h.2 i hlt)]
        exact ih hlt (by omega)

/-- **The loop up to the limit**, when each response has tool calls. -/
theorem loop_of_busy {n i : ℕ} (h : ∀ j < i + n, (x.responses j).toolCalls ≠ []) :
    loop (E := E) x.executeTool x.loads x.llmCall n i (x.chatBefore i) =
      (.ok "", x.chatBefore (i + n)) := by
  induction n generalizing i with
  | zero => rfl
  | succ n ih =>
      have hshift : i + (n + 1) = i + 1 + n := by omega
      rw [loop_next (h i (by omega)), hshift]
      exact ih fun j hj => h j (by omega)

/-! ## The law -/

variable {maxIterations : ℕ}

theorem run_of_endsAt {k : ℕ} (h : x.EndsAt k) (hk : k < maxIterations) :
    x.run E maxIterations = (.ok ((x.responses k).content.getD ""), x.chatBefore (k + 1)) :=
  loop_of_endsAt h (Nat.zero_le k) (by omega)

theorem run_of_not_endsAt (h : ∀ k < maxIterations, ¬x.EndsAt k) :
    x.run E maxIterations = (.ok "", x.chatBefore maxIterations) := by
  have hbusy : ∀ j < 0 + maxIterations, (x.responses j).toolCalls ≠ [] := by
    intro j hj hnone
    obtain ⟨k, hk, hend⟩ := exists_endsAt hnone
    exact h k (by omega) hend
  have hrun := loop_of_busy (E := E) hbusy
  rwa [Nat.zero_add] at hrun

theorem mem_passed_chatBefore {n : ℕ} {ms : List Message} (h : ms ∈ (x.chatBefore n).passed) :
    ∃ i < n, ms = x.messagesBefore i := by
  obtain ⟨i, hi, rfl⟩ := List.mem_map.1 h
  exact ⟨i, List.mem_range.1 hi, rfl⟩

variable (x) in
theorem length_passed_chatBefore (n : ℕ) : (x.chatBefore n).passed.length = n := by
  rw [chatBefore, List.length_map, List.length_range]

end Inputs

open Inputs

/-- What the account gives of the law, for a loop that has come to the end of iteration `n`. -/
theorem loopLaw_of_chatBefore {x : Inputs W} {maxIterations n : ℕ} {result : String}
    (hasks : ∀ k, x.EndsAt k → n = min (k + 1) maxIterations)
    (hall : (∀ k, ¬x.EndsAt k) → n = maxIterations)
    (hreturns : ∀ k, x.EndsAt k → k < maxIterations → result = (x.responses k).content.getD "")
    (hempty : (∀ k < maxIterations, ¬x.EndsAt k) → result = "") :
    LoopLaw x maxIterations
      ((.ok result, x.chatBefore n) : Except (Failure E) String × Chat W) where
  starts ms hms := by
    obtain ⟨i, -, rfl⟩ := mem_passed_chatBefore hms
    exact List.prefix_append _ _
  inOrder ms hms := by
    obtain ⟨i, -, rfl⟩ := mem_passed_chatBefore hms
    exact inOrder_messagesBefore x i
  asks k hk := (length_passed_chatBefore x n).trans (hasks k hk)
  asks_all h := (length_passed_chatBefore x n).trans (hall h)
  returns k hk hlt := congrArg Except.ok (hreturns k hk hlt)
  returns_empty h := congrArg Except.ok (hempty h)
  progress := by
    rw [length_passed_chatBefore]
    rfl
  executed := by
    rw [length_passed_chatBefore]
    rfl

variable (E) in
/-- **Every run follows the law.** -/
theorem run_loopLaw (x : Inputs W) (maxIterations : ℕ) :
    LoopLaw x maxIterations (x.run E maxIterations) := by
  by_cases hends : ∃ k < maxIterations, x.EndsAt k
  · obtain ⟨k, hk, hend⟩ := hends
    rw [run_of_endsAt hend hk]
    refine loopLaw_of_chatBefore ?_ ?_ ?_ ?_
    · intro j hj
      rw [hj.unique hend]
      omega
    · exact fun h => absurd hend (h k)
    · intro j hj _
      rw [hj.unique hend]
    · exact fun h => absurd hend (h k hk)
  · have hnone : ∀ k < maxIterations, ¬x.EndsAt k := fun k hk hend => hends ⟨k, hk, hend⟩
    rw [run_of_not_endsAt hnone]
    refine loopLaw_of_chatBefore ?_ ?_ ?_ ?_
    · intro j hj
      have hle : maxIterations ≤ j := not_lt.1 fun hlt => hnone j hlt hj
      omega
    · exact fun _ => rfl
    · exact fun j hj hlt => absurd hj (hnone j hlt)
    · exact fun _ => rfl

end AgentLoop
end AgentSwarm
