import Mathlib.Data.List.Nodup

/-!
# Message lists with tool calls

The history the orchestrator passes to the LLM is a list of chat messages.  An
assistant message may carry tool calls, and each of them is to be answered by a
tool message with its id before the next user or assistant message.

* `ToolCall`, `Message` — the messages.
* `answers` — the ids answered before the next user or assistant message.
* `WellFormed` — every tool call is answered there exactly once.
* `History` — the messages of a session, well formed.
* `wellFormed_append_of_closes` — a list may be cut before a user or assistant
  message.
* `wellFormed_turn` — when one more response with its tool messages keeps a list
  well formed.
-/

namespace AgentSwarm
namespace Orchestrator

/-- A tool call of a response; `arguments` is text that should be JSON. -/
structure ToolCall where
  id : String
  name : String
  arguments : String
  deriving DecidableEq

/-- A message, by its role.  An assistant message without tool calls has an empty
list here. -/
inductive Message where
  | system (content : String)
  | user (content : String)
  | assistant (content : Option String) (toolCalls : List ToolCall)
  | tool (toolCallId content : String)
  deriving DecidableEq

/-- A user or an assistant message. -/
def Message.closes : Message → Bool
  | .user _ => true
  | .assistant _ _ => true
  | _ => false

/-- The ids of the tool messages before the next user or assistant message. -/
def answers : List Message → List String
  | [] => []
  | .system _ :: ms => answers ms
  | .tool id _ :: ms => id :: answers ms
  | .user _ :: _ => []
  | .assistant _ _ :: _ => []

/-- Each assistant message with tool calls is followed, before any user or
assistant message, by exactly one tool message for each of its ids. -/
def WellFormed : List Message → Prop
  | [] => True
  | .assistant _ calls :: ms => (∀ call ∈ calls, (answers ms).count call.id = 1) ∧ WellFormed ms
  | _ :: ms => WellFormed ms

instance decidableWellFormed : DecidablePred WellFormed
  | [] => isTrue trivial
  | .assistant _ _ :: ms =>
      have := decidableWellFormed ms
      inferInstanceAs (Decidable (_ ∧ _))
  | .system _ :: ms => decidableWellFormed ms
  | .user _ :: ms => decidableWellFormed ms
  | .tool _ _ :: ms => decidableWellFormed ms

/-- The stored messages of a session. -/
structure History where
  messages : List Message
  wellFormed : WellFormed messages

/-! ## Cutting a list -/

theorem answers_of_closes {m : Message} (hm : m.closes) (ms : List Message) :
    answers (m :: ms) = [] := by
  cases m with
  | system => cases hm
  | tool => cases hm
  | user => rfl
  | assistant => rfl

/-- What follows a user or assistant message answers nothing before it. -/
theorem answers_append_of_closes {m : Message} (hm : m.closes) (ms xs : List Message) :
    answers (ms ++ m :: xs) = answers ms := by
  induction ms with
  | nil => exact answers_of_closes hm xs
  | cons n ms ih =>
      cases n with
      | system content => exact ih
      | user content => rfl
      | assistant content calls => rfl
      | tool id content => exact congrArg (id :: ·) ih

theorem wellFormed_append_of_closes {m : Message} (hm : m.closes) (ms xs : List Message) :
    WellFormed (ms ++ m :: xs) ↔ WellFormed ms ∧ WellFormed (m :: xs) := by
  induction ms with
  | nil => simp [WellFormed]
  | cons n ms ih =>
      cases n with
      | assistant content calls =>
          simp only [List.cons_append, WellFormed, answers_append_of_closes hm, ih, and_assoc]
      | system content => exact ih
      | user content => exact ih
      | tool id content => exact ih

theorem wellFormed_append_user (ms : List Message) (content : String) :
    WellFormed (ms ++ [.user content]) ↔ WellFormed ms := by
  rw [wellFormed_append_of_closes rfl]
  exact and_iff_left trivial

/-! ## One response with its tool messages -/

/-- Tool messages, by id and content. -/
def toolMessages (replies : List (String × String)) : List Message :=
  replies.map fun reply => .tool reply.1 reply.2

theorem answers_toolMessages (replies : List (String × String)) :
    answers (toolMessages replies) = replies.map Prod.fst := by
  induction replies with
  | nil => rfl
  | cons reply replies ih => exact congrArg (reply.1 :: ·) ih

theorem wellFormed_toolMessages (replies : List (String × String)) :
    WellFormed (toolMessages replies) := by
  induction replies with
  | nil => trivial
  | cons reply replies ih => exact ih

/-- **One turn.**  A response and its tool messages keep a list well formed exactly
when each id of the response has exactly one of them. -/
theorem wellFormed_turn {ms : List Message} (h : WellFormed ms) (content : Option String)
    (calls : List ToolCall) (replies : List (String × String)) :
    WellFormed (ms ++ .assistant content calls :: toolMessages replies) ↔
      ∀ call ∈ calls, (replies.map Prod.fst).count call.id = 1 := by
  rw [wellFormed_append_of_closes rfl, and_iff_right h, WellFormed, answers_toolMessages]
  exact and_iff_left (wellFormed_toolMessages replies)

/-- No two of the answered calls share an id, and a call that is not answered
has the id of one that is. -/
structure Covered (calls answered : List ToolCall) : Prop where
  distinct : (answered.map ToolCall.id).Nodup
  all : ∀ call ∈ calls, call.id ∈ answered.map ToolCall.id

instance (calls answered : List ToolCall) : Decidable (Covered calls answered) :=
  decidable_of_iff ((answered.map ToolCall.id).Nodup ∧
    ∀ call ∈ calls, call.id ∈ answered.map ToolCall.id) ⟨fun h => ⟨h.1, h.2⟩, fun h => ⟨h.1, h.2⟩⟩

/-- Covered calls are those with exactly one answer each. -/
theorem covered_iff_count {calls answered : List ToolCall} (hsub : answered ⊆ calls) :
    Covered calls answered ↔
      ∀ call ∈ calls, (answered.map ToolCall.id).count call.id = 1 := by
  constructor
  · intro h call hcall
    exact List.count_eq_one_of_mem h.distinct (h.all call hcall)
  · intro h
    refine ⟨List.nodup_iff_count_eq_one.2 ?_, ?_⟩
    · intro id hid
      obtain ⟨call, hcall, rfl⟩ := List.mem_map.1 hid
      exact h call (hsub hcall)
    · intro call hcall
      have hcount : (answered.map ToolCall.id).count call.id = 1 := h call hcall
      exact List.count_pos_iff.1 (by omega)

/-- When the ids differ, only an answer to every call covers them. -/
theorem covered_iff_of_nodup {calls answered : List ToolCall} (hinitial : answered <+: calls)
    (hids : (calls.map ToolCall.id).Nodup) : Covered calls answered ↔ answered = calls := by
  constructor
  · rintro ⟨-, hall⟩
    refine hinitial.eq_of_length (Nat.le_antisymm hinitial.length_le ?_)
    have hlength : (calls.map ToolCall.id).length ≤ (answered.map ToolCall.id).length := by
      refine List.Nodup.length_le_of_subset hids ?_
      intro id hid
      obtain ⟨call, hcall, rfl⟩ := List.mem_map.1 hid
      exact hall call hcall
    simpa using hlength
  · rintro rfl
    exact ⟨hids, fun call hcall => List.mem_map_of_mem hcall⟩

end Orchestrator
end AgentSwarm
