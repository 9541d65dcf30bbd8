import AgentSwarm.Lib.Split
import AgentSwarm.Orchestrator.Execute

/-!
# The message an external orchestrator is sent

`ExternalOrchestrator.execute` puts a summary of the session's history before the
message of the user, under a heading of its own, and when it records the turn it
takes the user's words back out of what it has sent.

* `compressHistory`, `withHistory` — the summary, and the message with it.
* `userWords` — what is recorded as the user's message.
* `externalTurn` — the two entries of the turn.
* `userWords_withHistory` — **the user's words come back** if they do not contain
  the heading themselves.
-/

namespace AgentSwarm
namespace Orchestrator

/-- `_MAX_HISTORY_TURNS`. -/
def maxHistoryTurns : ℕ := 10

/-- The label and the content of a message that is passed on: one of the user or
of the assistant, not empty. -/
def Message.said : Message → Option (String × String)
  | .user content => if content = "" then none else some ("用户", content)
  | .assistant (some content) _ => if content = "" then none else some ("助手", content)
  | _ => none

/-- The part of the history that is passed on. -/
def recentHistory (messages : List Message) : List (String × String) :=
  let said := messages.filterMap Message.said
  said.drop (said.length - maxHistoryTurns)

/-- The line of one message; a long one is cut. -/
def historyLine (label content : String) : String :=
  let content :=
    if 500 < content.length then String.ofList (content.toList.take 500) ++ "..." else content
  "**" ++ label ++ "**: " ++ content ++ "\n"

/-- `_compress_history`. -/
def compressHistory (history : List (String × String)) : String :=
  "\n".intercalate
    ("## 之前的对话历史（供参考）\n" :: history.map fun m => historyLine m.1 m.2)

/-- `"## 本次请求"`. -/
def requestHeading : List Char := ['#', '#', ' ', '本', '次', '请', '求']

/-- The heading with the line break after it. -/
def requestMarker : List Char := requestHeading ++ ['\n']

/-- The message that is sent: the user's, after the history if there is one. -/
def withHistory (messages : List Message) (userMessage : String) : String :=
  if recentHistory messages = [] then userMessage
  else compressHistory (recentHistory messages) ++ "\n\n---\n\n" ++
    String.ofList requestMarker ++ userMessage

/-- What is recorded as the user's message: the last piece of what was sent. -/
def userWords (sent : String) : String :=
  if isPartOf requestHeading sent.toList then
    String.ofList (Split.lastPiece requestMarker sent.toList)
  else sent

/-- The entries of the turn. -/
def externalTurn (sent reply : String) : List Message :=
  [.user (userWords sent), .assistant (some reply) []]

/-! ## The user's words -/

theorem isPartOf_iff (part text : List Char) : isPartOf part text = true ↔ part <:+: text := by
  induction text with
  | nil => simp [isPartOf]
  | cons c text ih =>
      rw [isPartOf, Bool.or_eq_true, List.isPrefixOf_iff_prefix, ih, List.infix_cons_iff]

theorem requestMarker_borderFree : Split.BorderFree requestMarker := by decide

theorem heading_infix_of_marker {text : List Char} (h : requestMarker <:+: text) :
    requestHeading <:+: text :=
  (List.prefix_append requestHeading ['\n']).isInfix.trans h

theorem userWords_of_not_infix {sent : String} (h : ¬ requestMarker <:+: sent.toList) :
    userWords sent = sent := by
  unfold userWords
  split
  · rw [Split.lastPiece_of_not_infix h, String.ofList_toList]
  · rfl

/-- **The user's words come back**, whatever the history, if they do not contain
the heading with its line break. -/
theorem userWords_withHistory (messages : List Message) {userMessage : String}
    (h : ¬ requestMarker <:+: userMessage.toList) :
    userWords (withHistory messages userMessage) = userMessage := by
  unfold withHistory
  split
  · exact userWords_of_not_infix h
  · have hsent : ∀ history : String,
        (history ++ "\n\n---\n\n" ++ String.ofList requestMarker ++ userMessage).toList =
          (history ++ "\n\n---\n\n").toList ++ (requestMarker ++ userMessage.toList) := by
      intro history
      rw [String.toList_append, String.toList_append, String.toList_ofList, List.append_assoc]
    unfold userWords
    rw [hsent, Split.lastPiece_append (by decide) requestMarker_borderFree,
      Split.lastPiece_of_not_infix h, String.ofList_toList, if_pos]
    rw [isPartOf_iff]
    exact heading_infix_of_marker ⟨_, _, (List.append_assoc _ _ _)⟩

end Orchestrator
end AgentSwarm
