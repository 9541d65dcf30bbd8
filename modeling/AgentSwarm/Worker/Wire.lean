import AgentSwarm.Common.A2AClient
import AgentSwarm.Worker.Tasks

/-!
# Tasks on the wire

The worker answers `message/send` and `tasks/get` with its record of the task as
JSON, and the client reads a task from the answer: the state, the progress, and
as the message the text of the last entry of the history that is the agent's.

* `Record.toJson`, `Server.handleGetTask`, `sent`, `finished` — the answers of the
  worker.
* `A2AClient.parseTask`, `A2AClient.sendReply`, `A2AClient.getReply` — what the
  client makes of an answer.
* `Record.toTask` — the task a record stands for.
* `parseTask_toJson` — **the round trip**: the client reads that task.

Of a record, the ids of its context and of its messages are left out, which the
client does not read.  A value of another shape than the client expects makes it
return no task.
-/

namespace AgentSwarm

/-- A JSON value that is this text. -/
def Json.isStr (text : String) : Json → Bool
  | .str s => s == text
  | _ => false

/-- The entries of an object. -/
def Json.fields : Json → JsonObj
  | .obj o => o
  | _ => []

/-! ## The answers of the worker -/

namespace Worker

def TaskState.text : TaskState → String
  | .working => "working"
  | .completed => "completed"
  | .failed => "failed"
  | .canceled => "canceled"
  | .unknown => "unknown"

/-- An entry of the history. -/
def messageJson (entry : String × String) : Json :=
  .obj [("role", .str entry.1),
    ("parts", .arr [.obj [("kind", .str "text"), ("text", .str entry.2)]])]

section Answers

-- `event` is the progress event that a text stands for.
variable (event : String → JsonObj)

/-- The record, as a value of `_tasks`. -/
def Record.toJson (taskId : String) (record : Record) : JsonObj :=
  [("id", .str taskId),
    ("status", .obj [("state", .str record.state.text)]),
    ("history", .arr (record.history.map messageJson)),
    ("progress", .arr (record.progress.map fun text => .obj (event text)))] ++
    (record.completedAt.map fun at_ => ("_completed_at", Json.num at_)).toList

/-- A JSON-RPC answer with a result. -/
def resultReply (requestId : ℚ) (task : JsonObj) : JsonObj :=
  [("jsonrpc", .str "2.0"), ("id", .num requestId), ("result", .obj task)]

/-- The answer for an id that has no record. -/
def notFoundReply (requestId : ℚ) : JsonObj :=
  [("jsonrpc", .str "2.0"), ("id", .num requestId),
    ("error", .obj [("code", .num (-32001)), ("message", .str "Task not found")])]

/-- `handle_get_task`. -/
def Server.handleGetTask (s : Server) (taskId : String) : JsonObj :=
  match s.getTask taskId with
  | none => notFoundReply 2
  | some record => resultReply 2 (record.toJson event taskId)

/-- `handle_send_message` without blocking. -/
def sent (taskId : String) : JsonObj :=
  resultReply 1 [("id", .str taskId), ("status", .obj [("state", .str "working")])]

/-- `handle_send_message` with blocking, after `_run`. -/
def finished (taskId : String) (record : Record) : JsonObj :=
  resultReply 1 (record.toJson event taskId)

/-- The text of the last entry of the history that is the agent's. -/
def Record.reply (record : Record) : String :=
  ((record.history.reverse.find? fun entry => entry.1 == "agent").map Prod.snd).getD ""

/-- The task that the record stands for. -/
def Record.toTask (taskId : String) (record : Record) : A2ATask where
  taskId := taskId
  state := record.state.text
  message := some record.reply
  progress := record.progress.map event

end Answers

end Worker

/-! ## What the client makes of them -/

namespace A2AClient

/-- `data.get(key, {})`. -/
def getObj (data : JsonObj) (key : String) : Option JsonObj :=
  match data.get key with
  | none => some []
  | some (.obj o) => some o
  | some _ => none

/-- `data.get(key, [])`. -/
def getArr (data : JsonObj) (key : String) : Option (List Json) :=
  match data.get key with
  | none => some []
  | some (.arr xs) => some xs
  | some _ => none

/-- `data.get(key, default)`, for a text. -/
def getStr (data : JsonObj) (key default : String) : Option String :=
  match data.get key with
  | none => some default
  | some (.str s) => some s
  | some _ => none

/-- The texts of the parts of a message. -/
def partTexts : List Json → Option (List String)
  | [] => some []
  | .obj part :: parts =>
      if (Dict.get part "kind").any (·.isStr "text") then do
        let text ← getStr part "text" ""
        let texts ← partTexts parts
        some (text :: texts)
      else partTexts parts
  | _ :: _ => none

/-- The text of the first of the messages that is the agent's. -/
def agentText : List Json → Option String
  | [] => some ""
  | .obj item :: items =>
      if (Dict.get item "role").any (·.isStr "agent") then do
        let parts ← getArr item "parts"
        let texts ← partTexts parts
        some (" ".intercalate texts)
      else agentText items
  | _ :: _ => none

/-- `_extract_text`. -/
def extractText (data : JsonObj) : Option String := do
  let history ← getArr data "history"
  agentText history.reverse

/-- The task in an answer; the id is `defaultId` when it has none. -/
def parseTask (data : JsonObj) (defaultId : String) : Option A2ATask := do
  let taskId ← getStr data "id" defaultId
  let status ← getObj data "status"
  let state ← getStr status "state" "unknown"
  let message ← extractText data
  let progress ← getArr data "progress"
  some { taskId := taskId, state := state, message := some message
         progress := progress.map Json.fields }

/-- `send_message`, given the answer. -/
def sendReply (reply : JsonObj) : Option A2ATask :=
  if (reply.get "error").isSome then none
  else do
    let data ← getObj reply "result"
    parseTask data ""

/-- `get_task`, given the answer. -/
def getReply (taskId : String) (reply : JsonObj) : Option A2ATask := do
  let data ← getObj reply "result"
  parseTask data taskId

end A2AClient

/-! ## The round trip -/

open A2AClient

namespace Worker

variable {event : String → JsonObj}

theorem agentText_messages (entries : List (String × String)) :
    agentText (entries.map messageJson) =
      some (((entries.find? fun entry => entry.1 == "agent").map Prod.snd).getD "") := by
  induction entries with
  | nil => rfl
  | cons entry entries ih =>
      by_cases hrole : entry.1 = "agent"
      · simp [agentText, messageJson, Dict.get_cons, Json.isStr, getArr, partTexts, getStr, hrole]
      · simp [agentText, messageJson, Dict.get_cons, Json.isStr, hrole, ih]

theorem extractText_toJson (taskId : String) (record : Record) :
    extractText (record.toJson event taskId) = some record.reply := by
  have hhistory : getArr (record.toJson event taskId) "history" =
      some (record.history.map messageJson) := by
    simp [getArr, Record.toJson, Dict.get_cons]
  rw [extractText, hhistory, Record.reply, ← agentText_messages, List.map_reverse]
  rfl

/-- **The round trip.**  The client reads the task that the record stands for. -/
theorem parseTask_toJson (taskId defaultId : String) (record : Record) :
    parseTask (record.toJson event taskId) defaultId = some (record.toTask event taskId) := by
  have hprogress : getArr (record.toJson event taskId) "progress" =
      some (record.progress.map fun text => .obj (event text)) := by
    simp [getArr, Record.toJson, Dict.get_cons]
  have hstatus : getObj (record.toJson event taskId) "status" =
      some [("state", .str record.state.text)] := by
    simp [getObj, Record.toJson, Dict.get_cons]
  have hid : getStr (record.toJson event taskId) "id" defaultId = some taskId := by
    simp [getStr, Record.toJson, Dict.get_cons]
  have hstate : getStr [("state", .str record.state.text)] "state" "unknown" =
      some record.state.text := rfl
  simp [parseTask, hid, hstatus, hstate, hprogress, extractText_toJson, Record.toTask,
    Function.comp_def, Json.fields]

/-- `tasks/get`, there and back. -/
theorem getReply_handleGetTask (s : Server) (taskId : String) {r : ℕ}
    (hget : s.tasks.get taskId = some r) :
    getReply taskId (s.handleGetTask event taskId) = some ((s.records r).toTask event taskId) := by
  simp [Server.handleGetTask, Server.getTask, hget, getReply, resultReply, getObj, Dict.get_cons,
    parseTask_toJson]

/-- A blocking `message/send`, there and back. -/
theorem sendReply_finished (taskId : String) (record : Record) :
    sendReply (finished event taskId record) = some (record.toTask event taskId) := by
  simp [finished, sendReply, resultReply, getObj, Dict.get_cons, parseTask_toJson]

/-- A `message/send` that does not block gives a task to poll. -/
theorem sendReply_sent (taskId : String) :
    sendReply (sent taskId) =
      some { taskId := taskId, state := "working", message := some "" } := by
  simp [sent, sendReply, resultReply, getObj, getStr, getArr, Dict.get_cons, parseTask, extractText,
    agentText]

end Worker
end AgentSwarm
