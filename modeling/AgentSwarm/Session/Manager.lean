import Mathlib.Logic.Function.Basic
import AgentSwarm.Lib.Dict

/-!
# The session manager

`SessionManager` finds a session by its id: among the sessions in memory, in the
SQLite store, or in the file `_session/context.json` of the session's directory.
The first two are looked up by the session id alone; the directory is named after
the tenant too.

* `SessionState`, `SessionRow`, `Context` — a session, its row, and its file.
* `SessionManager` — the sessions in memory, with the store and the files.
* `getOrCreate`, `save`, `restart`.
* `Found` — the session that an id leads to.

A session in memory is an object that requests share, so it is known by a number.
`dir` gives the directory that the path of a tenant and a session leads to.  The
times of creation are left out.
-/

namespace AgentSwarm
namespace Sessions

variable {D M : Type}

/-- A session in memory. -/
structure SessionState (D M : Type) where
  sessionId : String
  tenantId : String
  workDir : D
  messages : List M := []
  sharedContext : String := ""

/-- A row of `sessions`, less its primary key. -/
structure SessionRow (D M : Type) where
  tenantId : String
  workDir : D
  messages : List M
  sharedContext : String

/-- What `_session/context.json` holds. -/
structure Context (M : Type) where
  messages : List M
  sharedContext : String

/-- A session manager.  `store` is the table of the SQLite store, if it has one. -/
structure SessionManager (D M : Type) where
  sessions : Dict String ℕ
  objects : ℕ → SessionState D M
  /-- The number of the next object. -/
  next : ℕ
  store : Option (Dict String (SessionRow D M))
  disk : Dict D (Context M)

variable [DecidableEq D] (dir : String → String → D)

/-- `if session_id:` — an empty id is no id. -/
def idOf (sessionId : Option String) : Option String := sessionId.filter (· ≠ "")

namespace SessionManager

/-- `_load_from_disk`. -/
def loadFromDisk (m : SessionManager D M) (sessionId tenantId : String) :
    Option (SessionState D M) :=
  (m.disk.get (dir tenantId sessionId)).map fun context => {
    sessionId := sessionId, tenantId := tenantId, workDir := dir tenantId sessionId
    messages := context.messages, sharedContext := context.sharedContext }

/-- The session of a row. -/
def ofRow (sessionId : String) (row : SessionRow D M) : SessionState D M :=
  { sessionId := sessionId, tenantId := row.tenantId, workDir := row.workDir
    messages := row.messages, sharedContext := row.sharedContext }

/-- `_load_persistent`: from the store, or else from the session's file. -/
def loadPersistent (m : SessionManager D M) (sessionId tenantId : String) :
    Option (SessionState D M) :=
  match m.store.bind (·.get sessionId) with
  | some row => some (ofRow sessionId row)
  | none => m.loadFromDisk dir sessionId tenantId

/-- `self._sessions[sid] = state`, for a new object. -/
def add (m : SessionManager D M) (state : SessionState D M) : SessionManager D M :=
  { m with
    sessions := m.sessions.set state.sessionId m.next
    objects := Function.update m.objects m.next state
    next := m.next + 1 }

/-- A session of its own for a new id. -/
def blank (sessionId tenantId : String) : SessionState D M :=
  { sessionId := sessionId, tenantId := tenantId, workDir := dir tenantId sessionId }

/-- `get_or_create`: the object, and the manager.  `newId` is what `uuid4` gives. -/
def getOrCreate (m : SessionManager D M) (sessionId : Option String) (tenantId newId : String) :
    ℕ × SessionManager D M :=
  match idOf sessionId with
  | none => (m.next, m.add (blank dir newId tenantId))
  | some sid =>
      match m.sessions.get sid with
      | some o => (o, m)
      | none =>
          match m.loadPersistent dir sid tenantId with
          | some loaded => (m.next, m.add loaded)
          | none => (m.next, m.add (blank dir sid tenantId))

/-- `save` of the object `o`: to the store if there is one, or else to its file. -/
def save (m : SessionManager D M) (o : ℕ) : SessionManager D M :=
  let state := m.objects o
  match m.store with
  | some table =>
      { m with store := some (table.replace state.sessionId {
          tenantId := state.tenantId, workDir := state.workDir
          messages := state.messages, sharedContext := state.sharedContext }) }
  | none =>
      let context := ⟨state.messages, state.sharedContext⟩
      { m with disk := m.disk.set (dir state.tenantId state.sessionId) context }

/-- The object `o` is changed by a run. -/
def modify (m : SessionManager D M) (o : ℕ) (messages : List M) (sharedContext : String) :
    SessionManager D M :=
  let state := { m.objects o with messages := messages, sharedContext := sharedContext }
  { m with objects := Function.update m.objects o state }

/-- A fresh manager over the same store and the same files. -/
def restart (m : SessionManager D M) : SessionManager D M := { m with sessions := [] }

/-- The session that an id leads to. -/
def Found (m : SessionManager D M) (sessionId tenantId : String) : Prop :=
  sessionId ∈ m.sessions.keys ∨ (m.store.bind (·.get sessionId)).isSome ∨
    (m.disk.get (dir tenantId sessionId)).isSome

/-! ## What `get_or_create` returns -/

/-- **What `get_or_create` returns**: a session in memory under the id, one that
was loaded under the id, or a new one of the tenant. -/
theorem getOrCreate_cases (dir : String → String → D) (m : SessionManager D M) (sessionId : Option String)
    (tenantId newId : String) :
    (∃ sid o, idOf sessionId = some sid ∧ m.sessions.get sid = some o ∧
        m.getOrCreate dir sessionId tenantId newId = (o, m)) ∨
      (∃ sid row, idOf sessionId = some sid ∧ m.store.bind (·.get sid) = some row ∧
        m.getOrCreate dir sessionId tenantId newId = (m.next, m.add (ofRow sid row))) ∨
      (∃ sid context, idOf sessionId = some sid ∧ m.disk.get (dir tenantId sid) = some context ∧
        m.getOrCreate dir sessionId tenantId newId = (m.next, m.add {
          sessionId := sid, tenantId := tenantId, workDir := dir tenantId sid
          messages := context.messages, sharedContext := context.sharedContext })) ∨
      m.getOrCreate dir sessionId tenantId newId =
        (m.next, m.add (blank dir ((idOf sessionId).getD newId) tenantId)) := by
  unfold getOrCreate
  cases hid : idOf sessionId with
  | none => exact .inr (.inr (.inr rfl))
  | some sid =>
      dsimp only
      cases hmem : m.sessions.get sid with
      | some o => exact .inl ⟨sid, o, rfl, hmem, rfl⟩
      | none =>
          dsimp only
          unfold loadPersistent
          cases hrow : m.store.bind (·.get sid) with
          | some row => exact .inr (.inl ⟨sid, row, rfl, hrow, rfl⟩)
          | none =>
              dsimp only
              unfold loadFromDisk
              cases hdisk : m.disk.get (dir tenantId sid) with
              | some context => exact .inr (.inr (.inl ⟨sid, context, rfl, hdisk, rfl⟩))
              | none => exact .inr (.inr (.inr rfl))

end SessionManager
end Sessions
end AgentSwarm
