import AgentSwarm.Dispatcher.Base
import AgentSwarm.Session.WorkDirs

/-!
# The work folder of a session

Three kinds of requests create tasks in a session.  `POST /api/chat` asks the
session manager for the session and gives the task the manager's folder; a
direct chat and `POST /api/internal/dispatch` ask the session service.  Either
store keeps the folder it has for an id and makes one from the tenant and the id
otherwise, and the tenants differ: a direct chat is always of `default`.

* `getOrCreateWithId` — what the service answers, `service_run` — as it does.
* `State`, `Event`, `step` — the two stores, the tasks, and the requests, one after
  the other.
* `OneFolder` — the tasks of a session have the folder that the service reports.
* `Known` — the invariant: the service knows every session that the manager has.
* `Agrees` — the condition: a session that the manager does not have, and the service
  does, has the folder of its id and the request's tenant.
* `oneFolder_iff_agrees` — the tasks have one folder **exactly** in the runs that
  meet it.
* `not_oneFolder` — a direct chat, and then a chat of another tenant.
-/

namespace AgentSwarm
namespace WorkFolders

open Dispatcher (orElse)
open AgentSwarm.Path Sessions WorkDirs

variable (base : PurePath)

/-! ## The session service -/

/-- The table `sessions_v2`. -/
abbrev Table := String → Option SessionService.Row

/-- The folder that the service reports for a session. -/
def folderOf (db : Table) (sessionId : String) : Option PurePath :=
  (db sessionId).map fun row => .ofString row.workDir

/-- `get_or_create_with_id`: the row, and the table. -/
def getOrCreateWithId (db : Table) (sessionId tenantId : String) (now : ℚ) :
    SessionService.Row × Table :=
  match db sessionId with
  | some row => (row, db)
  | none =>
      let sess := SessionService.blank (fun t s => (sessionDir base t s).str) sessionId tenantId now
      (sess.toRow, Function.update db sessionId (some sess.toRow))

section Service

variable {base} {db : Table} {sessionId tenantId : String} {now : ℚ}

/-- A call of the service that no other call comes between. -/
theorem service_run {prog : ℕ → SessionService.Call} {svc : SessionService.Svc} {i : ℕ}
    (hprog : prog i = .getOrCreateWithId sessionId tenantId) (hpc : svc.pc i = .start) (now : ℚ) :
    ∃ as t, Run.exec (SessionService.step (fun t s => (sessionDir base t s).str) prog) svc as =
        some t ∧ (∀ a ∈ as, a.call = i) ∧
      t.db = (getOrCreateWithId base svc.db sessionId tenantId now).2 ∧
      t.pc i = .returned (some { (getOrCreateWithId base svc.db sessionId tenantId now).1 with
        sessionId := sessionId }) := by
  cases hrow : svc.db sessionId with
  | some row =>
      refine ⟨[⟨i, now⟩], svc.goto i (.returned (some { row with sessionId := sessionId })), ?_, ?_,
        ?_, ?_⟩
      · simp [Run.exec, SessionService.step, hpc, hprog, SessionService.Call.sessionId,
          SessionService.Svc.getSession, hrow]
      · simp
      · simp [SessionService.Svc.goto, getOrCreateWithId, hrow]
      · simp [SessionService.Svc.goto, getOrCreateWithId, hrow]
  | none =>
      let sess := SessionService.blank (fun t s => (sessionDir base t s).str) sessionId tenantId now
      refine ⟨[⟨i, now⟩, ⟨i, now⟩, ⟨i, now⟩],
        (((svc.goto i .missing).goto i (.creating sess)).save sess).goto i (.returned (some sess)),
        ?_, ?_, ?_, ?_⟩
      · simp [Run.exec, SessionService.step, hpc, hprog, SessionService.Call.sessionId,
          SessionService.Svc.getSession, hrow, SessionService.Svc.goto, sess]
      · simp
      · simp [SessionService.Svc.goto, SessionService.Svc.save, getOrCreateWithId, hrow, sess,
          SessionService.blank]
      · simp [SessionService.Svc.goto, getOrCreateWithId, hrow, sess, SessionService.blank]

/-- The folder in the row, and in the table from then on. -/
theorem folderOf_getOrCreateWithId :
    folderOf (getOrCreateWithId base db sessionId tenantId now).2 sessionId =
        some (.ofString (getOrCreateWithId base db sessionId tenantId now).1.workDir) ∧
      PurePath.ofString (getOrCreateWithId base db sessionId tenantId now).1.workDir =
        (folderOf db sessionId).getD (sessionDir base tenantId sessionId) := by
  unfold getOrCreateWithId
  cases hrow : db sessionId with
  | some row => simp [folderOf, hrow]
  | none => simp [folderOf, hrow, SessionService.blank, PurePath.ofString_str]

/-- A session keeps its folder. -/
theorem folderOf_keeps {sid : String} {d : PurePath} (h : folderOf db sid = some d) :
    folderOf (getOrCreateWithId base db sessionId tenantId now).2 sid = some d := by
  unfold getOrCreateWithId
  cases hrow : db sessionId with
  | some row => exact h
  | none =>
      have hne : sid ≠ sessionId := by
        rintro rfl
        simp [folderOf, hrow] at h
      simpa [folderOf, hne] using h

end Service

/-! ## The requests -/

/-- The two stores, and the tasks with their sessions and folders. -/
structure State where
  manager : SessionManager PurePath Unit
  db : Table
  tasks : List (String × PurePath)

/-- A manager without sessions, and a service with any. -/
def init (store : Bool) (db : Table) : State := ⟨fresh base store, db, []⟩

/-- A request without an explicit `shared_dir`, or what happens between requests.
`newId` is what `uuid4` gives. -/
inductive Event where
  | chat (tenantId sessionId : Option String) (newId : String) (now : ℚ)
  | directChat (sessionId : String) (now : ℚ)
  | internalDispatch (tenantId : String) (sessionId taskId : Option String) (now : ℚ)
  /-- The run of a chat saves its session. -/
  | save (o : ℕ)
  | restart

/-- One request.  An internal dispatch without a session has a task of none, and one
with a task creates none. -/
def step (s : State) : Event → Option State
  | .chat tenantId sessionId newId now =>
      let tenant := orElse tenantId "default"
      let (o, manager) := s.manager.getOrCreate (sessionDir base) sessionId tenant newId
      let sess := manager.objects o
      let (_, db) := getOrCreateWithId base s.db sess.sessionId tenant now
      some ⟨manager, db, s.tasks ++ [(sess.sessionId, sess.workDir)]⟩
  | .directChat sessionId now =>
      let (row, db) := getOrCreateWithId base s.db sessionId "default" now
      some { s with db := db, tasks := s.tasks ++ [(sessionId, .ofString row.workDir)] }
  | .internalDispatch tenantId sessionId taskId now =>
      match idOf sessionId with
      | none => some s
      | some sid =>
          let (row, db) := getOrCreateWithId base s.db sid (orElse (some tenantId) "default") now
          match taskId with
          | none => some { s with db := db, tasks := s.tasks ++ [(sid, .ofString row.workDir)] }
          | some _ => some { s with db := db }
  | .save o =>
      if o < s.manager.next then some { s with manager := s.manager.save (sessionDir base) o }
      else none
  | .restart => some { s with manager := s.manager.restart }

/-! ## The property and the condition -/

/-- **One session, one work folder**, and it is the one that the service reports. -/
structure OneFolder (s : State) : Prop where
  same : ∀ p ∈ s.tasks, ∀ q ∈ s.tasks, p.1 = q.1 → p.2 = q.2
  reported : ∀ p ∈ s.tasks, folderOf s.db p.1 = some p.2

/-- The id of the session of a chat that the manager does not have, neither in memory
nor in its table. -/
def State.newSession (s : State) (sessionId : Option String) (newId : String) : Option String :=
  match idOf sessionId with
  | none => some newId
  | some sid =>
      match s.manager.sessions.get sid, s.manager.store.bind (·.get sid) with
      | none, none => some sid
      | _, _ => none

/-- A session that only the service has is in the folder of its id and the tenant of
the chat. -/
def Agrees (s : State) : Event → Prop
  | .chat tenantId sessionId newId _ =>
      ∀ sid d, s.newSession sessionId newId = some sid → folderOf s.db sid = some d →
        d = sessionDir base (orElse tenantId "default") sid
  | _ => True

variable {base} {s t : State} {e : Event}

theorem oneFolder_of_reported (h : ∀ p ∈ s.tasks, folderOf s.db p.1 = some p.2) : OneFolder s where
  same p hp q hq hsid := by
    have hfolder := h p hp
    rw [hsid, h q hq] at hfolder
    exact (Option.some.inj hfolder).symm
  reported := h

/-- A request with a task: its folder decides. -/
theorem oneFolder_task_iff {p : String × PurePath} (htasks : t.tasks = s.tasks ++ [p])
    (hkeeps : ∀ sid d, folderOf s.db sid = some d → folderOf t.db sid = some d)
    (hs : OneFolder s) : OneFolder t ↔ folderOf t.db p.1 = some p.2 := by
  constructor
  · intro ht
    exact ht.reported p (by simp [htasks])
  · intro hp
    refine oneFolder_of_reported fun q hq => ?_
    rw [htasks, List.mem_append, List.mem_singleton] at hq
    rcases hq with hq | rfl
    · exact hkeeps q.1 q.2 (hs.reported q hq)
    · exact hp

/-! ## The invariant -/

/-- The service reports the folder of every session that the manager has, in memory or
in its table. -/
structure Known (s : State) : Prop where
  objects : ∀ o < s.manager.next,
    folderOf s.db (s.manager.objects o).sessionId = some (s.manager.objects o).workDir
  memory : ∀ sid o, s.manager.sessions.get sid = some o →
    o < s.manager.next ∧ (s.manager.objects o).sessionId = sid
  table : ∀ sid row, s.manager.store.bind (·.get sid) = some row →
    folderOf s.db sid = some row.workDir

theorem known_init (store : Bool) (db : Table) : Known (init base store db) where
  objects _ h := absurd h (Nat.not_lt_zero _)
  memory _ _ h := nomatch h
  table sid row h := by cases store <;> simp [init, fresh] at h

/-- What the service knows it goes on knowing. -/
theorem Known.mono (h : Known s) {db : Table}
    (hkeeps : ∀ sid d, folderOf s.db sid = some d → folderOf db sid = some d)
    (tasks : List (String × PurePath)) : Known ⟨s.manager, db, tasks⟩ where
  objects o ho := hkeeps _ _ (h.objects o ho)
  memory := h.memory
  table sid row hrow := hkeeps _ _ (h.table sid row hrow)

/-- The manager has one session more. -/
theorem Known.add (h : Known s) {state : SessionState PurePath Unit}
    (hstate : folderOf s.db state.sessionId = some state.workDir) :
    Known { s with manager := s.manager.add state } where
  objects o ho := by
    by_cases hnew : o = s.manager.next
    · subst hnew
      simpa [SessionManager.add] using hstate
    · have hlt : o < s.manager.next := Nat.lt_of_le_of_ne (Nat.le_of_lt_succ ho) hnew
      simpa [SessionManager.add, hnew] using h.objects o hlt
  memory sid o hget := by
    simp only [SessionManager.add, Dict.get_set] at hget ⊢
    split at hget
    · rename_i hsid
      obtain rfl := Option.some.inj hget
      exact ⟨Nat.lt_succ_self _, by simp [hsid]⟩
    · obtain ⟨hlt, hid⟩ := h.memory sid o hget
      exact ⟨hlt.trans (Nat.lt_succ_self _), by simp [hlt.ne, hid]⟩
  table := h.table

/-- The manager saves one of its sessions. -/
theorem Known.save (h : Known s) {o : ℕ} (ho : o < s.manager.next) :
    Known { s with manager := s.manager.save (sessionDir base) o } := by
  cases hstore : s.manager.store with
  | none =>
      refine ⟨?_, ?_, ?_⟩
      · simpa [SessionManager.save, hstore] using h.objects
      · simpa [SessionManager.save, hstore] using h.memory
      · simp [SessionManager.save, hstore]
  | some table =>
      refine ⟨?_, ?_, ?_⟩
      · simpa [SessionManager.save, hstore] using h.objects
      · simpa [SessionManager.save, hstore] using h.memory
      · intro sid row hrow
        simp only [SessionManager.save, hstore, Option.bind_some, Dict.get_replace] at hrow
        split at hrow
        · rename_i hsid
          obtain rfl := Option.some.inj hrow
          exact hsid ▸ h.objects o ho
        · exact h.table sid row (by simpa [hstore] using hrow)

/-! ## A chat -/

variable (base) in
/-- What the manager answers a chat with: a session that the service knows, or a new
one in the folder of its names. -/
theorem getOrCreate_session (h : Known s) (sessionId : Option String) (tenantId newId : String) :
    ∃ o manager sess, s.manager.getOrCreate (sessionDir base) sessionId tenantId newId =
        (o, manager) ∧ manager.objects o = sess ∧
      ((folderOf s.db sess.sessionId = some sess.workDir ∧ s.newSession sessionId newId = none ∧
          (manager = s.manager ∨ manager = s.manager.add sess)) ∨
        (s.newSession sessionId newId = some sess.sessionId ∧
          sess.workDir = sessionDir base tenantId sess.sessionId ∧
          manager = s.manager.add sess)) := by
  have hadded : ∀ sess, (s.manager.add sess).objects s.manager.next = sess :=
    fun sess => Function.update_self ..
  cases hid : idOf sessionId with
  | none =>
      refine ⟨s.manager.next, _, _, ?_,
        hadded (SessionManager.blank (sessionDir base) newId tenantId), .inr ⟨?_, rfl, rfl⟩⟩
      · simp [SessionManager.getOrCreate, hid]
      · simp [State.newSession, hid, SessionManager.blank]
  | some sid =>
      cases hmem : s.manager.sessions.get sid with
      | some o =>
          obtain ⟨hlt, -⟩ := h.memory sid o hmem
          refine ⟨o, s.manager, _, by simp [SessionManager.getOrCreate, hid, hmem], rfl,
            .inl ⟨h.objects o hlt, ?_, .inl rfl⟩⟩
          simp [State.newSession, hid, hmem]
      | none =>
          cases hrow : s.manager.store.bind (·.get sid) with
          | some row =>
              refine ⟨s.manager.next, _, _, ?_, hadded (SessionManager.ofRow sid row),
                .inl ⟨h.table sid row hrow, ?_, .inr rfl⟩⟩
              · simp [SessionManager.getOrCreate, hid, hmem, SessionManager.loadPersistent, hrow]
              · simp [State.newSession, hid, hmem, hrow]
          | none =>
              have hnew : s.newSession sessionId newId = some sid := by
                simp [State.newSession, hid, hmem, hrow]
              cases hdisk : s.manager.loadFromDisk (sessionDir base) sid tenantId with
              | none =>
                  refine ⟨s.manager.next, _, _, ?_,
                    hadded (SessionManager.blank (sessionDir base) sid tenantId),
                    .inr ⟨hnew, rfl, rfl⟩⟩
                  simp [SessionManager.getOrCreate, hid, hmem, SessionManager.loadPersistent, hrow,
                    hdisk]
              | some loaded =>
                  have hcall : s.manager.getOrCreate (sessionDir base) sessionId tenantId newId =
                      (s.manager.next, s.manager.add loaded) := by
                    simp [SessionManager.getOrCreate, hid, hmem, SessionManager.loadPersistent,
                      hrow, hdisk]
                  obtain ⟨context, -, rfl⟩ := Option.map_eq_some_iff.1 hdisk
                  exact ⟨_, _, _, hcall, hadded _, .inr ⟨hnew, rfl, rfl⟩⟩

/-- **A chat.**  Its task has the folder that the service reports exactly when the
condition is met. -/
theorem chat_step (h : Known s) (hs : OneFolder s) {tenantId sessionId : Option String}
    {newId : String} {now : ℚ}
    (ht : step base s (.chat tenantId sessionId newId now) = some t) :
    (OneFolder t ↔ Agrees base s (.chat tenantId sessionId newId now)) ∧
      (OneFolder t → Known t) := by
  obtain ⟨o, manager, sess, hcall, hsess, hcases⟩ := getOrCreate_session base h sessionId
    (orElse tenantId "default") newId
  simp only [step, hcall, hsess, Option.some.injEq] at ht
  obtain ⟨hfolder, hdir⟩ := @folderOf_getOrCreateWithId base s.db sess.sessionId
    (orElse tenantId "default") now
  have hkeeps : ∀ sid d, folderOf s.db sid = some d → folderOf t.db sid = some d := by
    intro sid d hd
    exact ht ▸ folderOf_keeps hd
  have htask : OneFolder t ↔ folderOf t.db sess.sessionId = some sess.workDir :=
    oneFolder_task_iff (by rw [← ht]) hkeeps hs
  have hreported : folderOf t.db sess.sessionId =
      some ((folderOf s.db sess.sessionId).getD
        (sessionDir base (orElse tenantId "default") sess.sessionId)) := by
    rw [← ht, ← hdir]
    exact hfolder
  constructor
  · rw [htask, hreported, Option.some.injEq]
    rcases hcases with ⟨hknown, hnone, -⟩ | ⟨hnew, hwork, -⟩
    · simp [Agrees, hknown, hnone]
    · rw [hwork]
      constructor
      · intro hsame sid d hsid hold
        obtain rfl : sess.sessionId = sid := Option.some.inj (hnew.symm.trans hsid)
        rwa [hold] at hsame
      · intro hagrees
        cases hold : folderOf s.db sess.sessionId with
        | none => rfl
        | some d => exact hagrees _ d hnew hold
  · intro hone
    have hmono := h.mono hkeeps t.tasks
    have hmanager' : t.manager = s.manager ∨ t.manager = s.manager.add sess := by
      rw [← ht]
      rcases hcases with ⟨-, -, hsame⟩ | ⟨-, -, hadd⟩
      · exact hsame
      · exact .inr hadd
    rcases hmanager' with hsame | hadd
    · rw [← hsame] at hmono
      exact hmono
    · have hadded := hmono.add (htask.1 hone)
      rw [← hadd] at hadded
      exact hadded

/-! ## Every request -/

/-- A task with the folder that the service answers. -/
theorem oneFolder_serviceTask (hs : OneFolder s) (sessionId tenantId : String) (now : ℚ) :
    OneFolder ⟨s.manager, (getOrCreateWithId base s.db sessionId tenantId now).2, s.tasks ++
      [(sessionId, .ofString (getOrCreateWithId base s.db sessionId tenantId now).1.workDir)]⟩ := by
  refine (oneFolder_task_iff rfl ?_ hs).2 ?_
  · exact fun _ _ hd => folderOf_keeps hd
  · exact folderOf_getOrCreateWithId.1

/-- The folders of the tasks that there are. -/
theorem OneFolder.mono (hs : OneFolder s) {db : Table}
    (hkeeps : ∀ sid d, folderOf s.db sid = some d → folderOf db sid = some d)
    (manager : SessionManager PurePath Unit) : OneFolder ⟨manager, db, s.tasks⟩ :=
  oneFolder_of_reported fun p hp => hkeeps p.1 p.2 (hs.reported p hp)

/-- **One request.**  Only a chat can part the folders, and it does so exactly when it
does not meet the condition. -/
theorem oneFolder_step (h : Known s) (hs : OneFolder s) (ht : step base s e = some t) :
    (OneFolder t ↔ Agrees base s e) ∧ (OneFolder t → Known t) := by
  cases e with
  | chat tenantId sessionId newId now => exact chat_step h hs ht
  | directChat sessionId now =>
      obtain rfl := Option.some.inj ht
      refine ⟨iff_of_true (oneFolder_serviceTask hs sessionId "default" now) trivial, fun _ => ?_⟩
      exact h.mono (fun _ _ hd => folderOf_keeps hd) _
  | internalDispatch tenantId sessionId taskId now =>
      simp only [step] at ht
      split at ht
      · obtain rfl := Option.some.inj ht
        exact ⟨iff_of_true hs trivial, fun _ => h⟩
      · rename_i sid hid
        have hkeeps : ∀ sid' d, folderOf s.db sid' = some d → folderOf (getOrCreateWithId base s.db
            sid (orElse (some tenantId) "default") now).2 sid' = some d :=
          fun _ _ hd => folderOf_keeps hd
        split at ht <;> obtain rfl := Option.some.inj ht
        · exact ⟨iff_of_true (oneFolder_serviceTask hs sid _ now) trivial, fun _ => h.mono hkeeps _⟩
        · exact ⟨iff_of_true (hs.mono hkeeps _) trivial, fun _ => h.mono hkeeps _⟩
  | save o =>
      simp only [step] at ht
      split at ht
      · rename_i ho
        obtain rfl := Option.some.inj ht
        exact ⟨iff_of_true (hs.mono (fun _ _ => id) _) trivial, fun _ => h.save ho⟩
      · simp at ht
  | restart =>
      obtain rfl := Option.some.inj ht
      refine ⟨iff_of_true (hs.mono (fun _ _ => id) _) trivial, fun _ => ⟨h.objects, ?_, h.table⟩⟩
      intro sid o hget
      simp [SessionManager.restart] at hget

/-- **One session, one work folder**, in exactly those sequences of requests in which
every chat meets the condition. -/
theorem oneFolder_iff_agrees (base : PurePath) (store : Bool) (db : Table) (es : List Event) :
    Run.Throughout (step base) OneFolder (init base store db) es ↔
      Run.Along (step base) (Agrees base) (init base store db) es := by
  have hbase : ∀ s e t, Known s → OneFolder s → OneFolder t → step base s e = some t → Known t :=
    fun _ _ _ h hs ht hstep => (oneFolder_step h hs hstep).2 ht
  have hexact : ∀ s e t, Known s → OneFolder s → step base s e = some t →
      (OneFolder t ↔ Agrees base s e) := fun _ _ _ h hs hstep => (oneFolder_step h hs hstep).1
  have hstuck : ∀ s e, Known s → step base s e = none → Agrees base s e := by
    intro s e _ hnone
    cases e with
    | chat tenantId sessionId newId now => simp [step] at hnone
    | _ => trivial
  have hinit : OneFolder (init base store db) := oneFolder_of_reported fun p hp => nomatch hp
  exact Run.throughout_iff_along_while hbase hexact hstuck (known_init store db) hinit

/-- The folder under which all others are. -/
def sharedOutput : PurePath := .ofString "/srv/shared_output"

/-- **Two tenants, two folders.**  A direct chat in a session, and then a chat of
another tenant in the same session: the chat's task is not in the folder that the
service reports. -/
theorem not_oneFolder :
    ¬ Run.Throughout (step sharedOutput) OneFolder (init sharedOutput true fun _ => none)
      [.directChat "s1" 0, .chat (some "acme") (some "s1") "9c41" 1] := by
  intro h
  have hrun : (Run.exec (step sharedOutput) (init sharedOutput true fun _ => none)
      [.directChat "s1" 0, .chat (some "acme") (some "s1") "9c41" 1]).map State.tasks =
        some [("s1", sessionDir sharedOutput "default" "s1"),
          ("s1", sessionDir sharedOutput "acme" "s1")] := by
    decide +kernel
  obtain ⟨t, ht, htasks⟩ := Option.map_eq_some_iff.1 hrun
  have hsame : sessionDir sharedOutput "default" "s1" = sessionDir sharedOutput "acme" "s1" :=
    (h.last ht).same ("s1", sessionDir sharedOutput "default" "s1") (by simp [htasks])
      ("s1", sessionDir sharedOutput "acme" "s1") (by simp [htasks]) rfl
  revert hsame
  decide +kernel

end WorkFolders
end AgentSwarm
