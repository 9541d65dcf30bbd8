import AgentSwarm.Common.Json
import AgentSwarm.Lib.Run

/-!
# The session service and its concurrent callers

`SessionService` keeps one row per session in the table `sessions_v2`: a state
object and a log of events.  Every write rewrites the whole row from a copy the
caller read earlier, so the callers are modelled step by step: a step is what
one caller does between two `await`s, and any caller may take the next step.

* `Row`, `Session` — a row of `sessions_v2`, and the object a caller holds.
* `Call`, `Pc` — the three calls and the places where one can be suspended.
* `Svc` — the table, the dict of per-session locks, the lock that guards the
  dict, and where every call is.
* `step` — one step of one call.  The clock reading the step may make comes
  with the action, and no call is cancelled.
* `step_cases` — everything a step can do, one case for each transition.
-/

namespace AgentSwarm
namespace SessionService

/-- The columns of a row of `sessions_v2`, less its primary key. -/
structure Row where
  tenantId : String
  workDir : String
  state : JsonObj
  events : List JsonObj
  createdAt : ℚ
  deriving Inhabited

/-- A session as a caller holds it. -/
structure Session extends Row where
  sessionId : String
  deriving Inhabited

/-- A call that a coroutine makes on the service. -/
inductive Call where
  | appendEvent (sessionId : String) (event : JsonObj)
  | updateState (sessionId : String) (delta : JsonObj)
  | getOrCreateWithId (sessionId tenantId : String)
  deriving Inhabited

/-- The session a call is about. -/
def Call.sessionId : Call → String
  | .appendEvent sid _ => sid
  | .updateState sid _ => sid
  | .getOrCreateWithId sid _ => sid

/-- Where a call is suspended. -/
inductive Pc where
  /-- Not yet started. -/
  | start
  /-- `_get_lock`: waiting for `_locks_lock`. -/
  | waitDict
  /-- `_get_lock`: holding `_locks_lock`, before the second look. -/
  | inDict
  /-- Waiting for the session's lock. -/
  | waitLock (lock : ℕ)
  /-- Holding the session's lock, before `get_session` has run. -/
  | inLock (lock : ℕ)
  /-- Holding the lock; `get_session` found no row. -/
  | absent (lock : ℕ)
  /-- Holding the lock and a copy of the row. -/
  | loaded (lock : ℕ) (sess : Session)
  /-- Holding the lock; `_save` has run. -/
  | saved (lock : ℕ) (sess : Session)
  /-- `get_or_create_with_id`: no row found, before `mkdir`. -/
  | missing
  /-- `get_or_create_with_id`: the new session is built, before `_save`. -/
  | creating (sess : Session)
  /-- The call has returned. -/
  | returned (result : Option Session)
  deriving Inhabited

/-- The service with all the calls made on it.  A lock object is a number;
`owner` tells which call holds it. -/
structure Svc where
  db : String → Option Row
  locks : String → Option ℕ
  nextLock : ℕ
  owner : ℕ → Option ℕ
  dictOwner : Option ℕ
  pc : ℕ → Pc

/-- The service over a database, before any call. -/
def init (db : String → Option Row) : Svc where
  db := db
  locks := fun _ => none
  nextLock := 0
  owner := fun _ => none
  dictOwner := none
  pc := fun _ => .start

/-- Call `i` moves to the place `p`. -/
def Svc.goto (s : Svc) (i : ℕ) (p : Pc) : Svc := { s with pc := Function.update s.pc i p }

/-- `get_session`: the row under the id, as a session. -/
def Svc.getSession (s : Svc) (sessionId : String) : Option Session :=
  (s.db sessionId).map fun row => { row with sessionId := sessionId }

/-- `_save_sync`: `INSERT OR REPLACE` of the whole row. -/
def Svc.save (s : Svc) (sess : Session) : Svc :=
  { s with db := Function.update s.db sess.sessionId (some sess.toRow) }

/-- `lock.acquire()` by call `i`, once the lock is free. -/
def Svc.acquire (s : Svc) (lock i : ℕ) : Svc :=
  { s with owner := Function.update s.owner lock (some i) }

/-- `lock.release()`. -/
def Svc.release (s : Svc) (lock : ℕ) : Svc :=
  { s with owner := Function.update s.owner lock none }

/-- `self._locks[session_id] = asyncio.Lock()`. -/
def Svc.newLock (s : Svc) (sessionId : String) : Svc :=
  { s with
    locks := Function.update s.locks sessionId (some s.nextLock)
    nextLock := s.nextLock + 1 }

/-- The fast path of `_get_lock`: the session's lock is waited for when the dict
has one, else `_locks_lock` is. -/
def Svc.lookLock (s : Svc) (i : ℕ) (sessionId : String) : Svc :=
  match s.locks sessionId with
  | some lock => s.goto i (.waitLock lock)
  | none => s.goto i .waitDict

/-- The change a call makes to its copy of the session, just before `_save`. -/
def Call.modify (now : ℚ) (sess : Session) : Call → Session
  | .appendEvent _ event =>
      { sess with events := sess.events ++ [event.setDefault "timestamp" (.num now)] }
  | .updateState _ delta => { sess with state := deepMerge sess.state delta }
  | .getOrCreateWithId _ _ => sess

/-- The session `get_or_create_with_id` creates: empty state, empty log.
`workDir` gives `str(base / "tenants" / tenant_id / "sessions" / session_id)`. -/
def blank (workDir : String → String → String) (sessionId tenantId : String) (now : ℚ) :
    Session where
  sessionId := sessionId
  tenantId := tenantId
  workDir := workDir tenantId sessionId
  state := []
  events := []
  createdAt := now

/-- The scheduler lets call `call` take its next step; a clock reading made in
that step gives `now`. -/
structure Action where
  call : ℕ
  now : ℚ

/-- One step of one call, up to its next `await`.  `prog` tells which call each
coroutine makes.  A call that has begun is not cancelled here. -/
def step (workDir : String → String → String) (prog : ℕ → Call) (s : Svc) (a : Action) :
    Option Svc :=
  let i := a.call
  let sid := (prog i).sessionId
  match s.pc i with
  | .start =>
      match prog i with
      | .getOrCreateWithId _ _ =>
          -- no lock here: the row is read straight away
          match s.getSession sid with
          | some sess => some (s.goto i (.returned (some sess)))
          | none => some (s.goto i .missing)
      | _ => some (s.lookLock i sid)
  | .waitDict =>
      if s.dictOwner = none then some ({ s with dictOwner := some i }.goto i .inDict) else none
  | .inDict =>
      match s.locks sid with
      | some lock => some ({ s with dictOwner := none }.goto i (.waitLock lock))
      | none => some ({ s.newLock sid with dictOwner := none }.goto i (.waitLock s.nextLock))
  | .waitLock lock =>
      if s.owner lock = none then some ((s.acquire lock i).goto i (.inLock lock)) else none
  | .inLock lock =>
      match s.getSession sid with
      | some sess => some (s.goto i (.loaded lock sess))
      | none => some (s.goto i (.absent lock))
  | .absent lock => some ((s.release lock).goto i (.returned none))
  | .loaded lock sess =>
      let sess' := (prog i).modify a.now sess
      some ((s.save sess').goto i (.saved lock sess'))
  | .saved lock sess => some ((s.release lock).goto i (.returned (some sess)))
  | .missing =>
      match prog i with
      | .getOrCreateWithId _ tenantId =>
          some (s.goto i (.creating (blank workDir sid tenantId a.now)))
      | _ => none
  | .creating sess => some ((s.save sess).goto i (.returned (some sess)))
  | .returned _ => none

/-! ## What a step can do -/

/-- The lock a call waits for or holds. -/
def Pc.lock : Pc → Option ℕ
  | .waitLock l => some l
  | .inLock l => some l
  | .absent l => some l
  | .loaded l _ => some l
  | .saved l _ => some l
  | _ => none

/-- The lock a call holds. -/
def Pc.held : Pc → Option ℕ
  | .waitLock _ => none
  | p => p.lock

/-- The call has written its change to the table. -/
def Pc.Committed : Pc → Prop
  | .saved _ _ => True
  | .returned (some _) => True
  | _ => False

/-- Is the call a `get_or_create_with_id`? -/
def Call.Creates : Call → Prop
  | .getOrCreateWithId _ _ => True
  | _ => False

/-- The kinds of step: a call moves on without touching the table or a lock,
takes a lock, reads the row, commits its change, gives the lock up, or stores a
new session. -/
inductive Moved (prog : ℕ → Call) (s : Svc) (i : ℕ) (now : ℚ) : Svc → Prop where
  /-- A call that holds no lock moves to a place where it holds none. -/
  | idle {t : Svc} {p : Pc} (hdb : t.db = s.db) (howner : t.owner = s.owner)
      (hlocks : ∀ sid l, s.locks sid = some l → t.locks sid = some l)
      (hpc : t.pc = Function.update s.pc i p)
      (hfrom : (s.pc i).held = none ∧ ¬ (s.pc i).Committed) (hto : p.held = none)
      (hlock : ∀ l, p.lock = some l → t.locks (prog i).sessionId = some l)
      (hcommitted : p.Committed → (prog i).Creates)
      (hcreating : ∀ sess, p = .creating sess →
        (prog i).Creates ∧ sess.state = [] ∧ sess.events = []
          ∧ sess.sessionId = (prog i).sessionId) :
      Moved prog s i now t
  | acquire {l : ℕ} (hpc : s.pc i = .waitLock l) (hfree : s.owner l = none) :
      Moved prog s i now ((s.acquire l i).goto i (.inLock l))
  | load {l : ℕ} {sess : Session} (hpc : s.pc i = .inLock l)
      (hrow : s.getSession (prog i).sessionId = some sess) :
      Moved prog s i now (s.goto i (.loaded l sess))
  | loadNone {l : ℕ} (hpc : s.pc i = .inLock l) :
      Moved prog s i now (s.goto i (.absent l))
  | commit {l : ℕ} {sess : Session} (hpc : s.pc i = .loaded l sess) :
      Moved prog s i now
        ((s.save ((prog i).modify now sess)).goto i (.saved l ((prog i).modify now sess)))
  | release {l : ℕ} {sess : Session} (hpc : s.pc i = .saved l sess) :
      Moved prog s i now ((s.release l).goto i (.returned (some sess)))
  | releaseNone {l : ℕ} (hpc : s.pc i = .absent l) :
      Moved prog s i now ((s.release l).goto i (.returned none))
  | create {sess : Session} (hpc : s.pc i = .creating sess) :
      Moved prog s i now ((s.save sess).goto i (.returned (some sess)))

variable {workDir : String → String → String} {prog : ℕ → Call} {s t : Svc} {i : ℕ} {now : ℚ}

/-- A call that only moves on, from no lock held to no lock held. -/
theorem Moved.walk {p : Pc} (hfrom : (s.pc i).held = none ∧ ¬ (s.pc i).Committed) (hto : p.held = none)
    (hlock : ∀ l, p.lock = some l → s.locks (prog i).sessionId = some l)
    (hcommitted : p.Committed → (prog i).Creates)
    (hcreating : ∀ sess, p = .creating sess →
      (prog i).Creates ∧ sess.state = [] ∧ sess.events = []
        ∧ sess.sessionId = (prog i).sessionId) :
    Moved prog s i now (s.goto i p) :=
  .idle rfl rfl (fun _ _ => id) rfl hfrom hto hlock hcommitted hcreating

theorem not_committed_waitLock (l : ℕ) : ¬ (Pc.waitLock l).Committed := id

theorem waitLock_ne_creating (l : ℕ) (sess : Session) : Pc.waitLock l ≠ .creating sess := by simp

/-- A call that was told its lock goes to wait for it. -/
theorem Moved.toWaitLock {l : ℕ} (hdb : t.db = s.db) (howner : t.owner = s.owner)
    (hlocks : ∀ sid l, s.locks sid = some l → t.locks sid = some l)
    (hlock : t.locks (prog i).sessionId = some l)
    (hfrom : (s.pc i).held = none ∧ ¬ (s.pc i).Committed)
    (hpc : t.pc = Function.update s.pc i (.waitLock l)) : Moved prog s i now t :=
  .idle hdb howner hlocks hpc hfrom rfl
    (fun l' hl' => by rw [hlock, ← hl']; rfl)
    (fun h => absurd h (not_committed_waitLock l))
    (fun sess h => absurd h (waitLock_ne_creating l sess))

theorem Moved.lookLock (hfrom : (s.pc i).held = none ∧ ¬ (s.pc i).Committed) :
    Moved prog s i now (s.lookLock i (prog i).sessionId) := by
  unfold Svc.lookLock
  cases hlock : s.locks (prog i).sessionId with
  | some lock => exact .toWaitLock rfl rfl (fun _ _ => id) hlock hfrom rfl
  | none => exact .walk hfrom rfl (by simp [Pc.lock]) (fun h => h.elim) (by simp)

/-- A lock is added for a session only where the dict has none. -/
theorem newLock_keeps {sid : String} (hnone : s.locks sid = none) :
    ∀ sid' l, s.locks sid' = some l → (s.newLock sid).locks sid' = some l := by
  intro sid' l hl
  have hne : sid' ≠ sid := by
    rintro rfl
    rw [hnone] at hl
    cases hl
  simpa [Svc.newLock, hne] using hl

/-- **Everything a step can do.** -/
theorem step_cases {a : Action} (h : step workDir prog s a = some t) :
    Moved prog s a.call a.now t := by
  obtain ⟨i, now⟩ := a
  simp only [step] at h
  cases hpc : s.pc i with
  | start =>
      have hfrom : (s.pc i).held = none ∧ ¬ (s.pc i).Committed := by rw [hpc]; exact ⟨rfl, id⟩
      cases hcall : prog i with
      | getOrCreateWithId sid tenantId =>
          have hcreates : (prog i).Creates := by rw [hcall]; trivial
          simp only [hpc, hcall] at h
          split at h <;> cases h
          · exact .walk hfrom rfl (by simp [Pc.lock]) (fun _ => hcreates) (by simp)
          · exact .walk hfrom rfl (by simp [Pc.lock]) (fun h => h.elim) (by simp)
      | appendEvent sid event =>
          simp only [hpc, hcall, Option.some.injEq] at h
          subst h
          have hlook : Moved prog s i now (s.lookLock i (prog i).sessionId) := .lookLock hfrom
          simpa [hcall] using hlook
      | updateState sid delta =>
          simp only [hpc, hcall, Option.some.injEq] at h
          subst h
          have hlook : Moved prog s i now (s.lookLock i (prog i).sessionId) := .lookLock hfrom
          simpa [hcall] using hlook
  | waitDict =>
      have hfrom : (s.pc i).held = none ∧ ¬ (s.pc i).Committed := by rw [hpc]; exact ⟨rfl, id⟩
      simp only [hpc] at h
      split at h <;> cases h
      exact .idle rfl rfl (fun _ _ => id) rfl hfrom rfl (by simp [Pc.lock]) (fun h => h.elim)
        (by simp)
  | inDict =>
      have hfrom : (s.pc i).held = none ∧ ¬ (s.pc i).Committed := by rw [hpc]; exact ⟨rfl, id⟩
      simp only [hpc] at h
      split at h <;> cases h
      · rename_i lock hlock
        exact .toWaitLock rfl rfl (fun _ _ => id) hlock hfrom rfl
      · rename_i hnone
        exact .toWaitLock rfl rfl (newLock_keeps hnone)
          (by simp [Svc.newLock, Svc.goto]) hfrom rfl
  | waitLock lock =>
      simp only [hpc] at h
      split at h <;> cases h
      rename_i hfree
      exact .acquire hpc hfree
  | inLock lock =>
      simp only [hpc] at h
      split at h <;> cases h
      · rename_i sess hrow
        exact .load hpc hrow
      · exact .loadNone hpc
  | absent lock =>
      simp only [hpc, Option.some.injEq] at h
      exact h ▸ .releaseNone hpc
  | loaded lock sess =>
      simp only [hpc, Option.some.injEq] at h
      exact h ▸ .commit hpc
  | saved lock sess =>
      simp only [hpc, Option.some.injEq] at h
      exact h ▸ .release hpc
  | missing =>
      have hfrom : (s.pc i).held = none ∧ ¬ (s.pc i).Committed := by rw [hpc]; exact ⟨rfl, id⟩
      cases hcall : prog i with
      | getOrCreateWithId sid tenantId =>
          simp only [hpc, hcall, Option.some.injEq] at h
          subst h
          refine .walk hfrom rfl (by simp [Pc.lock]) (fun h => h.elim) ?_
          rintro sess hsess
          cases hsess
          simp [hcall, Call.Creates, Call.sessionId, blank]
      | appendEvent sid event => simp [hpc, hcall] at h
      | updateState sid delta => simp [hpc, hcall] at h
  | creating sess =>
      simp only [hpc, Option.some.injEq] at h
      exact h ▸ .create hpc
  | returned result => simp [hpc] at h

end SessionService
end AgentSwarm
