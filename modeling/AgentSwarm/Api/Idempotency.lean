import AgentSwarm.Lib.Dict
import AgentSwarm.Lib.Run

/-!
# Requests with an idempotency key

`POST /api/chat` looks its `Idempotency-Key` up in an index, and a request that
finds a task there is answered with it.  Otherwise the handler creates a task
and records it under the key.  The lock is held for the look-up and for the
recording, each time without an `await` inside, and not between the two: there
the handler awaits the session store and `create_task`.

* `Pc` — where the handler of a request is suspended.
* `State` — the index, the handlers, the tasks created and the orchestrations
  started.
* `step` — one step of the handler of one request.
* `OneTask` — at most one task and one orchestration for a key, and every answer
  names that task.
* `Phase` — the invariant: nothing yet for a key, or one task and its creator.
* `LooksUpAlone` — the condition: a request that finds nothing under the key is
  the only one past the look-up.
* `oneTask_of_looksUpAlone` — **one task for a key, in every run that meets it.**
* `not_oneTask_of_open_window` — two requests in the window, two tasks.

A task is never taken out of the task manager, so of its tasks only the ids are
kept, in the order of their creation.
-/

namespace AgentSwarm
namespace Idempotency

/-- Where the handler of a request is suspended.  Consecutive awaits between
which nothing is written are one place. -/
inductive Pc where
  /-- Before the look-up. -/
  | arriving
  /-- Past a look-up without a task: in `get_or_create_with_id` or
  `append_event` of the session service. -/
  | missed
  /-- In `create_task`, in the write to the store, or at the lock after it. -/
  | creating (taskId : String)
  /-- The key is recorded; in `update_status(RUNNING)`. -/
  | recorded (taskId : String)
  | answered (taskId : String)
  /-- Something that was awaited raised; the task, if one had been created. -/
  | failed (taskId : Option String)
  deriving DecidableEq

/-- The server.  A request is a number. -/
structure State where
  index : Dict String String
  pc : ℕ → Pc
  /-- The calls of `create_task`: the request, and the id of the task. -/
  created : List (ℕ × String)
  /-- The orchestrations started: the request, and the id of the task. -/
  started : List (ℕ × String)

def init : State := ⟨[], fun _ => .arriving, [], []⟩

/-- What happens next.  `taskId` is what `uuid4` gives. -/
inductive Event where
  | lookup (r : ℕ)
  | create (r : ℕ) (taskId : String)
  | record (r : ℕ)
  | start (r : ℕ)
  /-- What the handler awaits raises. -/
  | raise (r : ℕ)
  deriving DecidableEq

/-- The request whose handler takes the step. -/
def Event.request : Event → ℕ
  | .lookup r => r
  | .create r _ => r
  | .record r => r
  | .start r => r
  | .raise r => r

/-- `if idempotency_key:` — an empty header is no key. -/
def keyOf (header : Option String) : Option String := header.filter (· ≠ "")

/-- `task_manager.get_task(existing_id)`, by the id of the task it finds. -/
def State.getTask (s : State) (taskId : String) : Option String :=
  if taskId ∈ s.created.map Prod.snd then some taskId else none

/-- The id of the task a request is answered with at once. -/
def State.existing (s : State) (header : Option String) : Option String :=
  (keyOf header).bind fun key => (s.index.get key).bind s.getTask

/-- The handler of `r` moves to a place. -/
def State.goto (s : State) (r : ℕ) (pc : Pc) : State :=
  { s with pc := Function.update s.pc r pc }

/-- `create_task`, up to its first `await`: the task is in the task manager. -/
def State.createTask (s : State) (r : ℕ) (taskId : String) : State :=
  { s with created := s.created ++ [(r, taskId)] }.goto r (.creating taskId)

/-- `_idempotency_index[idempotency_key] = task.task_id`. -/
def State.recordKey (s : State) (header : Option String) (taskId : String) : State :=
  match keyOf header with
  | none => s
  | some key => { s with index := s.index.set key taskId }

/-- One step; `header r` is the `Idempotency-Key` of the request `r`. -/
def step (header : ℕ → Option String) (s : State) : Event → Option State
  | .lookup r =>
      match s.pc r with
      | .arriving =>
          match s.existing (header r) with
          | some taskId => some (s.goto r (.answered taskId))
          | none => some (s.goto r .missed)
      | _ => none
  | .create r taskId =>
      match s.pc r with
      | .missed => some (s.createTask r taskId)
      | _ => none
  | .record r =>
      match s.pc r with
      | .creating taskId => some ((s.recordKey (header r) taskId).goto r (.recorded taskId))
      | _ => none
  | .start r =>
      match s.pc r with
      | .recorded taskId =>
          some ({ s with started := s.started ++ [(r, taskId)] }.goto r (.answered taskId))
      | _ => none
  | .raise r =>
      match s.pc r with
      | .missed => some (s.goto r (.failed none))
      | .creating taskId => some (s.goto r (.failed (some taskId)))
      | .recorded taskId => some (s.goto r (.failed (some taskId)))
      | _ => none

variable {header : ℕ → Option String} {key : String} {s t : State} {e : Event}

/-! ## Everything a step can do -/

/-- The transitions. -/
inductive Moved (header : ℕ → Option String) (s : State) : Event → State → Prop
  | hit {r taskId} (hpc : s.pc r = .arriving) (hfound : s.existing (header r) = some taskId) :
      Moved header s (.lookup r) (s.goto r (.answered taskId))
  | miss {r} (hpc : s.pc r = .arriving) (hfound : s.existing (header r) = none) :
      Moved header s (.lookup r) (s.goto r .missed)
  | create {r taskId} (hpc : s.pc r = .missed) :
      Moved header s (.create r taskId) (s.createTask r taskId)
  | record {r taskId} (hpc : s.pc r = .creating taskId) :
      Moved header s (.record r) ((s.recordKey (header r) taskId).goto r (.recorded taskId))
  | start {r taskId} (hpc : s.pc r = .recorded taskId) :
      Moved header s (.start r)
        ({ s with started := s.started ++ [(r, taskId)] }.goto r (.answered taskId))
  | raise {r failed} (hpc : s.pc r = .missed ∧ failed = none ∨
        ∃ taskId, (s.pc r = .creating taskId ∨ s.pc r = .recorded taskId) ∧ failed = some taskId) :
      Moved header s (.raise r) (s.goto r (.failed failed))

/-- **Everything a step can do.** -/
theorem step_cases (h : step header s e = some t) : Moved header s e t := by
  cases e with
  | lookup r =>
      cases hpc : s.pc r <;> simp only [step, hpc, reduceCtorEq] at h
      cases hfound : s.existing (header r) <;> simp only [hfound, Option.some.injEq] at h <;>
        subst h
      · exact .miss hpc hfound
      · exact .hit hpc hfound
  | create r taskId =>
      cases hpc : s.pc r <;> simp only [step, hpc, reduceCtorEq, Option.some.injEq] at h
      subst h
      exact .create hpc
  | record r =>
      cases hpc : s.pc r <;> simp only [step, hpc, reduceCtorEq, Option.some.injEq] at h
      subst h
      exact .record hpc
  | start r =>
      cases hpc : s.pc r <;> simp only [step, hpc, reduceCtorEq, Option.some.injEq] at h
      subst h
      exact .start hpc
  | raise r =>
      cases hpc : s.pc r <;> simp only [step, hpc, reduceCtorEq, Option.some.injEq] at h <;>
        subst h <;> exact .raise (by simp [hpc])

/-! ## What a step changes -/

/-- Those entries of a list of calls that belong to a key. -/
def forKey (header : ℕ → Option String) (key : String) (calls : List (ℕ × String)) :
    List (ℕ × String) :=
  calls.filter fun p => header p.1 = some key

theorem forKey_concat_of_eq {r : ℕ} (h : header r = some key) (calls : List (ℕ × String))
    (taskId : String) :
    forKey header key (calls ++ [(r, taskId)]) = forKey header key calls ++ [(r, taskId)] := by
  simp [forKey, h]

theorem forKey_concat_of_ne {r : ℕ} (h : header r ≠ some key) (calls : List (ℕ × String))
    (taskId : String) : forKey header key (calls ++ [(r, taskId)]) = forKey header key calls := by
  simp [forKey, h]

/-- The calls of `create_task` for a key. -/
def State.createdFor (header : ℕ → Option String) (key : String) (s : State) :
    List (ℕ × String) :=
  forKey header key s.created

/-- The orchestrations started for a key. -/
def State.startedFor (header : ℕ → Option String) (key : String) (s : State) :
    List (ℕ × String) :=
  forKey header key s.started

section Goto

variable (s : State) (r : ℕ) (pc : Pc)

@[simp] theorem goto_pc_self : (s.goto r pc).pc r = pc := Function.update_self ..

@[simp] theorem goto_pc_of_ne {q : ℕ} (h : q ≠ r) : (s.goto r pc).pc q = s.pc q :=
  Function.update_of_ne h ..

@[simp] theorem goto_index : (s.goto r pc).index = s.index := rfl

@[simp] theorem goto_createdFor : (s.goto r pc).createdFor header key = s.createdFor header key :=
  rfl

@[simp] theorem goto_startedFor : (s.goto r pc).startedFor header key = s.startedFor header key :=
  rfl

@[simp] theorem createTask_pc_self (taskId : String) :
    (s.createTask r taskId).pc r = .creating taskId :=
  Function.update_self ..

@[simp] theorem createTask_pc_of_ne (taskId : String) {q : ℕ} (h : q ≠ r) :
    (s.createTask r taskId).pc q = s.pc q :=
  Function.update_of_ne h ..

end Goto

@[simp] theorem recordKey_pc (h : Option String) (taskId : String) :
    (s.recordKey h taskId).pc = s.pc := by
  unfold State.recordKey
  split <;> rfl

@[simp] theorem recordKey_createdFor (h : Option String) (taskId : String) :
    (s.recordKey h taskId).createdFor header key = s.createdFor header key := by
  unfold State.recordKey
  split <;> rfl

@[simp] theorem recordKey_startedFor (h : Option String) (taskId : String) :
    (s.recordKey h taskId).startedFor header key = s.startedFor header key := by
  unfold State.recordKey
  split <;> rfl

theorem recordKey_of_ne {h : Option String} (hne : h ≠ some key) (taskId : String) :
    (s.recordKey h taskId).index.get key = s.index.get key := by
  unfold State.recordKey
  split
  · rfl
  · rename_i key' hkey
    have hkey' : key ≠ key' := by
      rintro rfl
      exact hne (Option.eq_some_of_filter_eq_some hkey)
    exact Dict.get_set_of_ne _ _ hkey'

/-- What is recorded under a key is what was there, or the id of the task. -/
theorem recordKey_index {h : Option String} {taskId i : String}
    (hi : (s.recordKey h taskId).index.get key = some i) :
    s.index.get key = some i ∨ i = taskId := by
  unfold State.recordKey at hi
  split at hi
  · exact .inl hi
  · rw [Dict.get_set] at hi
    split at hi
    · exact .inr (Option.some.inj hi).symm
    · exact .inl hi

/-- A look-up that finds a task finds it under the key. -/
theorem index_of_existing {taskId : String} (h : s.existing (some key) = some taskId) :
    s.index.get key = some taskId := by
  obtain ⟨key', hkey, h⟩ := Option.bind_eq_some_iff.1 h
  obtain ⟨i, hi, hfound⟩ := Option.bind_eq_some_iff.1 h
  have hkey' : key = key' := Option.some.inj (Option.eq_some_of_filter_eq_some hkey)
  simp only [State.getTask, Option.ite_none_right_eq_some, Option.some.injEq] at hfound
  rw [hkey', hi, hfound.2]

/-- `s` and `t` agree on everything that belongs to a key. -/
structure SameFor (header : ℕ → Option String) (key : String) (s t : State) : Prop where
  created : t.createdFor header key = s.createdFor header key
  started : t.startedFor header key = s.startedFor header key
  index : t.index.get key = s.index.get key
  pc : ∀ r, header r = some key → t.pc r = s.pc r

/-- **Frame.**  A request with another key, or with none, changes nothing that
belongs to the key. -/
theorem sameFor_of_ne (hother : header e.request ≠ some key) (h : step header s e = some t) :
    SameFor header key s t := by
  have hpc : ∀ (u : State) (pc : Pc) r, header r = some key →
      (u.goto e.request pc).pc r = u.pc r := by
    rintro u pc r hr
    refine goto_pc_of_ne _ _ _ ?_
    rintro rfl
    exact hother hr
  cases step_cases h with
  | hit => exact ⟨rfl, rfl, rfl, hpc s _⟩
  | miss => exact ⟨rfl, rfl, rfl, hpc s _⟩
  | create => exact ⟨forKey_concat_of_ne hother _ _, rfl, rfl, hpc { s with created := _ } _⟩
  | record =>
      refine ⟨by simp, by simp, recordKey_of_ne hother _, ?_⟩
      intro q hq
      rw [← recordKey_pc (s := s)]
      exact hpc _ _ q hq
  | start => exact ⟨rfl, forKey_concat_of_ne hother _ _, rfl, hpc { s with started := _ } _⟩
  | raise => exact ⟨rfl, rfl, rfl, hpc s _⟩

/-! ## One task for a key -/

/-- The request has not looked its key up, or has failed without a task. -/
def Pc.outside (pc : Pc) : Prop := pc = .arriving ∨ pc = .failed none

/-- **One task.**  At most one task was created and at most one orchestration
started for the key, every answer names that task, and a request that has no
answer yet, nor an error, can take its next step. -/
structure OneTask (header : ℕ → Option String) (key : String) (s : State) : Prop where
  created : (s.createdFor header key).length ≤ 1
  started : (s.startedFor header key).length ≤ 1
  answered : ∀ r taskId, header r = some key → s.pc r = .answered taskId →
    ∃ q, (q, taskId) ∈ s.createdFor header key
  goesOn : ∀ r, header r = some key → (∃ taskId, s.pc r = .answered taskId) ∨
    (∃ taskId, s.pc r = .failed taskId) ∨ ∃ e, e.request = r ∧ (step header s e).isSome

/-- The condition on a step: when a request with the key finds no task under it,
no request with the key is past its look-up, other than one that failed before
it had a task. -/
def LooksUpAlone (header : ℕ → Option String) (key : String) (s : State) (e : Event) : Prop :=
  ∀ r, e = .lookup r → header r = some key → s.existing (header r) = none →
    ∀ q, header q = some key → (s.pc q).outside

/-- The invariant. -/
inductive Phase (header : ℕ → Option String) (key : String) (s : State) : Prop
  /-- No task yet; at most one request, `q`, is past the look-up. -/
  | fresh (q : ℕ) (hcreated : s.createdFor header key = []) (hstarted : s.startedFor header key = [])
      (hindex : s.index.get key = none)
      (hpc : ∀ r, header r = some key → (s.pc r).outside ∨ r = q ∧ s.pc r = .missed)
  /-- The request `q` has created the task; the others can only be answered
  with it. -/
  | taken (q : ℕ) (taskId : String) (hq : header q = some key)
      (hcreated : s.createdFor header key = [(q, taskId)])
      (howner : (s.pc q = .creating taskId ∨ s.pc q = .recorded taskId ∨
          s.pc q = .failed (some taskId)) ∧ s.startedFor header key = [] ∨
        s.pc q = .answered taskId ∧ s.startedFor header key = [(q, taskId)])
      (hindex : ∀ i, s.index.get key = some i → i = taskId)
      (hpc : ∀ r, header r = some key → r ≠ q → (s.pc r).outside ∨ s.pc r = .answered taskId)

theorem phase_init (header : ℕ → Option String) (key : String) : Phase header key init :=
  .fresh 0 rfl rfl rfl fun _ _ => .inl (.inl rfl)

theorem Phase.of_sameFor (h : Phase header key s) (hsame : SameFor header key s t) :
    Phase header key t := by
  cases h with
  | fresh q hcreated hstarted hindex hpc =>
      refine .fresh q (hsame.created.trans hcreated) (hsame.started.trans hstarted)
        (hsame.index.trans hindex) ?_
      intro r hr
      rw [hsame.pc r hr]
      exact hpc r hr
  | taken q taskId hq hcreated howner hindex hpc =>
      refine .taken q taskId hq (hsame.created.trans hcreated) ?_ ?_ ?_
      · rw [hsame.pc q hq, hsame.started]
        exact howner
      · rw [hsame.index]
        exact hindex
      · intro r hr hne
        rw [hsame.pc r hr]
        exact hpc r hr hne

/-- A step of a request with the key, while there is no task. -/
theorem fresh_step {q : ℕ} (hkey : header e.request = some key)
    (hcreated : s.createdFor header key = []) (hstarted : s.startedFor header key = [])
    (hindex : s.index.get key = none)
    (hpc : ∀ r, header r = some key → (s.pc r).outside ∨ r = q ∧ s.pc r = .missed)
    (hok : LooksUpAlone header key s e) (hstep : step header s e = some t) :
    Phase header key t := by
  cases step_cases hstep with
  | @hit r taskId _ hfound =>
      have hr : header r = some key := hkey
      rw [hr] at hfound
      rw [index_of_existing hfound] at hindex
      cases hindex
  | @miss r _ hfound =>
      refine .fresh r hcreated hstarted hindex ?_
      intro x hx
      by_cases hxr : x = r
      · exact .inr ⟨hxr, by simp [hxr]⟩
      · rw [goto_pc_of_ne _ _ _ hxr]
        exact .inl (hok r rfl hkey hfound x hx)
  | @create r taskId hmissed =>
      have hr : header r = some key := hkey
      obtain ⟨rfl, -⟩ := (hpc r hr).resolve_left (by simp [hmissed, Pc.outside])
      have honly : (s.createTask r taskId).createdFor header key = [(r, taskId)] := by
        show forKey header key (s.created ++ [(r, taskId)]) = _
        rw [forKey_concat_of_eq hr, ← State.createdFor, hcreated]
        rfl
      refine .taken r taskId hr honly (.inl ⟨by simp, hstarted⟩) ?_ ?_
      · intro i hi
        cases hindex.symm.trans hi
      · intro x hx hne
        rw [createTask_pc_of_ne _ _ _ hne]
        exact .inl ((hpc x hx).resolve_right fun h => hne h.1)
  | @record r taskId hcreating => simpa [hcreating, Pc.outside] using hpc r hkey
  | @start r taskId hrecorded => simpa [hrecorded, Pc.outside] using hpc r hkey
  | @raise r failed hraise =>
      rcases hraise with ⟨-, rfl⟩ | ⟨taskId, hwindow | hwindow, -⟩
      · refine .fresh q hcreated hstarted hindex ?_
        intro x hx
        by_cases hxr : x = r
        · exact .inl (.inr (by simp [hxr]))
        · rw [goto_pc_of_ne _ _ _ hxr]
          exact hpc x hx
      · simpa [hwindow, Pc.outside] using hpc r hkey
      · simpa [hwindow, Pc.outside] using hpc r hkey

/-- A step of a request with the key, after `q` has created the task. -/
theorem taken_step {q : ℕ} {taskId : String} (hkey : header e.request = some key)
    (hq : header q = some key) (hcreated : s.createdFor header key = [(q, taskId)])
    (howner : (s.pc q = .creating taskId ∨ s.pc q = .recorded taskId ∨
        s.pc q = .failed (some taskId)) ∧ s.startedFor header key = [] ∨
      s.pc q = .answered taskId ∧ s.startedFor header key = [(q, taskId)])
    (hindex : ∀ i, s.index.get key = some i → i = taskId)
    (hpc : ∀ r, header r = some key → r ≠ q → (s.pc r).outside ∨ s.pc r = .answered taskId)
    (hok : LooksUpAlone header key s e) (hstep : step header s e = some t) :
    Phase header key t := by
  have hpast : ¬ (s.pc q).outside := by
    rcases howner with ⟨h | h | h, -⟩ | ⟨h, -⟩ <;> simp [h, Pc.outside]
  -- whoever is in the window is the owner
  have hwindow : ∀ r, header r = some key → s.pc r ≠ .answered taskId → ¬ (s.pc r).outside →
      r = q := by
    intro r hr hanswered houtside
    by_contra hne
    exact (hpc r hr hne).elim houtside hanswered
  have hothers : ∀ pc x, header x = some key → x ≠ q → ((s.goto q pc).pc x).outside ∨
      (s.goto q pc).pc x = .answered taskId := by
    intro pc x hx hne
    rw [goto_pc_of_ne _ _ _ hne]
    exact hpc x hx hne
  cases step_cases hstep with
  | @hit r found harriving hfound =>
      have hr : header r = some key := hkey
      rw [hr] at hfound
      obtain rfl := hindex found (index_of_existing hfound)
      have hne : q ≠ r := by
        rintro rfl
        exact hpast (.inl harriving)
      refine .taken q found hq hcreated ?_ hindex ?_
      · rw [goto_pc_of_ne _ _ _ hne]
        exact howner
      · intro x hx hxq
        by_cases hxr : x = r
        · exact .inr (by simp [hxr])
        · rw [goto_pc_of_ne _ _ _ hxr]
          exact hpc x hx hxq
  | @miss r _ hfound => exact absurd (hok r rfl hkey hfound q hq) hpast
  | @create r _ hmissed =>
      obtain rfl := hwindow r hkey (by simp [hmissed]) (by simp [hmissed, Pc.outside])
      simp [hmissed] at howner
  | @record r i hcreating =>
      obtain rfl := hwindow r hkey (by simp [hcreating]) (by simp [hcreating, Pc.outside])
      simp only [hcreating, Pc.creating.injEq, reduceCtorEq, or_false, false_and] at howner
      obtain ⟨rfl, hstarted⟩ := howner
      refine .taken r i hq (by simpa using hcreated) (.inl ⟨by simp, by simpa using hstarted⟩) ?_ ?_
      · intro j hj
        rcases recordKey_index hj with hold | hnew
        · exact hindex j hold
        · exact hnew
      · intro x hx hne
        rw [goto_pc_of_ne _ _ _ hne, recordKey_pc]
        exact hpc x hx hne
  | @start r i hrecorded =>
      obtain rfl := hwindow r hkey (by simp [hrecorded]) (by simp [hrecorded, Pc.outside])
      simp only [hrecorded, Pc.recorded.injEq, reduceCtorEq, or_false, false_or, false_and] at howner
      obtain ⟨rfl, hstarted⟩ := howner
      have hone : forKey header key (s.started ++ [(r, i)]) = [(r, i)] := by
        rw [forKey_concat_of_eq hq, ← State.startedFor, hstarted]
        rfl
      exact .taken r i hq hcreated (.inr ⟨by simp, hone⟩) hindex (hothers _)
  | @raise r failed hraise =>
      obtain rfl : r = q := by
        rcases hraise with ⟨h, -⟩ | ⟨i, h | h, -⟩ <;>
          exact hwindow r hkey (by simp [h]) (by simp [h, Pc.outside])
      refine .taken r taskId hq hcreated (.inl ?_) hindex (hothers _)
      rcases hraise with ⟨h, -⟩ | ⟨i, h | h, rfl⟩
      · simp [h] at howner
      · simp only [h, Pc.creating.injEq, reduceCtorEq, or_false, false_and] at howner
        exact ⟨by simp [howner.1], howner.2⟩
      · simp only [h, Pc.recorded.injEq, reduceCtorEq, or_false, false_or, false_and] at howner
        exact ⟨by simp [howner.1], howner.2⟩

/-- **One step.**  A step that meets the condition keeps the invariant. -/
theorem phase_step (h : Phase header key s) (hok : LooksUpAlone header key s e)
    (hstep : step header s e = some t) : Phase header key t := by
  by_cases hkey : header e.request = some key
  · cases h with
    | fresh q hcreated hstarted hindex hpc =>
        exact fresh_step hkey hcreated hstarted hindex hpc hok hstep
    | taken q taskId hq hcreated howner hindex hpc =>
        exact taken_step hkey hq hcreated howner hindex hpc hok hstep
  · exact h.of_sameFor (sameFor_of_ne hkey hstep)

/-- A request that has neither an answer nor an error can take its next step. -/
theorem exists_step (header : ℕ → Option String) (s : State) (r : ℕ) :
    (∃ taskId, s.pc r = .answered taskId) ∨ (∃ taskId, s.pc r = .failed taskId) ∨
      ∃ e, e.request = r ∧ (step header s e).isSome := by
  cases hpc : s.pc r with
  | arriving =>
      refine .inr (.inr ⟨.lookup r, rfl, ?_⟩)
      cases hfound : s.existing (header r) <;> simp [step, hpc, hfound]
  | missed => exact .inr (.inr ⟨.create r "", rfl, by simp [step, hpc]⟩)
  | creating taskId => exact .inr (.inr ⟨.record r, rfl, by simp [step, hpc]⟩)
  | recorded taskId => exact .inr (.inr ⟨.start r, rfl, by simp [step, hpc]⟩)
  | answered taskId => exact .inl ⟨taskId, rfl⟩
  | failed taskId => exact .inr (.inl ⟨taskId, rfl⟩)

theorem Phase.oneTask (h : Phase header key s) : OneTask header key s := by
  cases h with
  | fresh q hcreated hstarted hindex hpc =>
      refine ⟨by simp [hcreated], by simp [hstarted], ?_,
        fun r _ => exists_step header s r⟩
      intro r taskId hr hanswered
      simpa [hanswered, Pc.outside] using hpc r hr
  | taken q taskId hq hcreated howner hindex hpc =>
      refine ⟨by simp [hcreated], ?_, ?_, fun r _ => exists_step header s r⟩
      · rcases howner with ⟨-, hstarted⟩ | ⟨-, hstarted⟩ <;> simp [hstarted]
      · intro r i hr hanswered
        refine ⟨q, ?_⟩
        by_cases hrq : r = q
        · subst hrq
          simp only [hanswered, Pc.answered.injEq, reduceCtorEq, or_self, false_and,
            false_or] at howner
          simp [hcreated, howner.1]
        · simpa [hanswered, Pc.outside, hcreated] using hpc r hr hrq

/-- **One task for a key.**  In a run in which every look-up that finds nothing
is alone, every state has at most one task and one orchestration for the key, and
all its answers name that task. -/
theorem oneTask_of_looksUpAlone (header : ℕ → Option String) (key : String) (events : List Event)
    (hok : Run.Along (step header) (LooksUpAlone header key) init events) :
    Run.Throughout (step header) (OneTask header key) init events :=
  (Run.throughout_of_invariant (fun _ _ _ => phase_step) (phase_init header key) hok).mono
    fun _ => Phase.oneTask

/-! ## Requests with the same key -/

/-- The second request comes when the first one has been answered. -/
theorem oneTask_in_turn :
    Run.Throughout (step fun _ => some "abc") (OneTask (fun _ => some "abc") "abc") init
      [.lookup 0, .create 0 "3f2a91bc", .record 0, .start 0, .lookup 1] := by
  refine oneTask_of_looksUpAlone _ _ _ ?_
  refine And.intro (fun _ _ _ _ _ _ => .inl rfl) ?_
  refine And.intro nofun (And.intro nofun (And.intro nofun (And.intro ?_ trivial)))
  rintro _ ⟨⟩ _ hfound
  cases hfound

/-- **Two requests in the window.**  From any state in which a request with the
key is past its look-up and another one finds nothing, three steps lead to two
tasks. -/
theorem not_oneTask_of_open_window {q r : ℕ} (hq : header q = some key) (hr : header r = some key)
    (hmissed : s.pc q = .missed) (harriving : s.pc r = .arriving)
    (hfound : s.existing (header r) = none) (i j : String) :
    ∃ u, Run.exec (step header) s [.lookup r, .create q i, .create r j] = some u ∧
      ¬ OneTask header key u := by
  have hne : q ≠ r := by
    rintro rfl
    rw [hmissed] at harriving
    cases harriving
  have hlookup : step header s (.lookup r) = some (s.goto r .missed) := by
    simp [step, harriving, hfound]
  have hfirst : step header (s.goto r .missed) (.create q i) =
      some ((s.goto r .missed).createTask q i) := by
    simp [step, hne, hmissed]
  have hpc : ((s.goto r .missed).createTask q i).pc r = .missed := by
    rw [createTask_pc_of_ne _ _ _ hne.symm, goto_pc_self]
  have hsecond : step header ((s.goto r .missed).createTask q i) (.create r j) =
      some (((s.goto r .missed).createTask q i).createTask r j) := by
    simp [step, hpc]
  refine ⟨((s.goto r .missed).createTask q i).createTask r j, ?_, ?_⟩
  · rw [Run.exec_cons hlookup, Run.exec_cons hfirst, Run.exec_cons hsecond, Run.exec_nil]
  · intro h
    have hlength : (forKey header key (s.created ++ [(q, i)] ++ [(r, j)])).length ≤ 1 := h.created
    rw [forKey_concat_of_eq hr, forKey_concat_of_eq hq] at hlength
    simp at hlength

/-- **Both look up first.**  Two requests with one key look it up before either of
them has recorded a task. -/
theorem two_tasks_for_one_key :
    ¬ Run.Throughout (step fun _ => some "abc") (OneTask (fun _ => some "abc") "abc") init
      [.lookup 0, .lookup 1, .create 0 "3f2a91bc", .create 1 "77d0e4a5", .record 0, .record 1,
        .start 0, .start 1] := by
  intro h
  exact absurd (h.last rfl).created (by decide)

end Idempotency
end AgentSwarm
