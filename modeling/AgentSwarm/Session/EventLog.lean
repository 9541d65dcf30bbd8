import Mathlib.Data.List.Nodup
import AgentSwarm.Session.Service

/-!
# The event log of a session under concurrent calls

`append_event` and `update_state` rewrite the row under the session's lock, but
`get_or_create_with_id` reads and writes it without.  This file says what the
log and the state of a session are after any interleaving of the three calls.

* `LogAccounted`, `StateAccounted` — the log is the first log followed by the
  events of the committed `append_event` calls, each once; the state is the
  first state with the deltas of the committed `update_state` calls merged in.
* `AppendOnly` — both hold in every state a run visits, and no event that was
  stored once is ever missing or moved later.
* `OverwritesBlank` — the condition on a step under which that is so: the row
  that `get_or_create_with_id` writes over is missing or still blank.
* `appendOnly_of_overwritesBlank` — it is enough, for every run.
* `two_creators_lose_event` — without it a stored event is wiped out.
-/

namespace AgentSwarm
namespace SessionService

/-- A column of a session's row, or `default` when there is no row. -/
def Svc.column {α : Type} (s : Svc) (f : Row → α) (default : α) (sid : String) : α :=
  match s.db sid with
  | some row => f row
  | none => default

/-- The stored log of a session; a session that is not there has an empty one. -/
def Svc.events (s : Svc) (sid : String) : List JsonObj := s.column Row.events [] sid

/-- The stored state of a session. -/
def Svc.state (s : Svc) (sid : String) : JsonObj := s.column Row.state [] sid

/-- Is the call an `append_event` on the session? -/
def Call.Appends (sid : String) : Call → Prop
  | .appendEvent sid' _ => sid' = sid
  | _ => False

/-- Is the call an `update_state` on the session? -/
def Call.Updates (sid : String) : Call → Prop
  | .updateState sid' _ => sid' = sid
  | _ => False

/-- The event an `append_event` stores at the time `now`. -/
def Call.stored (now : ℚ) : Call → JsonObj
  | .appendEvent _ event => event.setDefault "timestamp" (.num now)
  | _ => []

/-- The delta an `update_state` merges. -/
def Call.delta : Call → JsonObj
  | .updateState _ delta => delta
  | _ => []

/-- Every committed `append_event` has its event in the log exactly once, after
the events of `s₀`, and nothing else is there. -/
def LogAccounted (prog : ℕ → Call) (s₀ s : Svc) (sid : String) : Prop :=
  ∃ (order : List ℕ) (now : ℕ → ℚ), order.Nodup ∧
    (∀ i, i ∈ order ↔ (prog i).Appends sid ∧ (s.pc i).Committed) ∧
    s.events sid = s₀.events sid ++ order.map fun i => (prog i).stored (now i)

/-- The state is the one of `s₀` with the delta of every committed
`update_state` merged in, in some order. -/
def StateAccounted (prog : ℕ → Call) (s₀ s : Svc) (sid : String) : Prop :=
  ∃ order : List ℕ, order.Nodup ∧
    (∀ i, i ∈ order ↔ (prog i).Updates sid ∧ (s.pc i).Committed) ∧
    s.state sid = order.foldl (fun st i => deepMerge st (prog i).delta) (s₀.state sid)

/-- **The event log is append-only along a run**: at any two moments of it, the
earlier log is the beginning of the later one, and the later log and state are
accounted for by the calls that have committed. -/
def AppendOnly (workDir : String → String → String) (prog : ℕ → Call)
    (db : String → Option Row) (acts : List Action) : Prop :=
  ∀ as bs cs, acts = as ++ bs ++ cs → ∀ s t,
    Run.exec (step workDir prog) (init db) as = some s →
    Run.exec (step workDir prog) s bs = some t → ∀ sid,
      s.events sid <+: t.events sid ∧ LogAccounted prog (init db) t sid ∧
        StateAccounted prog (init db) t sid

/-- A row that `get_or_create_with_id` is about to write over is missing, or has
no event and an empty state. -/
def OverwritesBlank (s : Svc) (a : Action) : Prop :=
  match s.pc a.call with
  | .creating sess => s.events sess.sessionId = [] ∧ s.state sess.sessionId = []
  | _ => True

instance (s : Svc) (a : Action) : Decidable (OverwritesBlank s a) := by
  unfold OverwritesBlank
  split <;> infer_instance

theorem OverwritesBlank.blank {s : Svc} {a : Action} (h : OverwritesBlank s a) (sess : Session)
    (hpc : s.pc a.call = .creating sess) :
    s.events sess.sessionId = [] ∧ s.state sess.sessionId = [] := by
  simpa only [OverwritesBlank, hpc] using h

/-! ## The invariant -/

/-- What holds between any two steps: a call goes through the one lock of its
session and holds it alone, its copy of the row is current, and the table is
accounted for. -/
structure Inv (prog : ℕ → Call) (s₀ s : Svc) : Prop where
  lock : ∀ i l, (s.pc i).lock = some l → s.locks (prog i).sessionId = some l
  owner : ∀ i l, (s.pc i).held = some l → s.owner l = some i
  copy : ∀ i l sess, s.pc i = .loaded l sess → sess.sessionId = (prog i).sessionId ∧
    sess.events = s.events (prog i).sessionId ∧ sess.state = s.state (prog i).sessionId
  creating : ∀ i sess, s.pc i = .creating sess → (prog i).Creates ∧ sess.state = [] ∧
    sess.events = [] ∧ sess.sessionId = (prog i).sessionId
  log : ∀ sid, LogAccounted prog s₀ s sid
  state : ∀ sid, StateAccounted prog s₀ s sid

theorem inv_init (prog : ℕ → Call) (db : String → Option Row) :
    Inv prog (init db) (init db) where
  lock := by simp [init, Pc.lock]
  owner := by simp [init, Pc.held, Pc.lock]
  copy := by simp [init]
  creating := by simp [init]
  log sid := ⟨[], fun _ => 0, by simp, by simp [init, Pc.Committed], by simp⟩
  state sid := ⟨[], by simp, by simp [init, Pc.Committed], rfl⟩

theorem lock_of_held {p : Pc} {l : ℕ} (h : p.held = some l) : p.lock = some l := by
  cases p <;> simp_all [Pc.held, Pc.lock]

variable {workDir : String → String → String} {prog : ℕ → Call} {s₀ s t : Svc} {i : ℕ} {now : ℚ}

/-- **Mutual exclusion.**  Two calls on one session that both hold its lock are
the same call. -/
theorem Inv.exclusive (h : Inv prog s₀ s) {j l l' : ℕ} (hi : (s.pc i).held = some l)
    (hj : (s.pc j).held = some l') (hsid : (prog i).sessionId = (prog j).sessionId) : i = j := by
  have hl : some l = some l' := by
    rw [← h.lock i l (lock_of_held hi), hsid, h.lock j l' (lock_of_held hj)]
  cases hl
  have hown : some i = some j := by rw [← h.owner i l hi, h.owner j l hj]
  exact Option.some.inj hown

/-! ## What each step does to the table -/

/-- The log stays accounted for as long as it and the committed appends of the
session stay the same. -/
theorem LogAccounted.of_same {sid : String} (h : LogAccounted prog s₀ s sid)
    (hev : t.events sid = s.events sid)
    (hpc : ∀ j, (prog j).Appends sid → ((t.pc j).Committed ↔ (s.pc j).Committed)) :
    LogAccounted prog s₀ t sid := by
  obtain ⟨order, now, hnd, hmem, hlog⟩ := h
  refine ⟨order, now, hnd, ?_, by rw [hev, hlog]⟩
  intro j
  rw [hmem]
  exact and_congr_right fun hj => (hpc j hj).symm

theorem StateAccounted.of_same {sid : String} (h : StateAccounted prog s₀ s sid)
    (hst : t.state sid = s.state sid)
    (hpc : ∀ j, (prog j).Updates sid → ((t.pc j).Committed ↔ (s.pc j).Committed)) :
    StateAccounted prog s₀ t sid := by
  obtain ⟨order, hnd, hmem, hstate⟩ := h
  refine ⟨order, hnd, ?_, by rw [hst, hstate]⟩
  intro j
  rw [hmem]
  exact and_congr_right fun hj => (hpc j hj).symm

/-- The committed calls in order, with one more at the end. -/
theorem order_concat {order : List ℕ} {P C D : ℕ → Prop} (hnd : order.Nodup)
    (hmem : ∀ j, j ∈ order ↔ P j ∧ C j) (hi : P i) (hnot : ¬ C i) (hnow : D i)
    (hother : ∀ j, j ≠ i → (D j ↔ C j)) :
    (order ++ [i]).Nodup ∧ ∀ j, j ∈ order ++ [i] ↔ P j ∧ D j := by
  have hfresh : i ∉ order := fun hin => hnot ((hmem i).1 hin).2
  refine ⟨by simpa using hnd.concat hfresh, ?_⟩
  intro j
  rw [List.mem_append, List.mem_singleton, hmem]
  by_cases hj : j = i
  · subst hj
    simp [hi, hnow]
  · simp [hj, hother j hj]

/-- One more committed append puts its event at the end of the log. -/
theorem LogAccounted.append {sid : String} (h : LogAccounted prog s₀ s sid)
    (hi : (prog i).Appends sid) (hnot : ¬ (s.pc i).Committed) (hnow : (t.pc i).Committed)
    (hother : ∀ j, j ≠ i → t.pc j = s.pc j)
    (hev : t.events sid = s.events sid ++ [(prog i).stored now]) :
    LogAccounted prog s₀ t sid := by
  obtain ⟨order, stamp, hnd, hmem, hlog⟩ := h
  obtain ⟨hnd', hmem'⟩ := order_concat (D := fun j => (t.pc j).Committed)
    hnd hmem hi hnot hnow fun j hj => by rw [hother j hj]
  refine ⟨order ++ [i], Function.update stamp i now, hnd', hmem', ?_⟩
  have hold : order.map (fun j => (prog j).stored (Function.update stamp i now j))
      = order.map fun j => (prog j).stored (stamp j) := by
    refine List.map_congr_left ?_
    intro j hj
    have hne : j ≠ i := by
      rintro rfl
      exact hnot ((hmem j).1 hj).2
    rw [Function.update_of_ne hne]
  rw [hev, hlog, List.map_append, hold]
  simp

/-- One more committed update merges its delta into the state. -/
theorem StateAccounted.update {sid : String} (h : StateAccounted prog s₀ s sid)
    (hi : (prog i).Updates sid) (hnot : ¬ (s.pc i).Committed) (hnow : (t.pc i).Committed)
    (hother : ∀ j, j ≠ i → t.pc j = s.pc j)
    (hst : t.state sid = deepMerge (s.state sid) (prog i).delta) :
    StateAccounted prog s₀ t sid := by
  obtain ⟨order, hnd, hmem, hstate⟩ := h
  obtain ⟨hnd', hmem'⟩ := order_concat (D := fun j => (t.pc j).Committed)
    hnd hmem hi hnot hnow fun j hj => by rw [hother j hj]
  refine ⟨order ++ [i], hnd', hmem', ?_⟩
  rw [hst, hstate, List.foldl_append]
  rfl

/-! ## What one step preserves -/

/-- A step moves only the call that takes it. -/
theorem Moved.pc_of_ne (hm : Moved prog s i now t) {j : ℕ} (hj : j ≠ i) : t.pc j = s.pc j := by
  cases hm with
  | idle _ _ _ hpc => rw [hpc, Function.update_of_ne hj]
  | _ => exact Function.update_of_ne hj _ _

/-- The lock of a session is never replaced. -/
theorem Moved.locks_mono (hm : Moved prog s i now t) {sid : String} {l : ℕ}
    (hl : s.locks sid = some l) : t.locks sid = some l := by
  cases hm with
  | idle _ _ hlocks => exact hlocks sid l hl
  | _ => exact hl

/-- A step takes no lock from another call. -/
theorem Moved.owner_of_ne (hm : Moved prog s i now t) (h : Inv prog s₀ s) {j l : ℕ} (hj : j ≠ i)
    (hl : s.owner l = some j) : t.owner l = some j := by
  have hother : ∀ l' o, s.owner l' = o → o ≠ some j → ∀ o', Function.update s.owner l' o' l = some j := by
    intro l' o hl' ho o'
    have hne : l ≠ l' := by
      rintro rfl
      exact ho (hl'.symm.trans hl)
    rw [Function.update_of_ne hne, hl]
  have hmine : ∀ l', (s.pc i).held = some l' → Function.update s.owner l' none l = some j := by
    intro l' hl'
    have hne : some i ≠ some j := by simpa using Ne.symm hj
    exact hother l' (some i) (h.owner i l' hl') hne none
  cases hm with
  | idle _ howner => rw [howner, hl]
  | acquire hpc hfree => exact hother _ none hfree (by simp) _
  | release hpc => exact hmine _ (by rw [hpc]; rfl)
  | releaseNone hpc => exact hmine _ (by rw [hpc]; rfl)
  | _ => exact hl

theorem Moved.lock (hm : Moved prog s i now t) (h : Inv prog s₀ s) (j l : ℕ)
    (hj : (t.pc j).lock = some l) : t.locks (prog j).sessionId = some l := by
  by_cases hji : j = i
  · subst hji
    cases hm with
    | idle _ _ _ hpc _ _ hlock => exact hlock l (by simpa [hpc] using hj)
    | acquire hpc => exact h.lock j l (by simpa [hpc, Svc.goto, Pc.lock] using hj)
    | load hpc => exact h.lock j l (by simpa [hpc, Svc.goto, Pc.lock] using hj)
    | loadNone hpc => exact h.lock j l (by simpa [hpc, Svc.goto, Pc.lock] using hj)
    | commit hpc => exact h.lock j l (by simpa [hpc, Svc.goto, Pc.lock] using hj)
    | release hpc => simp [Svc.goto, Pc.lock] at hj
    | releaseNone hpc => simp [Svc.goto, Pc.lock] at hj
    | create hpc => simp [Svc.goto, Pc.lock] at hj
  · rw [hm.pc_of_ne hji] at hj
    exact hm.locks_mono (h.lock j l hj)

theorem Moved.owner (hm : Moved prog s i now t) (h : Inv prog s₀ s) (j l : ℕ)
    (hj : (t.pc j).held = some l) : t.owner l = some j := by
  by_cases hji : j = i
  · subst hji
    cases hm with
    | idle _ _ _ hpc _ hto => simp [hpc, hto] at hj
    | acquire hpc =>
        cases (by simpa [Svc.goto, Pc.held, Pc.lock] using hj : _ = l)
        simp [Svc.acquire, Svc.goto]
    | load hpc => exact h.owner j l (by simpa [hpc, Svc.goto, Pc.held, Pc.lock] using hj)
    | loadNone hpc => exact h.owner j l (by simpa [hpc, Svc.goto, Pc.held, Pc.lock] using hj)
    | commit hpc => exact h.owner j l (by simpa [hpc, Svc.goto, Pc.held, Pc.lock] using hj)
    | release hpc => simp [Svc.goto, Pc.held, Pc.lock] at hj
    | releaseNone hpc => simp [Svc.goto, Pc.held, Pc.lock] at hj
    | create hpc => simp [Svc.goto, Pc.held, Pc.lock] at hj
  · rw [hm.pc_of_ne hji] at hj
    exact hm.owner_of_ne h hji (h.owner j l hj)

/-- **What a step does to the rows.**  Either no row and no committed call
changes, or the call commits its change to its own copy, or it stores a new
session over a blank row. -/
theorem Moved.rows (hm : Moved prog s i now t) :
    (t.db = s.db ∧ ((t.pc i).Committed → ¬ (s.pc i).Committed → (prog i).Creates) ∧
        ((s.pc i).Committed → (t.pc i).Committed)) ∨
      (∃ l sess, s.pc i = .loaded l sess ∧
        t = (s.save ((prog i).modify now sess)).goto i (.saved l ((prog i).modify now sess))) ∨
      ∃ sess, s.pc i = .creating sess ∧ t = (s.save sess).goto i (.returned (some sess)) := by
  cases hm with
  | idle hdb _ _ hpc hfrom _ _ hcommitted =>
      exact .inl ⟨hdb, fun hc _ => hcommitted (by simpa [hpc] using hc),
        fun hc => absurd hc hfrom.2⟩
  | acquire hpc => exact .inl ⟨rfl, by simp [Svc.goto, Pc.Committed], by simp [hpc, Pc.Committed]⟩
  | load hpc => exact .inl ⟨rfl, by simp [Svc.goto, Pc.Committed], by simp [hpc, Pc.Committed]⟩
  | loadNone hpc => exact .inl ⟨rfl, by simp [Svc.goto, Pc.Committed], by simp [hpc, Pc.Committed]⟩
  | commit hpc => exact .inr (.inl ⟨_, _, hpc, rfl⟩)
  | release hpc => exact .inl ⟨rfl, by simp [hpc, Pc.Committed], by simp [Svc.goto, Pc.Committed]⟩
  | releaseNone hpc =>
      exact .inl ⟨rfl, by simp [Svc.goto, Pc.Committed], by simp [hpc, Pc.Committed]⟩
  | create hpc => exact .inr (.inr ⟨_, hpc, rfl⟩)

theorem column_save {α : Type} (s : Svc) (f : Row → α) (d : α) (sess : Session) (sid : String) :
    (s.save sess).column f d sid
      = if sid = sess.sessionId then f sess.toRow else s.column f d sid := by
  by_cases h : sid = sess.sessionId <;> simp [Svc.save, Svc.column, h]

@[simp] theorem modify_sessionId (c : Call) (now : ℚ) (sess : Session) :
    (c.modify now sess).sessionId = sess.sessionId := by
  cases c <;> rfl

/-- **What a step does to one column.**  `P` are the calls on `sid` that change
the column.  A step leaves the column alone, or it is the commit of such a call
and writes what the call makes of a current copy. -/
theorem Moved.column {α : Type} {f : Row → α} {d : α} {sid : String} {P : Call → Prop}
    (hm : Moved prog s i now t) (h : Inv prog s₀ s)
    (hP : ∀ c, P c → c.sessionId = sid ∧ ¬ c.Creates)
    (hkeep : ∀ c sess, c.sessionId = sid → ¬ P c → f (c.modify now sess).toRow = f sess.toRow)
    (hcopy : ∀ l sess, s.pc i = .loaded l sess →
      f sess.toRow = s.column f d (prog i).sessionId)
    (hblank : ∀ sess, s.pc i = .creating sess → f sess.toRow = s.column f d sess.sessionId) :
    (t.column f d sid = s.column f d sid ∧
        ∀ j, P (prog j) → ((t.pc j).Committed ↔ (s.pc j).Committed)) ∨
      (P (prog i) ∧ (t.pc i).Committed ∧
        ∃ l sess, s.pc i = .loaded l sess ∧ f sess.toRow = s.column f d sid ∧
          t.column f d sid = f ((prog i).modify now sess).toRow) := by
  have hothers : (P (prog i) → ((t.pc i).Committed ↔ (s.pc i).Committed)) →
      ∀ j, P (prog j) → ((t.pc j).Committed ↔ (s.pc j).Committed) := by
    intro hi j hj
    by_cases hji : j = i
    · exact hji ▸ hi (hji ▸ hj)
    · rw [hm.pc_of_ne hji]
  rcases hm.rows with ⟨hdb, hnew, hkept⟩ | ⟨l, sess, hpc, rfl⟩ | ⟨sess, hpc, rfl⟩
  · refine .inl ⟨by simp only [Svc.column, hdb], hothers fun hi => ⟨?_, hkept⟩⟩
    intro hc
    by_contra hnot
    exact (hP _ hi).2 (hnew hc hnot)
  · have hid : sess.sessionId = (prog i).sessionId := (h.copy i l sess hpc).1
    have hcol : ((s.save ((prog i).modify now sess)).goto i
        (.saved l ((prog i).modify now sess))).column f d sid
        = if sid = (prog i).sessionId then f ((prog i).modify now sess).toRow
          else s.column f d sid := by
      rw [← hid, ← modify_sessionId (prog i) now sess]
      exact column_save s f d _ sid
    by_cases hi : P (prog i)
    · have hsid : sid = (prog i).sessionId := ((hP _ hi).1).symm
      refine .inr ⟨hi, by simp [Svc.goto, Pc.Committed], l, sess, hpc, ?_, ?_⟩
      · rw [hcopy l sess hpc, hsid]
      · rw [hcol, if_pos hsid]
    · refine .inl ⟨?_, hothers fun hc => absurd hc hi⟩
      by_cases hsid : sid = (prog i).sessionId
      · rw [hcol, if_pos hsid, hkeep _ sess hsid.symm hi, hcopy l sess hpc, hsid]
      · rw [hcol, if_neg hsid]
  · refine .inl ⟨?_, hothers fun hi => absurd (h.creating i sess hpc).1 (hP _ hi).2⟩
    show (s.save sess).column f d sid = _
    rw [column_save]
    split
    · rename_i hsid
      rw [hsid, hblank sess hpc]
    · rfl

/-! ### The log -/

theorem sessionId_of_appends {c : Call} {sid : String} (h : c.Appends sid) :
    c.sessionId = sid ∧ ¬ c.Creates := by
  cases c <;> simp_all [Call.Appends, Call.sessionId, Call.Creates]

theorem modify_events_of_not_appends {c : Call} {sid : String} {sess : Session}
    (hid : c.sessionId = sid) (h : ¬ c.Appends sid) :
    (c.modify now sess).events = sess.events := by
  cases c <;> simp_all [Call.Appends, Call.sessionId, Call.modify]

theorem modify_events_of_appends {c : Call} {sid : String} {sess : Session} (h : c.Appends sid) :
    (c.modify now sess).events = sess.events ++ [c.stored now] := by
  cases c <;> simp_all [Call.Appends, Call.modify, Call.stored]

/-- **A step leaves a log alone or puts the event of its own append at the end.** -/
theorem Moved.events (hm : Moved prog s i now t) (h : Inv prog s₀ s)
    (hok : ∀ sess, s.pc i = .creating sess → s.events sess.sessionId = []) (sid : String) :
    (t.events sid = s.events sid ∧
        ∀ j, (prog j).Appends sid → ((t.pc j).Committed ↔ (s.pc j).Committed)) ∨
      ((prog i).Appends sid ∧ (t.pc i).Committed ∧ (∃ l sess, s.pc i = .loaded l sess) ∧
        t.events sid = s.events sid ++ [(prog i).stored now]) := by
  rcases hm.column (f := Row.events) (d := []) (P := Call.Appends sid) h
    (fun _ => sessionId_of_appends) (fun _ _ => modify_events_of_not_appends)
    (fun l sess hpc => (h.copy i l sess hpc).2.1)
    (fun sess hpc => (h.creating i sess hpc).2.2.1.trans (hok sess hpc).symm)
    with hsame | ⟨hi, hnow, l, sess, hpc, hsess, hcol⟩
  · exact .inl hsame
  · refine .inr ⟨hi, hnow, ⟨l, sess, hpc⟩, ?_⟩
    rw [Svc.events, hcol, modify_events_of_appends hi, hsess]
    rfl

theorem Moved.log (hm : Moved prog s i now t) (h : Inv prog s₀ s)
    (hok : ∀ sess, s.pc i = .creating sess → s.events sess.sessionId = []) (sid : String) :
    LogAccounted prog s₀ t sid := by
  rcases hm.events h hok sid with ⟨hev, hpc⟩ | ⟨hi, hnow, ⟨l, sess, hpc⟩, hev⟩
  · exact (h.log sid).of_same hev hpc
  · have hnot : ¬ (s.pc i).Committed := by simp [hpc, Pc.Committed]
    exact (h.log sid).append hi hnot hnow (fun j => hm.pc_of_ne) hev

/-! ### The state -/

theorem sessionId_of_updates {c : Call} {sid : String} (h : c.Updates sid) :
    c.sessionId = sid ∧ ¬ c.Creates := by
  cases c <;> simp_all [Call.Updates, Call.sessionId, Call.Creates]

theorem modify_state_of_not_updates {c : Call} {sid : String} {sess : Session}
    (hid : c.sessionId = sid) (h : ¬ c.Updates sid) :
    (c.modify now sess).state = sess.state := by
  cases c <;> simp_all [Call.Updates, Call.sessionId, Call.modify]

theorem modify_state_of_updates {c : Call} {sid : String} {sess : Session} (h : c.Updates sid) :
    (c.modify now sess).state = deepMerge sess.state c.delta := by
  cases c <;> simp_all [Call.Updates, Call.modify, Call.delta]

/-- **A step leaves a state alone or merges the delta of its own update.** -/
theorem Moved.state (hm : Moved prog s i now t) (h : Inv prog s₀ s)
    (hok : ∀ sess, s.pc i = .creating sess → s.state sess.sessionId = []) (sid : String) :
    (t.state sid = s.state sid ∧
        ∀ j, (prog j).Updates sid → ((t.pc j).Committed ↔ (s.pc j).Committed)) ∨
      ((prog i).Updates sid ∧ (t.pc i).Committed ∧ (∃ l sess, s.pc i = .loaded l sess) ∧
        t.state sid = deepMerge (s.state sid) (prog i).delta) := by
  rcases hm.column (f := Row.state) (d := []) (P := Call.Updates sid) h
    (fun _ => sessionId_of_updates) (fun _ _ => modify_state_of_not_updates)
    (fun l sess hpc => (h.copy i l sess hpc).2.2)
    (fun sess hpc => (h.creating i sess hpc).2.1.trans (hok sess hpc).symm)
    with hsame | ⟨hi, hnow, l, sess, hpc, hsess, hcol⟩
  · exact .inl hsame
  · refine .inr ⟨hi, hnow, ⟨l, sess, hpc⟩, ?_⟩
    rw [Svc.state, hcol, modify_state_of_updates hi, hsess]
    rfl

theorem Moved.stateAccounted (hm : Moved prog s i now t) (h : Inv prog s₀ s)
    (hok : ∀ sess, s.pc i = .creating sess → s.state sess.sessionId = []) (sid : String) :
    StateAccounted prog s₀ t sid := by
  rcases hm.state h hok sid with ⟨hst, hpc⟩ | ⟨hi, hnow, ⟨l, sess, hpc⟩, hst⟩
  · exact (h.state sid).of_same hst hpc
  · have hnot : ¬ (s.pc i).Committed := by simp [hpc, Pc.Committed]
    exact (h.state sid).update hi hnot hnow (fun j => hm.pc_of_ne) hst

/-! ### The copies -/

/-- The copy a call holds is made from the stored row. -/
theorem getSession_some {sid : String} {sess : Session} (h : s.getSession sid = some sess) :
    sess.sessionId = sid ∧ sess.events = s.events sid ∧ sess.state = s.state sid := by
  cases hrow : s.db sid with
  | none => simp [Svc.getSession, hrow] at h
  | some row =>
      simp only [Svc.getSession, hrow, Option.map_some, Option.some.injEq] at h
      subst h
      simp [Svc.events, Svc.state, Svc.column, hrow]

/-- A copy is only ever made by reading the row under the lock. -/
theorem Moved.loaded (hm : Moved prog s i now t) {l : ℕ} {sess : Session}
    (hi : t.pc i = .loaded l sess) :
    t.db = s.db ∧ s.getSession (prog i).sessionId = some sess := by
  cases hm with
  | idle _ _ _ hpc _ hto =>
      rw [hpc, Function.update_self] at hi
      rw [hi] at hto
      cases hto
  | load hpc hrow =>
      simp only [Svc.goto, Function.update_self, Pc.loaded.injEq] at hi
      exact ⟨rfl, hi.2 ▸ hrow⟩
  | _ => simp [Svc.goto] at hi

/-- **Copies stay current.**  While a call holds a copy of a row, no step of
another call changes the log or the state in it. -/
theorem Moved.copy (hm : Moved prog s i now t) (h : Inv prog s₀ s)
    (hok : ∀ sess, s.pc i = .creating sess →
      s.events sess.sessionId = [] ∧ s.state sess.sessionId = []) (j l : ℕ) (sess : Session)
    (hj : t.pc j = .loaded l sess) : sess.sessionId = (prog j).sessionId ∧
      sess.events = t.events (prog j).sessionId ∧ sess.state = t.state (prog j).sessionId := by
  by_cases hji : j = i
  · subst hji
    obtain ⟨hdb, hrow⟩ := hm.loaded hj
    have hcurrent := getSession_some hrow
    simpa only [Svc.events, Svc.state, Svc.column, hdb] using hcurrent
  · rw [hm.pc_of_ne hji] at hj
    obtain ⟨hid, hev, hst⟩ := h.copy j l sess hj
    have hheld : (s.pc j).held = some l := by rw [hj]; rfl
    -- a commit to the same session would need the lock that call `j` holds
    have hno : ∀ l' sess', s.pc i = .loaded l' sess' →
        (prog i).sessionId ≠ (prog j).sessionId := by
      intro l' sess' hpc hsid
      have hheld' : (s.pc i).held = some l' := by rw [hpc]; rfl
      exact hji (h.exclusive hheld' hheld hsid).symm
    refine ⟨hid, ?_, ?_⟩
    · rcases hm.events h (fun sess' hpc => (hok sess' hpc).1) (prog j).sessionId
        with ⟨hsame, -⟩ | ⟨hi, -, ⟨l', sess', hpc⟩, -⟩
      · rw [hsame, hev]
      · exact absurd (sessionId_of_appends hi).1 (hno l' sess' hpc)
    · rcases hm.state h (fun sess' hpc => (hok sess' hpc).2) (prog j).sessionId
        with ⟨hsame, -⟩ | ⟨hi, -, ⟨l', sess', hpc⟩, -⟩
      · rw [hsame, hst]
      · exact absurd (sessionId_of_updates hi).1 (hno l' sess' hpc)

theorem Moved.creating (hm : Moved prog s i now t) (h : Inv prog s₀ s) (j : ℕ) (sess : Session)
    (hj : t.pc j = .creating sess) : (prog j).Creates ∧ sess.state = [] ∧ sess.events = [] ∧
      sess.sessionId = (prog j).sessionId := by
  by_cases hji : j = i
  · subst hji
    cases hm with
    | idle _ _ _ hpc _ _ _ _ hcreating =>
        exact hcreating sess (by simpa [hpc] using hj)
    | _ => simp [Svc.goto] at hj
  · exact h.creating j sess (by rwa [hm.pc_of_ne hji] at hj)

/-! ## Whole runs -/

/-- **One step.**  A step that overwrites no more than a blank row keeps the
invariant. -/
theorem inv_step {a : Action} (h : Inv prog s₀ s) (hok : OverwritesBlank s a)
    (hstep : step workDir prog s a = some t) : Inv prog s₀ t :=
  have hm := step_cases hstep
  { lock := hm.lock h
    owner := hm.owner h
    copy := hm.copy h hok.blank
    creating := hm.creating h
    log := hm.log h fun sess hpc => (hok.blank sess hpc).1
    state := hm.stateAccounted h fun sess hpc => (hok.blank sess hpc).2 }

/-- One step never takes an event out of a log. -/
theorem events_prefix_step {a : Action} (h : Inv prog s₀ s) (hok : OverwritesBlank s a)
    (hstep : step workDir prog s a = some t) (sid : String) : s.events sid <+: t.events sid := by
  rcases (step_cases hstep).events h (fun sess hpc => (hok.blank sess hpc).1) sid
    with ⟨hev, -⟩ | ⟨-, -, -, hev⟩
  · exact hev ▸ List.prefix_rfl
  · exact hev ▸ List.prefix_append _ _

/-- **The event log is append-only in every run in which
`get_or_create_with_id` writes over blank rows only.** -/
theorem appendOnly_of_overwritesBlank (workDir : String → String → String) (prog : ℕ → Call)
    (db : String → Option Row) (acts : List Action)
    (hok : Run.Along (step workDir prog) OverwritesBlank (init db) acts) :
    AppendOnly workDir prog db acts := by
  rintro as bs cs rfl s t hs ht sid
  have hsteady : Run.Steadily (step workDir prog) (fun s t => ∀ sid, s.events sid <+: t.events sid)
      (init db) (as ++ bs ++ cs) :=
    Run.steadily_of_invariant (fun _ _ _ => inv_step)
      (fun _ _ _ h hok ht => events_prefix_step h hok ht) (inv_init prog db) hok
  have hst : Run.exec (step workDir prog) (init db) (as ++ bs) = some t := by
    rw [Run.exec_append, hs]
    exact ht
  have hinv : Inv prog (init db) t :=
    Run.exec_invariant (fun _ _ _ => inv_step) (inv_init prog db) (Run.along_of_append hok) hst
  refine ⟨?_, hinv.log sid, hinv.state sid⟩
  exact Run.rel_of_steadily (fun _ _ => List.prefix_rfl)
    (fun _ _ _ h₁ h₂ sid => (h₁ sid).trans (h₂ sid)) hsteady hs ht sid

/-! ## Two requests that create the same session -/

/-- `str(base / "tenants" / tenant_id / "sessions" / session_id)` for plain names. -/
def dataDir (tenantId sessionId : String) : String :=
  "/data/tenants/" ++ tenantId ++ "/sessions/" ++ sessionId

/-- Two requests that name the same new session, and the `append_event` of the
first. -/
def twoRequests : ℕ → Call
  | 2 => .appendEvent "s1" [("type", .str "user_message")]
  | _ => .getOrCreateWithId "s1" "acme"

/-- Each call in turn takes a step, at the times `0, 0, …`. -/
def schedule (calls : List ℕ) : List Action := calls.map fun i => ⟨i, 0⟩

/-- The second request looks after the first has finished: it finds the session. -/
theorem appendOnly_twoRequests_in_turn :
    AppendOnly dataDir twoRequests (fun _ => none)
      (schedule [0, 0, 0, 2, 2, 2, 2, 2, 2, 2, 1]) :=
  appendOnly_of_overwritesBlank _ _ _ _ (by decide)

/-- **Two creators lose an event.**  Both requests find no session; the first
creates it and appends its event; then the second stores its own empty session
over it. -/
theorem two_creators_lose_event :
    ¬ AppendOnly dataDir twoRequests (fun _ => none)
      (schedule [0, 1, 0, 0, 2, 2, 2, 2, 2, 2, 2] ++ schedule [1, 1]) := by
  intro h
  have hprefix := (h (schedule [0, 1, 0, 0, 2, 2, 2, 2, 2, 2, 2]) (schedule [1, 1]) [] (by simp)
    _ _ rfl rfl "s1").1
  exact absurd hprefix.length_le (by decide)

end SessionService
end AgentSwarm
