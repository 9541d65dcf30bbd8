import AgentSwarm.Lib.Linear
import AgentSwarm.Session.EventLog

/-!
# A stored session is one object

The three calls on a session that is stored overlap, and go through the lock of the session or
past it.  They are explained by one order in which each of them happens at once: an
`append_event` or `update_state` where it saves the row, a `get_or_create_with_id` where it reads
it.

* `Call.applied`, `Call.answer` — what a call makes of the row, and returns, when it happens at
  once.
* `Explained` — the row and the answers are those of an order.
* `Sim` — the simulation: an order, and what each call on the way has still to give.
* `sim_step` — **one step** makes the order longer by the call that happens in it, if one does.
* `linearizable` — **every run**; nothing is asked of the calls on other sessions.
-/

namespace AgentSwarm
namespace SessionService

open Linear (Explains AnswerIn replay)

/-- The session that a row is. -/
def Row.session (row : Row) (sessionId : String) : Session := { row with sessionId := sessionId }

/-- The row after a call that happens at once. -/
def Call.applied (c : Call) (now : ℚ) (row : Row) : Row :=
  (c.modify now (row.session c.sessionId)).toRow

/-- What the call returns. -/
def Call.answer (c : Call) (now : ℚ) (row : Row) : Option Session :=
  some (c.modify now (row.session c.sessionId))

/-- The order explains the row of the session and what the calls on it have returned. -/
def Explained (prog : ℕ → Call) (sid : String) (row₀ : Row) (s : Svc) (order : List (ℕ × ℚ)) :
    Prop :=
  ∃ row, s.db sid = some row ∧
    Explains (fun i => (prog i).applied) (fun i => (prog i).answer) row₀ order
      (fun i => (prog i).sessionId = sid ∧ s.pc i ≠ .start)
      (fun i result => (prog i).sessionId = sid ∧ s.pc i = .returned result) row

/-! ## The simulation -/

/-- Who has a lock, holds it. -/
def Owned (s : Svc) : Prop := ∀ i l, (s.pc i).held = some l → s.owner l = some i

/-- A place that a call on a stored session may come to. -/
def Pc.Stored : Pc → Prop
  | .missing => False
  | .creating _ => False
  | .absent _ => False
  | _ => True

/-- The call has begun, and has not happened. -/
def Pc.Waits : Pc → Prop
  | .waitDict => True
  | .inDict => True
  | .waitLock _ => True
  | .inLock _ => True
  | .loaded _ _ => True
  | _ => False

theorem Pc.Waits.stored {p : Pc} (h : p.Waits) : p.Stored := by cases p <;> trivial

/-- The calls that are on the way. -/
structure OnTheWay (prog : ℕ → Call) (sid : String) (s : Svc) : Prop where
  owned : Owned s
  lock : ∀ i l, (prog i).sessionId = sid → (s.pc i).lock = some l → s.locks sid = some l
  loaded : ∀ i l sess, s.pc i = .loaded l sess → sess.sessionId = (prog i).sessionId
  creating : ∀ i sess, s.pc i = .creating sess → sess.sessionId = (prog i).sessionId
  /-- A copy of the row is the row. -/
  copy : ∀ i l sess, (prog i).sessionId = sid → s.pc i = .loaded l sess →
    s.db sid = some sess.toRow
  stored : ∀ i, (prog i).sessionId = sid → (s.pc i).Stored

/-- **The simulation.**  The calls of the order are those that have happened, and a call that has
saved the row has its answer. -/
structure Sim (prog : ℕ → Call) (sid : String) (row₀ : Row) (s : Svc) (order : List (ℕ × ℚ)) :
    Prop where
  explained : Explained prog sid row₀ s order
  way : OnTheWay prog sid s
  happened : ∀ e ∈ order, (s.pc e.1).Committed
  saved : ∀ i l sess, (prog i).sessionId = sid → s.pc i = .saved l sess →
    AnswerIn (fun i => (prog i).applied) (fun i => (prog i).answer) row₀ order i (some sess)

variable {workDir : String → String → String} {prog : ℕ → Call} {sid : String} {row₀ row : Row}
  {s t : Svc} {i : ℕ} {now : ℚ} {order : List (ℕ × ℚ)} {a : Action}

/-! ## The locks -/

theorem Moved.owner_kept (hm : Moved prog s i now t) (h : Owned s) {j l : ℕ} (hj : j ≠ i)
    (hl : s.owner l = some j) : t.owner l = some j := by
  have hmine : ∀ l', (s.pc i).held = some l' → (s.release l').owner l = some j := by
    intro l' hl'
    have hne : l ≠ l' := by
      rintro rfl
      exact hj (Option.some.inj (hl.symm.trans (h i l hl')))
    exact (Function.update_of_ne hne _ _).trans hl
  cases hm with
  | idle _ howner => rw [howner, hl]
  | acquire hpc hfree =>
      rename_i l'
      have hne : l ≠ l' := by
        rintro rfl
        exact Option.some_ne_none j (hl.symm.trans hfree)
      exact (Function.update_of_ne hne _ _).trans hl
  | release hpc => exact hmine _ (by rw [hpc]; rfl)
  | releaseNone hpc => exact hmine _ (by rw [hpc]; rfl)
  | _ => exact hl

theorem Moved.owned (hm : Moved prog s i now t) (h : Owned s) : Owned t := by
  intro j l hj
  by_cases hji : j = i
  · subst hji
    cases hm with
    | idle _ _ _ hpc _ hto =>
        rw [hpc, Function.update_self, hto] at hj
        cases hj
    | acquire hpc =>
        cases (by simpa [Svc.goto, Pc.held, Pc.lock] using hj : _ = l)
        simp [Svc.acquire, Svc.goto]
    | load hpc => exact h j l (by simpa [hpc, Svc.goto, Pc.held, Pc.lock] using hj)
    | loadNone hpc => exact h j l (by simpa [hpc, Svc.goto, Pc.held, Pc.lock] using hj)
    | commit hpc => exact h j l (by simpa [hpc, Svc.goto, Pc.held, Pc.lock] using hj)
    | _ => simp [Svc.goto, Pc.held, Pc.lock] at hj
  · rw [hm.pc_of_ne hji] at hj
    exact hm.owner_kept h hji (h j l hj)

/-- Two calls on the session that hold its lock are one. -/
theorem OnTheWay.exclusive (h : OnTheWay prog sid s) {j l l' : ℕ} (hi : (s.pc i).held = some l)
    (hj : (s.pc j).held = some l') (hsid : (prog i).sessionId = sid)
    (hsid' : (prog j).sessionId = sid) : i = j := by
  have hsame : some l = some l' :=
    (h.lock i l hsid (lock_of_held hi)).symm.trans (h.lock j l' hsid' (lock_of_held hj))
  obtain rfl := Option.some.inj hsame
  exact Option.some.inj ((h.owned i l hi).symm.trans (h.owned j l hj))

theorem Moved.lock_kept (hm : Moved prog s i now t) (h : OnTheWay prog sid s) (j l : ℕ)
    (hsid : (prog j).sessionId = sid) (hj : (t.pc j).lock = some l) : t.locks sid = some l := by
  by_cases hji : j = i
  · subst hji
    cases hm with
    | idle _ _ _ hpc _ _ hlock => exact hsid ▸ hlock l (by simpa [hpc] using hj)
    | acquire hpc => exact h.lock j l hsid (by simpa [hpc, Svc.goto, Pc.lock] using hj)
    | load hpc => exact h.lock j l hsid (by simpa [hpc, Svc.goto, Pc.lock] using hj)
    | loadNone hpc => exact h.lock j l hsid (by simpa [hpc, Svc.goto, Pc.lock] using hj)
    | commit hpc => exact h.lock j l hsid (by simpa [hpc, Svc.goto, Pc.lock] using hj)
    | _ => simp [Svc.goto, Pc.lock] at hj
  · rw [hm.pc_of_ne hji] at hj
    exact hm.locks_mono (h.lock j l hsid hj)

/-! ## What a step does to the session -/

/-- What a step does to a stored session. -/
inductive Effect (prog : ℕ → Call) (sid : String) (row : Row) (s : Svc) (i : ℕ) (now : ℚ)
    (t : Svc) : Prop
  /-- The call is on another session. -/
  | other (hsid : (prog i).sessionId ≠ sid) (hdb : t.db sid = s.db sid)
  /-- The call goes on, and has not happened yet. -/
  | waits (hdb : t.db = s.db) (hfrom : ¬(s.pc i).Committed) (hto : (t.pc i).Waits)
  | reads (hsid : (prog i).sessionId = sid) (hcall : (prog i).Creates) (hpc : s.pc i = .start)
      (ht : t = s.goto i (.returned (some (row.session sid))))
  | saves {l : ℕ} {sess : Session} (hsid : (prog i).sessionId = sid) (hpc : s.pc i = .loaded l sess)
      (ht : t = (s.save ((prog i).modify now sess)).goto i (.saved l ((prog i).modify now sess)))
  /-- The row has been saved, and the call returns. -/
  | ends {l : ℕ} {sess : Session} (hsid : (prog i).sessionId = sid) (hpc : s.pc i = .saved l sess)
      (ht : t = (s.release l).goto i (.returned (some sess)))

theorem Effect.ofWaiting {p : Pc} (hdb : t.db = s.db) (hpc : t.pc i = p)
    (hfrom : ¬(s.pc i).Committed) (hto : p.Waits) : Effect prog sid row s i now t :=
  .waits hdb hfrom (hpc ▸ hto)

theorem lookLock_effect (hfrom : ¬(s.pc i).Committed) (sid' : String) :
    Effect prog sid row s i now (s.lookLock i sid') := by
  unfold Svc.lookLock
  split <;> exact .ofWaiting rfl (Function.update_self _ _ _) hfrom trivial

theorem getSession_of_row (hrow : s.db sid = some row) : s.getSession sid = some (row.session sid) := by
  rw [Svc.getSession, hrow]
  rfl

/-- **One step of a call on the session.** -/
theorem effect_of_call (h : OnTheWay prog sid s) (hrow : s.db sid = some row)
    (hsid : (prog i).sessionId = sid) (hstep : step workDir prog s ⟨i, now⟩ = some t) :
    Effect prog sid row s i now t := by
  have hstored := h.stored i hsid
  have hget := getSession_of_row hrow
  simp only [step, hsid] at hstep
  cases hpc : s.pc i with
  | start =>
      have hfrom : ¬(s.pc i).Committed := by rw [hpc]; exact id
      simp only [hpc, hget] at hstep
      cases hcall : prog i with
      | getOrCreateWithId sid' tenantId =>
          simp only [hcall, Option.some.injEq] at hstep
          exact .reads hsid (by rw [hcall]; trivial) hpc hstep.symm
      | appendEvent sid' event =>
          simp only [hcall, Option.some.injEq] at hstep
          exact hstep ▸ lookLock_effect hfrom sid
      | updateState sid' delta =>
          simp only [hcall, Option.some.injEq] at hstep
          exact hstep ▸ lookLock_effect hfrom sid
  | waitDict =>
      have hfrom : ¬(s.pc i).Committed := by rw [hpc]; exact id
      simp only [hpc] at hstep
      split at hstep <;> cases hstep
      exact .ofWaiting rfl (Function.update_self _ _ _) hfrom trivial
  | inDict =>
      have hfrom : ¬(s.pc i).Committed := by rw [hpc]; exact id
      simp only [hpc] at hstep
      split at hstep <;> cases hstep <;>
        exact .ofWaiting rfl (Function.update_self _ _ _) hfrom trivial
  | waitLock lock =>
      have hfrom : ¬(s.pc i).Committed := by rw [hpc]; exact id
      simp only [hpc] at hstep
      split at hstep <;> cases hstep
      exact .ofWaiting rfl (Function.update_self _ _ _) hfrom trivial
  | inLock lock =>
      have hfrom : ¬(s.pc i).Committed := by rw [hpc]; exact id
      simp only [hpc, hget, Option.some.injEq] at hstep
      subst hstep
      exact .ofWaiting rfl (Function.update_self _ _ _) hfrom trivial
  | loaded lock sess =>
      simp only [hpc, Option.some.injEq] at hstep
      exact .saves hsid hpc hstep.symm
  | saved lock sess =>
      simp only [hpc, Option.some.injEq] at hstep
      exact .ends hsid hpc hstep.symm
  | absent lock =>
      rw [hpc] at hstored
      exact hstored.elim
  | missing =>
      rw [hpc] at hstored
      exact hstored.elim
  | creating sess =>
      rw [hpc] at hstored
      exact hstored.elim
  | returned result =>
      rw [hpc] at hstep
      cases hstep

/-- **One step of any call.** -/
theorem effect_of_step (h : OnTheWay prog sid s) (hrow : s.db sid = some row)
    (hstep : step workDir prog s ⟨i, now⟩ = some t) : Effect prog sid row s i now t := by
  by_cases hsid : (prog i).sessionId = sid
  · exact effect_of_call h hrow hsid hstep
  · refine .other hsid ?_
    have hkept : ∀ sess : Session, sess.sessionId = (prog i).sessionId →
        (s.save sess).db sid = s.db sid := by
      intro sess hid
      exact Function.update_of_ne (fun heq => hsid (hid.symm.trans heq.symm)) _ _
    rcases (step_cases hstep).rows with ⟨hdb, -⟩ | ⟨l, sess, hpc, rfl⟩ | ⟨sess, hpc, rfl⟩
    · rw [hdb]
    · exact hkept _ ((modify_sessionId _ _ _).trans (h.loaded i l sess hpc))
    · exact hkept _ (h.creating i sess hpc)

/-! ## The calls on the way -/

/-- A call that goes on does not come to a place where the session is missing. -/
theorem Effect.stored (he : Effect prog sid row s i now t) (hsid : (prog i).sessionId = sid) :
    (t.pc i).Stored := by
  cases he with
  | other hother => exact absurd hsid hother
  | waits _ _ hto => exact hto.stored
  | reads _ _ _ ht => simp [ht, Svc.goto, Pc.Stored]
  | saves _ _ ht => simp [ht, Svc.goto, Pc.Stored]
  | ends _ _ ht => simp [ht, Svc.goto, Pc.Stored]

/-- The row is written by a call on the session that holds its lock. -/
theorem Effect.db (he : Effect prog sid row s i now t) :
    t.db sid = s.db sid ∨ (prog i).sessionId = sid ∧ ∃ l sess, s.pc i = .loaded l sess := by
  cases he with
  | other _ hdb => exact .inl hdb
  | waits hdb => exact .inl (by rw [hdb])
  | reads _ _ _ ht => exact .inl (by rw [ht]; rfl)
  | saves hsid hpc => exact .inr ⟨hsid, _, _, hpc⟩
  | ends _ _ ht => exact .inl (by rw [ht]; rfl)

theorem Moved.creating_id (hm : Moved prog s i now t) (h : OnTheWay prog sid s) (j : ℕ)
    (sess : Session) (hj : t.pc j = .creating sess) : sess.sessionId = (prog j).sessionId := by
  by_cases hji : j = i
  · subst hji
    cases hm with
    | idle _ _ _ hpc _ _ _ _ hcreating => exact (hcreating sess (by simpa [hpc] using hj)).2.2.2
    | _ => simp [Svc.goto] at hj
  · exact h.creating j sess (by rwa [hm.pc_of_ne hji] at hj)

/-- **One step keeps the calls on their way.** -/
theorem way_step (h : OnTheWay prog sid s) (hrow : s.db sid = some row)
    (hstep : step workDir prog s ⟨i, now⟩ = some t) : OnTheWay prog sid t := by
  have hm := step_cases hstep
  have he := effect_of_step h hrow hstep
  refine ⟨hm.owned h.owned, hm.lock_kept h, ?_, hm.creating_id h, ?_, ?_⟩
  · intro j l sess hj
    by_cases hji : j = i
    · subst hji
      exact (getSession_some (hm.loaded hj).2).1
    · exact h.loaded j l sess (by rwa [hm.pc_of_ne hji] at hj)
  · intro j l sess hsid hj
    by_cases hji : j = i
    · subst hji
      obtain ⟨hdb, hget⟩ := hm.loaded hj
      rw [hsid, getSession_of_row hrow] at hget
      rw [hdb, hrow, ← Option.some.inj hget]
      rfl
    · rw [hm.pc_of_ne hji] at hj
      rcases he.db with hdb | ⟨hsid', l', sess', hpc⟩
      · exact hdb.trans (h.copy j l sess hsid hj)
      · have hheld : (s.pc i).held = some l' := by rw [hpc]; rfl
        have hheld' : (s.pc j).held = some l := by rw [hj]; rfl
        exact absurd (h.exclusive hheld hheld' hsid' hsid).symm hji
  · intro j hsid
    by_cases hji : j = i
    · subst hji
      exact he.stored hsid
    · rw [hm.pc_of_ne hji]
      exact h.stored j hsid

/-! ## The order -/

/-- A call in the order is one that has happened. -/
theorem Sim.fresh (h : Sim prog sid row₀ s order) (hi : ¬(s.pc i).Committed) :
    ∀ e ∈ order, e.1 ≠ i := by
  rintro e he rfl
  exact hi (h.happened e he)

/-- The answers of the order. -/
theorem answerIn_saved (more : List (ℕ × ℚ)) (h : Sim prog sid row₀ s order)
    (hm : Moved prog s i now t)
    (hmine : ∀ l sess, (prog i).sessionId = sid → t.pc i = .saved l sess →
      AnswerIn (fun i => (prog i).applied) (fun i => (prog i).answer) row₀ (order ++ more) i
        (some sess)) (j l : ℕ) (sess : Session) (hsid : (prog j).sessionId = sid)
    (hj : t.pc j = .saved l sess) :
    AnswerIn (fun i => (prog i).applied) (fun i => (prog i).answer) row₀ (order ++ more) j
      (some sess) := by
  by_cases hji : j = i
  · subst hji
    exact hmine l sess hsid hj
  · exact (h.saved j l sess hsid (by rwa [hm.pc_of_ne hji] at hj)).append more

/-- A step in which no call on the session happens. -/
theorem Sim.goes_on (h : Sim prog sid row₀ s order) (hm : Moved prog s i now t)
    (hway : OnTheWay prog sid t) (hdb : t.db sid = s.db sid)
    (hmine : (prog i).sessionId = sid → ((s.pc i).Committed → (t.pc i).Committed) ∧
      t.pc i ≠ .start ∧ (∀ l sess, t.pc i ≠ .saved l sess) ∧
      ∀ result, t.pc i = .returned result →
        AnswerIn (fun i => (prog i).applied) (fun i => (prog i).answer) row₀ order i result) :
    Sim prog sid row₀ t order := by
  obtain ⟨row, hrow, hexplains⟩ := h.explained
  refine ⟨⟨row, hdb.trans hrow, hexplains.step ?_ ?_⟩, hway, ?_, ?_⟩
  · rintro j ⟨hsid, hstart⟩
    refine ⟨hsid, ?_⟩
    by_cases hji : j = i
    · subst hji
      exact (hmine hsid).2.1
    · rwa [hm.pc_of_ne hji]
  · rintro j result ⟨hsid, hreturned⟩
    by_cases hji : j = i
    · subst hji
      exact .inr ((hmine hsid).2.2.2 result hreturned)
    · exact .inl ⟨hsid, by rwa [hm.pc_of_ne hji] at hreturned⟩
  · intro e he
    by_cases hei : e.1 = i
    · have hsid := (hexplains.begun e he).1
      rw [hei] at hsid ⊢
      exact (hmine hsid).1 (hei ▸ h.happened e he)
    · rw [hm.pc_of_ne hei]
      exact h.happened e he
  · intro j l sess hsid hj
    have hanswer := answerIn_saved [] h hm
      (fun l sess hsid hi => absurd hi ((hmine hsid).2.2.1 l sess)) j l sess hsid hj
    rwa [List.append_nil] at hanswer

/-- A step in which a call on the session happens. -/
theorem Sim.happens (h : Sim prog sid row₀ s order) (hm : Moved prog s i now t)
    (hway : OnTheWay prog sid t) (hsid : (prog i).sessionId = sid) (hrow : s.db sid = some row)
    (hfrom : ¬(s.pc i).Committed) (hto : (t.pc i).Committed)
    (hdb : t.db sid = some ((prog i).applied now row))
    (hreturned : ∀ result, t.pc i = .returned result → result = (prog i).answer now row)
    (hsaved : ∀ l sess, t.pc i = .saved l sess → some sess = (prog i).answer now row) :
    Sim prog sid row₀ t (order ++ [(i, now)]) := by
  obtain ⟨row', hrow', hexplains⟩ := h.explained
  obtain rfl : row = row' := Option.some.inj (hrow.symm.trans hrow')
  have hfresh := h.fresh hfrom
  have hstart : t.pc i ≠ .start := by
    intro hstart
    rw [hstart] at hto
    exact hto
  refine ⟨⟨_, hdb, hexplains.happens now hfresh ?_ ⟨hsid, hstart⟩ ?_⟩, hway, ?_, ?_⟩
  · rintro j ⟨hsid', hj⟩
    refine ⟨hsid', ?_⟩
    by_cases hji : j = i
    · exact hji ▸ hstart
    · rwa [hm.pc_of_ne hji]
  · rintro j result ⟨hsid', hj⟩
    by_cases hji : j = i
    · subst hji
      exact .inr ⟨rfl, hreturned result hj⟩
    · exact .inl ⟨hsid', by rwa [hm.pc_of_ne hji] at hj⟩
  · intro e he
    rcases List.mem_append.1 he with he | he
    · rw [hm.pc_of_ne (hfresh e he)]
      exact h.happened e he
    · rw [List.mem_singleton.1 he]
      exact hto
  · refine answerIn_saved _ h hm ?_
    intro l sess _ hi
    exact ⟨order, now, [], rfl, by rw [hsaved l sess hi, hexplains.object]⟩

/-- **One step**: the order stays, or the call that happens is put at its end. -/
theorem sim_step (h : Sim prog sid row₀ s order)
    (hstep : step workDir prog s ⟨i, now⟩ = some t) :
    ∃ more, Sim prog sid row₀ t (order ++ more) := by
  obtain ⟨row, hrow, -⟩ := h.explained
  have hm := step_cases hstep
  have hway := way_step h.way hrow hstep
  cases effect_of_step h.way hrow hstep with
  | other hsid hdb =>
      refine ⟨[], ?_⟩
      rw [List.append_nil]
      exact h.goes_on hm hway hdb fun hsid' => absurd hsid' hsid
  | waits hdb hfrom hto =>
      refine ⟨[], ?_⟩
      rw [List.append_nil]
      refine h.goes_on hm hway (by rw [hdb]) fun _ => ⟨fun hc => absurd hc hfrom, ?_, ?_, ?_⟩
      · intro hpc
        rw [hpc] at hto
        exact hto
      · intro l sess hpc
        rw [hpc] at hto
        exact hto
      · intro result hpc
        rw [hpc] at hto
        exact hto.elim
  | reads hsid hcall hpc ht =>
      subst ht
      have hmodify (sess : Session) : (prog i).modify now sess = sess := by
        cases hi : prog i <;> rw [hi] at hcall <;> first | rfl | exact hcall.elim
      refine ⟨[(i, now)], h.happens hm hway hsid hrow (by rw [hpc]; exact id)
        (by simp [Svc.goto, Pc.Committed]) ?_ ?_ (by simp [Svc.goto])⟩
      · rw [Call.applied, hmodify]
        exact hrow
      · intro result hresult
        rw [Call.answer, hmodify, hsid]
        simpa [Svc.goto] using hresult.symm
  | saves hsid hpc ht =>
      rename_i l sess
      subst ht
      have hid := h.way.loaded i l sess hpc
      have hsession : row.session (prog i).sessionId = sess := by
        rw [h.way.copy i l sess hsid hpc] at hrow
        rw [← Option.some.inj hrow, ← hid]
        rfl
      refine ⟨[(i, now)], h.happens hm hway hsid hrow (by rw [hpc]; exact id)
        (by simp [Svc.goto, Pc.Committed]) ?_ (by simp [Svc.goto]) ?_⟩
      · rw [Call.applied, hsession, ← hsid, ← hid, ← modify_sessionId (prog i) now sess]
        exact Function.update_self _ _ _
      · intro l' sess' hsaved
        rw [Call.answer, hsession]
        simp only [Svc.goto, Function.update_self, Pc.saved.injEq] at hsaved
        rw [hsaved.2]
  | ends hsid hpc ht =>
      rename_i l sess
      subst ht
      refine ⟨[], ?_⟩
      rw [List.append_nil]
      refine h.goes_on hm hway rfl fun _ => ⟨fun _ => ?_, ?_, ?_, ?_⟩
      · simp [Svc.goto, Pc.Committed]
      · simp [Svc.goto]
      · simp [Svc.goto]
      · intro result hresult
        obtain rfl : some sess = result := by simpa [Svc.goto] using hresult
        exact h.saved i l sess hsid hpc

theorem sim_init (prog : ℕ → Call) {db : String → Option Row} (hrow : db sid = some row₀) :
    Sim prog sid row₀ (init db) [] where
  explained := ⟨row₀, hrow, Linear.explains_nil fun i result h => by cases h.2⟩
  way :=
    { owned := fun i l h => by cases h
      lock := fun i l _ h => by cases h
      loaded := fun i l sess h => by cases h
      creating := fun i sess h => by cases h
      copy := fun i l sess _ h => by cases h
      stored := fun i _ => trivial }
  happened := fun e he => by cases he
  saved := fun i l sess _ h => by cases h

/-! ## Whole runs -/

/-- **The calls on a stored session happen at once.**  In every run of any calls, on this session
and on others, the row of the session and all answers are explained by an order of the calls on
it; and the order of a later state begins with that of an earlier one, so a call that has returned
comes before one that had not begun by then. -/
theorem linearizable (workDir : String → String → String) (prog : ℕ → Call)
    {db : String → Option Row} (hrow : db sid = some row₀) {as bs : List Action}
    (hs : Run.exec (step workDir prog) (init db) as = some s)
    (ht : Run.exec (step workDir prog) s bs = some t) :
    ∃ order more, Explained prog sid row₀ s order ∧ Explained prog sid row₀ t (order ++ more) ∧
      ∀ i j result, (prog i).sessionId = sid → s.pc i = .returned result → s.pc j = .start →
        (∃ e ∈ order ++ more, e.1 = j) → ∃ before between after now now',
          order ++ more = before ++ (i, now) :: between ++ (j, now') :: after := by
  have hstep : ∀ (s : Svc) (a : Action) (t : Svc) (order : List (ℕ × ℚ)),
      Sim prog sid row₀ s order → step workDir prog s a = some t →
        ∃ more, Sim prog sid row₀ t (order ++ more) := fun _ _ _ _ => sim_step
  obtain ⟨order, hsim⟩ := Linear.explained_throughout hstep (sim_init prog hrow) hs
  obtain ⟨more, hsim'⟩ := Linear.explained_throughout hstep hsim ht
  refine ⟨order, more, hsim.explained, hsim'.explained, ?_⟩
  intro i j result hsid hi hj hin
  obtain ⟨_, _, hexplains⟩ := hsim.explained
  obtain ⟨_, _, hexplains'⟩ := hsim'.explained
  exact hexplains.precedes hexplains' ⟨hsid, hi⟩ (fun hbegun => hbegun.2 hj) hin

/-- An event and a plan for a session that is stored. -/
def twoWriters : ℕ → Call
  | 0 => .appendEvent "s1" [("type", .str "user_message")]
  | _ => .updateState "s1" [("plan", .str "shop")]

/-- The two overlap, and the second waits for the lock. -/
theorem twoWriters_linearizable :
    let row : Row := { tenantId := "acme", workDir := "/data", state := [], events := [],
                       createdAt := 0 }
    ∃ s t, Run.exec (step dataDir twoWriters) (init fun _ => some row)
        (schedule [0, 1, 0, 0, 1, 0, 0]) = some s ∧
      Run.exec (step dataDir twoWriters) s (schedule [0, 0, 1, 1, 1, 1, 1]) = some t ∧
      ∃ order more, Explained twoWriters "s1" row s order ∧
        Explained twoWriters "s1" row t (order ++ more) := by
  intro row
  let db : String → Option Row := fun _ => some row
  have hrow : db "s1" = some row := rfl
  obtain ⟨s, hs⟩ : ∃ s, Run.exec (step dataDir twoWriters) (init db)
      (schedule [0, 1, 0, 0, 1, 0, 0]) = some s := ⟨_, rfl⟩
  obtain ⟨t, ht⟩ : ∃ t, Run.exec (step dataDir twoWriters) (init db)
      (schedule [0, 1, 0, 0, 1, 0, 0] ++ schedule [0, 0, 1, 1, 1, 1, 1]) = some t := ⟨_, rfl⟩
  rw [Run.exec_append, hs] at ht
  obtain ⟨order, more, hs', ht', -⟩ := linearizable dataDir twoWriters hrow hs ht
  exact ⟨s, t, hs, ht, order, more, hs', ht'⟩

end SessionService
end AgentSwarm
