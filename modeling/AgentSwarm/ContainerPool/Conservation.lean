import AgentSwarm.ContainerPool.Pool
import AgentSwarm.Lib.Run

/-!
# Container conservation

A container should be busy exactly as long as some running invoke has it.  It is
returned by the `finally` of a `try` block which begins only after `checkout`
has returned, and which awaits the closing of the client first; an exception
before the block, or a cancellation in it, ends the invoke with its container
still marked busy, and no later `checkout` ever finds it.

* `Conserved` — busy containers and running invokes correspond.
* `Owned` — the invariant: also, every container has one holder at most, and the
  container an invoke holds is in the pool.
* `KeepsHold` — the condition on a step: no exception at one of the six places.
* `conserved_of_keepsHold` — **conservation** in every run that meets it.
* `not_conserved_of_drop` — a step that does not meet it breaks conservation at
  once.
-/

namespace AgentSwarm
namespace ContainerPool

variable {maxUses : ℕ} {prog : ℕ → Request} {pool pool' : Pool} {holds : ℕ → Option String}

/-- Busy containers and running invokes correspond, and when no invoke runs every
container is idle, or dead and never handed out. -/
structure Conserved (s : Sys) : Prop where
  busy : ∀ id c, s.pool.get id = some c → (c.state = .busy ↔ ∃ i, (s.pc i).holds = some id)
  free : (∀ i, s.pc i = .start ∨ s.pc i = .ended) →
    ∀ id c, s.pool.get id = some c → c.state = .idle ∨ c.state = .dead

/-! ## The search for an idle container -/

variable {alive : String → Bool} {req : Request}

theorem scan_keys (alive : String → Bool) (req : Request) (pool : Pool) :
    (scan alive req pool).1.keys = pool.keys := by
  induction pool with
  | nil => rfl
  | cons p pool ih =>
      obtain ⟨id, c⟩ := p
      rw [scan]
      split
      · split
        · rfl
        · exact congrArg (id :: ·) ih
      · exact congrArg (id :: ·) ih

/-- The container that is found was idle. -/
theorem scan_chosen (hpool : pool.NodupKeys) {id : String}
    (h : (scan alive req pool).2 = some id) :
    ∃ c, pool.get id = some c ∧ c.state = .idle ∧
      (scan alive req pool).1.get id = some (c.checkedOut req) := by
  induction pool with
  | nil => simp [scan] at h
  | cons p pool ih =>
      obtain ⟨k, c⟩ := p
      obtain ⟨hk, hpool⟩ := List.nodup_cons.1 hpool
      have hrest (h : (scan alive req pool).2 = some id) (c' : PooledContainer) :
          ∃ c₀, Dict.get ((k, c) :: pool) id = some c₀ ∧ c₀.state = .idle ∧
            Dict.get ((k, c') :: (scan alive req pool).1) id = some (c₀.checkedOut req) := by
        obtain ⟨c₀, hget, hidle, hscan⟩ := ih hpool h
        have hne : id ≠ k := by
          rintro rfl
          exact hk (Dict.mem_keys_of_get hget)
        exact ⟨c₀, by simp [Dict.get_cons, hne, hget], hidle, by simp [Dict.get_cons, hne, hscan]⟩
      rw [scan] at h ⊢
      by_cases hidle : c.state = .idle
      · rw [if_pos hidle] at h ⊢
        by_cases halive : alive k = true
        · rw [if_pos halive] at h ⊢
          cases h
          exact ⟨c, by simp [Dict.get_cons], hidle, by simp [Dict.get_cons]⟩
        · rw [if_neg halive] at h ⊢
          exact hrest h _
      · rw [if_neg hidle] at h ⊢
        exact hrest h _

variable (alive req pool) in
/-- Any other container is as it was, or was idle and is dead. -/
theorem scan_other (id : String) (h : (scan alive req pool).2 ≠ some id) :
    (scan alive req pool).1.get id = pool.get id ∨
      ∃ c, pool.get id = some c ∧ c.state = .idle ∧
        (scan alive req pool).1.get id = some { c with state := .dead } := by
  induction pool with
  | nil => exact .inl rfl
  | cons p pool ih =>
      obtain ⟨k, c⟩ := p
      rw [scan] at h ⊢
      by_cases hidle : c.state = .idle
      · rw [if_pos hidle] at h ⊢
        by_cases halive : alive k = true
        · rw [if_pos halive] at h ⊢
          have hne : id ≠ k := by
            rintro rfl
            exact h rfl
          exact .inl (by simp [Dict.get_cons, hne])
        · rw [if_neg halive] at h ⊢
          by_cases hne : id = k
          · subst hne
            exact .inr ⟨c, by simp [Dict.get_cons], hidle, by simp [Dict.get_cons]⟩
          · simpa [Dict.get_cons, hne] using ih h
      · rw [if_neg hidle] at h ⊢
        by_cases hne : id = k
        · exact .inl (by simp [Dict.get_cons, hne])
        · simpa [Dict.get_cons, hne] using ih h

/-! ## Giving a container back -/

/-- What `return_container` leaves under each id: the container that is given
back, or the one in its place, is idle; the others are as they were. -/
theorem returnContainer_get (maxUses : ℕ) {id : String} {new : Option String}
    (hheld : (pool.get id).isSome) (hnew : ∀ id' ∈ new, id' ∉ pool.keys) (j : String) :
    (j ≠ id ∧ (returnContainer maxUses id new pool).get j = pool.get j) ∨
      ((j = id ∨ pool.get j = none) ∧
        ∀ c, (returnContainer maxUses id new pool).get j = some c → c.state = .idle) := by
  obtain ⟨c, hget⟩ := Option.isSome_iff_exists.1 hheld
  -- the container is idle in the pool before it may be replaced
  have hkept : ∀ j, (pool.set id { c with
      state := .idle, assignedTaskId := none, assignedRole := none }).get j =
      if j = id then some { c with state := .idle, assignedTaskId := none, assignedRole := none }
      else pool.get j := by
    intro j
    exact Dict.get_set _ _ _ j
  rw [returnContainer, hget]
  dsimp only
  split
  · cases new with
    | some id' =>
        have hfresh : pool.get id' = none := Dict.get_eq_none_of_not_mem_keys (hnew id' rfl)
        simp only [Dict.get_set, Dict.get_erase]
        by_cases hj' : j = id'
        · exact .inr ⟨.inr (hj' ▸ hfresh), by simp [hj']⟩
        · by_cases hj : j = id
          · exact .inr ⟨.inl hj, by simp [hj, hj ▸ hj']⟩
          · exact .inl ⟨hj, by simp [hj, hj']⟩
    | none =>
        rw [hkept]
        by_cases hj : j = id
        · exact .inr ⟨.inl hj, by simp [hj]⟩
        · exact .inl ⟨hj, by simp [hj]⟩
  · rw [hkept]
    by_cases hj : j = id
    · exact .inr ⟨.inl hj, by simp [hj]⟩
    · exact .inl ⟨hj, by simp [hj]⟩

theorem returnContainer_nodup {id : String} {new : Option String} (h : pool.NodupKeys) :
    (returnContainer maxUses id new pool).NodupKeys := by
  unfold returnContainer
  split
  · exact h
  · dsimp only
    split
    · split
      · exact ((h.set _ _).erase _).set _ _
      · exact h.set _ _
    · exact h.set _ _

/-! ## The invariant -/

/-- The pool fits what the invokes hold: `holds i` is the container of invoke
`i`. -/
structure Owned (pool : Pool) (holds : ℕ → Option String) : Prop where
  nodup : pool.NodupKeys
  busy : ∀ id c, pool.get id = some c → (c.state = .busy ↔ ∃ i, holds i = some id)
  held : ∀ i id, holds i = some id → (pool.get id).isSome
  once : ∀ i j id, holds i = some id → holds j = some id → i = j
  notStarting : ∀ id c, pool.get id = some c → c.state ≠ .starting

/-- A container that is not held is not busy. -/
theorem Owned.not_held (h : Owned pool holds) {id : String} {c : PooledContainer}
    (hget : pool.get id = some c) (hidle : c.state = .idle) (i : ℕ) : holds i ≠ some id := by
  intro hi
  rw [(h.busy id c hget).2 ⟨i, hi⟩] at hidle
  cases hidle

/-- **One change.**  The invariant is kept when, under every id, nothing changes,
or the container ends up free, or busy in the hands of one invoke. -/
theorem Owned.change {holds' : ℕ → Option String} (h : Owned pool holds) (hnodup : pool'.NodupKeys)
    (hid : ∀ id,
      (pool'.get id = pool.get id ∧ ∀ j, holds' j = some id ↔ holds j = some id) ∨
      ((∀ j, holds' j ≠ some id) ∧
        ∀ c, pool'.get id = some c → c.state = .idle ∨ c.state = .dead) ∨
      ∃ i c, (∀ j, holds' j = some id ↔ j = i) ∧ pool'.get id = some c ∧ c.state = .busy) :
    Owned pool' holds' where
  nodup := hnodup
  busy id c hget := by
    rcases hid id with ⟨hsame, hj⟩ | ⟨hfree, hstate⟩ | ⟨i, c', hj, hget', hbusy⟩
    · simpa only [hj] using h.busy id c (hsame ▸ hget)
    · have hne : c.state ≠ .busy := by
        rcases hstate c hget with hc | hc <;> simp [hc]
      exact iff_of_false hne fun ⟨j, hj⟩ => hfree j hj
    · rw [hget'] at hget
      cases hget
      exact iff_of_true hbusy ⟨i, (hj i).2 rfl⟩
  held i id hi := by
    rcases hid id with ⟨hsame, hj⟩ | ⟨hfree, -⟩ | ⟨i', c, -, hget, -⟩
    · exact hsame ▸ h.held i id ((hj i).1 hi)
    · exact absurd hi (hfree i)
    · simp [hget]
  once i j id hi hj := by
    rcases hid id with ⟨-, hsame⟩ | ⟨hfree, -⟩ | ⟨i', c, hone, -⟩
    · exact h.once i j id ((hsame i).1 hi) ((hsame j).1 hj)
    · exact absurd hi (hfree i)
    · exact ((hone i).1 hi).trans ((hone j).1 hj).symm
  notStarting id c hget := by
    rcases hid id with ⟨hsame, -⟩ | ⟨-, hstate⟩ | ⟨i, c', -, hget', hbusy⟩
    · exact h.notStarting id c (hsame ▸ hget)
    · rcases hstate c hget with hc | hc <;> simp [hc]
    · rw [hget'] at hget
      cases hget
      simp [hbusy]

theorem update_some_iff {i j : ℕ} {id id' : String} (hi : holds i = none) (hne : id' ≠ id) :
    Function.update holds i (some id) j = some id' ↔ holds j = some id' := by
  by_cases hj : j = i
  · subst hj
    simp [hi, hne.symm]
  · simp [hj]

/-- `checkout` finds a container for invoke `i`. -/
theorem Owned.select (h : Owned pool holds) {i : ℕ} {id : String} (hi : holds i = none)
    (hscan : scan alive req pool = (pool', some id)) :
    Owned pool' (Function.update holds i (some id)) := by
  obtain ⟨rfl, hchosen⟩ := Prod.ext_iff.1 hscan
  refine h.change (h.nodup.of_keys_eq (scan_keys alive req pool)) ?_
  intro id'
  by_cases hid : id' = id
  · obtain ⟨c, hget, hidle, hget'⟩ := scan_chosen h.nodup hchosen
    refine .inr (.inr ⟨i, _, ?_, hid ▸ hget', rfl⟩)
    intro j
    by_cases hj : j = i
    · simp [hj, hid]
    · simpa [hj, hid] using h.not_held hget hidle j
  · have hother : (scan alive req pool).2 ≠ some id' := by simpa [hchosen] using Ne.symm hid
    rcases scan_other pool alive req id' hother with hsame | ⟨c, hget, hidle, hdead⟩
    · exact .inl ⟨hsame, fun j => update_some_iff hi hid⟩
    · have hnone (j : ℕ) : Function.update holds i (some id) j ≠ some id' := by
        rw [Ne, update_some_iff hi hid]
        exact h.not_held hget hidle j
      exact .inr (.inl ⟨hnone, fun c' hc' => .inr (by rw [hdead] at hc'; cases hc'; rfl)⟩)

/-- `checkout` finds no container. -/
theorem Owned.selectNone (h : Owned pool holds) (hscan : scan alive req pool = (pool', none)) :
    Owned pool' holds := by
  obtain ⟨rfl, hchosen⟩ := Prod.ext_iff.1 hscan
  refine h.change (h.nodup.of_keys_eq (scan_keys alive req pool)) ?_
  intro id
  rcases scan_other pool alive req id (by simp [hchosen]) with hsame | ⟨c, hget, hidle, hdead⟩
  · exact .inl ⟨hsame, fun j => Iff.rfl⟩
  · have hnone := h.not_held hget hidle
    exact .inr (.inl ⟨hnone, fun c' hc' => .inr (by rw [hdead] at hc'; cases hc'; rfl)⟩)

/-- Invoke `i` gives its container back. -/
theorem Owned.giveBack (h : Owned pool holds) {i : ℕ} {id : String} {new : Option String}
    (hi : holds i = some id) (hnew : ∀ id' ∈ new, id' ∉ pool.keys) :
    Owned (returnContainer maxUses id new pool) (Function.update holds i none) := by
  refine h.change (returnContainer_nodup h.nodup) ?_
  intro j
  rcases returnContainer_get maxUses (h.held i id hi) hnew j
    with ⟨hne, hsame⟩ | ⟨hj, hidle⟩
  · refine .inl ⟨hsame, ?_⟩
    intro k
    by_cases hk : k = i
    · simp [hk, hi, hne.symm]
    · simp [hk]
  · refine .inr (.inl ⟨?_, fun c hc => .inl (hidle c hc)⟩)
    intro k hk
    have hki : k ≠ i := by
      rintro rfl
      simp at hk
    rw [Function.update_of_ne hki] at hk
    rcases hj with rfl | hnone
    · exact hki (h.once k i j hk hi)
    · simpa [hnone] using h.held k j hk

/-! ## Whole runs -/

/-- The invariant of the running system. -/
def Inv (s : Sys) : Prop := Owned s.pool fun i => (s.pc i).holds

/-- The step is not one that ends an invoke with its container in its hands: no
cancellation during `checkout`, at `client.close()` or at the lock of
`return_container`, and no exception between the selection and the `try`. -/
def KeepsHold (s : Sys) (a : Action) : Prop := a.event.throws → (s.pc a.invoke).guarded

instance (s : Sys) (a : Action) : Decidable (KeepsHold s a) :=
  inferInstanceAs (Decidable (_ = true → _ = true))

theorem holds_goto (s : Sys) (pool : Pool) (i : ℕ) (p : Pc) :
    (fun j => (({ s with pool := pool }.goto i p).pc j).holds) =
      Function.update (fun j => (s.pc j).holds) i p.holds := by
  funext j
  by_cases hj : j = i
  · subst hj
    simp [Sys.goto]
  · simp [Sys.goto, hj]

variable {s t : Sys}

/-- **One step.**  A step at which no invoke drops its container keeps the
invariant. -/
theorem inv_step {a : Action} (h : Inv s) (hok : KeepsHold s a)
    (hstep : step maxUses prog s a = some t) : Inv t := by
  obtain ⟨i, e⟩ := a
  cases step_cases hstep with
  | select hpc hscan =>
      have hnone : (s.pc i).holds = none := by simp [hpc, Pc.holds]
      rw [Inv, holds_goto]
      exact Owned.select h hnone hscan
  | selectNone hpc hscan =>
      rw [Inv, holds_goto]
      have hsame : Function.update (fun j => (s.pc j).holds) i Pc.ended.holds =
          fun j => (s.pc j).holds := by
        rw [Function.update_eq_self_iff, hpc]
        rfl
      rw [hsame]
      exact Owned.selectNone h hscan
  | go hholds _ =>
      have hsame : Function.update (fun j => (s.pc j).holds) i _ = fun j => (s.pc j).holds :=
        Function.update_eq_self_iff.2 hholds
      rw [Inv, show s.goto i _ = { s with pool := s.pool }.goto i _ from rfl, holds_goto, hsame]
      exact h
  | @giveBack id _ hpc hnew =>
      have hsome : (s.pc i).holds = some id := by simp [hpc, Pc.holds]
      rw [Inv, holds_goto]
      exact Owned.giveBack h hsome hnew
  | drop _ hguard hthrows =>
      have hkeeps : (s.pc i).guarded := hok hthrows
      rw [hguard] at hkeeps
      cases hkeeps

theorem Inv.conserved (h : Inv s) : Conserved s where
  busy := h.busy
  free hended id c hget := by
    have hbusy : c.state ≠ .busy := by
      rw [Ne, h.busy id c hget]
      rintro ⟨i, hi⟩
      rcases hended i with hpc | hpc <;> simp [hpc, Pc.holds] at hi
    have hstarting := h.notStarting id c hget
    cases hstate : c.state <;> simp_all

/-- The pool that `startup` leaves: every container in it is idle. -/
structure WarmPool where
  pool : Pool
  nodup : pool.NodupKeys
  idle : ∀ id c, pool.get id = some c → c.state = .idle

/-- The system before any invoke. -/
def init (w : WarmPool) : Sys := ⟨w.pool, fun _ => .start⟩

theorem inv_init (w : WarmPool) : Inv (init w) where
  nodup := w.nodup
  busy id c hget := by simp [w.idle id c hget, init, Pc.holds]
  held i id hi := by simp [init, Pc.holds] at hi
  once i j id hi := by simp [init, Pc.holds] at hi
  notStarting id c hget := by simp [w.idle id c hget]

/-- **Conservation.**  In a run in which no invoke is cancelled or raises outside
its `try` block while it has a container, busy containers and running invokes
correspond in every state. -/
theorem conserved_of_keepsHold (maxUses : ℕ) (prog : ℕ → Request) (w : WarmPool)
    (acts : List Action) (hok : Run.Along (step maxUses prog) KeepsHold (init w) acts) :
    Run.Throughout (step maxUses prog) Conserved (init w) acts :=
  (Run.throughout_of_invariant (fun _ _ _ => inv_step) (inv_init w) hok).mono fun _ => Inv.conserved

/-- **A dropped container.**  Any other exception breaks conservation at once:
the container stays busy and nobody has it. -/
theorem not_conserved_of_drop {a : Action} (h : Inv s) (hdrop : ¬ KeepsHold s a)
    (hstep : step maxUses prog s a = some t) : ¬ Conserved t := by
  obtain ⟨i, e⟩ := a
  simp only [KeepsHold, Classical.not_imp, Bool.not_eq_true] at hdrop
  obtain ⟨hthrows, hguard⟩ := hdrop
  intro hcons
  cases step_cases hstep with
  | select => cases hthrows
  | selectNone => cases hthrows
  | giveBack => cases hthrows
  | go _ hgo =>
      rw [hgo hthrows] at hguard
      cases hguard
  | drop hpc _ _ =>
      obtain ⟨c, hget⟩ := Option.isSome_iff_exists.1 (h.held i _ hpc)
      have hbusy : c.state = .busy := (h.busy _ c hget).2 ⟨i, hpc⟩
      obtain ⟨j, hj⟩ := (hcons.busy _ c hget).1 hbusy
      by_cases hji : j = i
      · subst hji
        simp [Sys.goto, Pc.holds] at hj
      · simp only [Sys.goto, Function.update_of_ne hji] at hj
        exact hji (h.once j i _ hj hpc)

/-! ## One container, one invoke -/

/-- A pool of one container. -/
def onePool : WarmPool where
  pool := [("4f2a", { containerId := "4f2a", index := 0 })]
  nodup := by decide
  idle := by
    intro id c h
    simp only [Dict.get_cons, Dict.get_nil] at h
    split at h
    · cases h
      rfl
    · cases h

/-- Every invoke is for the same task. -/
def oneRequest : ℕ → Request := fun _ => ⟨"3f2a91bc", "frontend"⟩

/-- The invoke `0` goes through `checkout` up to its first readiness probe. -/
def upToProbe : List Action :=
  [⟨0, .checkout fun _ => true⟩, ⟨0, .configWritten⟩]

/-- A cancellation in the `try` block does no harm. -/
theorem conserved_cancelled_in_try :
    Run.Throughout (step 50 oneRequest) Conserved (init onePool)
      (upToProbe ++ [⟨0, .probed true⟩, ⟨0, .clientOpened⟩, ⟨0, .cancel⟩, ⟨0, .cancelSent⟩,
        ⟨0, .closed⟩, ⟨0, .returned none⟩]) :=
  conserved_of_keepsHold _ _ _ _ (by decide)

/-- **A cancellation during the readiness probe loses the container.**  The
invoke has ended and the only container of the pool is busy. -/
theorem cancelled_probe_not_conserved :
    ¬ Run.Throughout (step 50 oneRequest) Conserved (init onePool)
      (upToProbe ++ [⟨0, .cancel⟩]) := by
  intro h
  refine absurd ((h.last rfl).free ?_ "4f2a" _ rfl) (by decide)
  intro i
  by_cases hi : i = 0 <;> simp [Sys.goto, init, hi]

end ContainerPool
end AgentSwarm
