import AgentSwarm.Dispatcher.Base
import AgentSwarm.Lib.Dict
import AgentSwarm.Lib.Permits
import AgentSwarm.Lib.Run

/-!
# The cap on the orchestrations of a tenant

`POST /api/chat` leaves the orchestration to a background run, and the run takes
a permit of its tenant's semaphore before it executes.  The semaphore is created
by the first run that needs it: a look-up without the lock, and a second look-up
under the lock, since another run may have created it meanwhile.

* `Pc` — where a run is suspended, with the semaphore it uses.
* `State` — the semaphores of the tenants, their permits, the lock and the runs.
* `step` — one step of a run, or a request that starts one.
* `Moved`, `step_cases` — everything a step can do, by what it does to the permits.
* `Inv` — the invariant: a run uses the semaphore its tenant is entered with, no two
  tenants share one, and the permits of each are balanced.
* `Capped` — what holds in every state; `OwnPermits` — what every step respects.
* `tenant_capped` — **both hold in every run of the server.**

A waiting run is given a permit before it is resumed, and gives it back when it
is cancelled in between.  Which of the waiting runs comes next is left open.
-/

namespace AgentSwarm
namespace TenantCap

open Permits

def DEFAULT_TENANT_MAX_CONCURRENT : ℕ := 4

/-- How a background run ends. -/
inductive Exit where
  | normal
  | exception
  | cancelled
  deriving DecidableEq

/-- Where a background run is suspended.  A semaphore is a number. -/
inductive Pc where
  /-- The run has not made its first step. -/
  | created
  /-- In `_get_tenant_semaphore`, at the lock. -/
  | atLock
  /-- In `_get_tenant_semaphore`, holding the lock. -/
  | inLock
  /-- At `async with sem`. -/
  | waiting (sem : ℕ)
  /-- Given a permit and not resumed yet. -/
  | granted (sem : ℕ)
  /-- In the body of `async with sem`, the handler of `run_orchestration` included. -/
  | executing (sem : ℕ)
  | ended (sem : Option ℕ) (exit : Exit)
  deriving DecidableEq

/-- The variable `sem` of the run. -/
def Pc.sem : Pc → Option ℕ
  | .waiting sem => some sem
  | .granted sem => some sem
  | .executing sem => some sem
  | .ended sem _ => sem
  | _ => none

/-- The semaphore the run holds a permit of. -/
def Pc.held : Pc → Option ℕ
  | .granted sem => some sem
  | .executing sem => some sem
  | _ => none

/-- A background run, with the tenant of its task. -/
structure Orchestration where
  tenant : String
  pc : Pc
  deriving DecidableEq

/-- The server: `_tenant_semaphores`, the value of each semaphore, the number of
semaphores created, the run that holds `_tenant_semaphore_lock`, and the runs. -/
structure State where
  semaphores : Dict String ℕ
  permits : ℕ → ℕ
  created : ℕ
  lockOwner : Option ℕ
  runs : ℕ → Option Orchestration

def init : State := ⟨[], fun _ => 0, 0, none, fun _ => none⟩

/-- What happens next. -/
inductive Event where
  /-- A request of a tenant creates the run `r`. -/
  | post (r : ℕ) (tenantId : Option String)
  /-- The look-up without the lock. -/
  | look (r : ℕ)
  | lock (r : ℕ)
  /-- The look-up under the lock, with the creation if it finds nothing. -/
  | create (r : ℕ)
  /-- The semaphore gives a permit to a waiting run. -/
  | grant (r : ℕ)
  /-- The run is resumed, with its permit. -/
  | enter (r : ℕ)
  /-- The body of `async with sem` is left, in whatever way. -/
  | leave (r : ℕ) (exit : Exit)
  /-- A `CancelledError` is thrown into a run that is not executing. -/
  | cancel (r : ℕ)
  deriving DecidableEq

/-- The run that takes the step. -/
def Event.run : Event → ℕ
  | .post r _ => r
  | .look r => r
  | .lock r => r
  | .create r => r
  | .grant r => r
  | .enter r => r
  | .leave r _ => r
  | .cancel r => r

/-- `req.tenant_id or "default"`. -/
def tenantOf (tenantId : Option String) : String := Dispatcher.orElse tenantId "default"

/-- The run `r` is what it was, elsewhere. -/
def State.goto (s : State) (r : ℕ) (run : Orchestration) (pc : Pc) : State :=
  { s with runs := Function.update s.runs r (some { run with pc := pc }) }

/-- `asyncio.Semaphore(limit)`, entered for the tenant. -/
def State.newSemaphore (s : State) (tenant : String) : State :=
  { s with
    semaphores := s.semaphores.set tenant s.created
    permits := Function.update s.permits s.created DEFAULT_TENANT_MAX_CONCURRENT
    created := s.created + 1 }

/-- The value of a semaphore becomes `n`. -/
def State.setPermits (s : State) (sem n : ℕ) : State :=
  { s with permits := Function.update s.permits sem n }

/-- `sem.release()`. -/
def State.release (s : State) (sem : ℕ) : State := s.setPermits sem (s.permits sem + 1)

def State.unlock (s : State) : State := { s with lockOwner := none }

/-- One step. -/
def step (s : State) : Event → Option State
  | .post r tenantId =>
      match s.runs r with
      | none => some (s.goto r ⟨tenantOf tenantId, .created⟩ .created)
      | some _ => none
  | .look r =>
      match s.runs r with
      | some ⟨tenant, .created⟩ =>
          match s.semaphores.get tenant with
          | some sem => some (s.goto r ⟨tenant, .created⟩ (.waiting sem))
          | none => some (s.goto r ⟨tenant, .created⟩ .atLock)
      | _ => none
  | .lock r =>
      match s.runs r, s.lockOwner with
      | some ⟨tenant, .atLock⟩, none =>
          some ({ s with lockOwner := some r }.goto r ⟨tenant, .atLock⟩ .inLock)
      | _, _ => none
  | .create r =>
      match s.runs r with
      | some ⟨tenant, .inLock⟩ =>
          match s.semaphores.get tenant with
          | some sem => some (s.unlock.goto r ⟨tenant, .inLock⟩ (.waiting sem))
          | none =>
              some ((s.newSemaphore tenant).unlock.goto r ⟨tenant, .inLock⟩ (.waiting s.created))
      | _ => none
  | .grant r =>
      match s.runs r with
      | some ⟨tenant, .waiting sem⟩ =>
          match s.permits sem with
          | n + 1 => some ((s.setPermits sem n).goto r ⟨tenant, .waiting sem⟩ (.granted sem))
          | 0 => none
      | _ => none
  | .enter r =>
      match s.runs r with
      | some ⟨tenant, .granted sem⟩ => some (s.goto r ⟨tenant, .granted sem⟩ (.executing sem))
      | _ => none
  | .leave r exit =>
      match s.runs r with
      | some ⟨tenant, .executing sem⟩ =>
          some ((s.release sem).goto r ⟨tenant, .executing sem⟩ (.ended (some sem) exit))
      | _ => none
  | .cancel r =>
      match s.runs r with
      | some ⟨tenant, .created⟩ => some (s.goto r ⟨tenant, .created⟩ (.ended none .cancelled))
      | some ⟨tenant, .atLock⟩ => some (s.goto r ⟨tenant, .atLock⟩ (.ended none .cancelled))
      | some ⟨tenant, .inLock⟩ =>
          some (s.unlock.goto r ⟨tenant, .inLock⟩ (.ended none .cancelled))
      | some ⟨tenant, .waiting sem⟩ =>
          some (s.goto r ⟨tenant, .waiting sem⟩ (.ended (some sem) .cancelled))
      | some ⟨tenant, .granted sem⟩ =>
          some ((s.release sem).goto r ⟨tenant, .granted sem⟩ (.ended (some sem) .cancelled))
      | _ => none

variable {s t : State} {e : Event}

/-! ## Everything a step can do -/

/-- The transitions, by what they do to the permits.  `o` is the holder of the
lock afterwards. -/
inductive Moved (s : State) : Event → State → Prop
  | post {r tenantId} (hr : s.runs r = none) :
      Moved s (.post r tenantId) (s.goto r ⟨tenantOf tenantId, .created⟩ .created)
  /-- The run goes on with the permit it has, or with none. -/
  | goes {e r run pc o} (he : e.run = r) (hr : s.runs r = some run)
      (hheld : pc.held = run.pc.held)
      (hsem : pc.sem = run.pc.sem ∨ pc.sem = s.semaphores.get run.tenant) :
      Moved s e ({ s with lockOwner := o }.goto r run pc)
  | create {r run} (hr : s.runs r = some run) (hpc : run.pc = .inLock)
      (hnone : s.semaphores.get run.tenant = none) :
      Moved s (.create r) ((s.newSemaphore run.tenant).unlock.goto r run (.waiting s.created))
  | take {r run sem n} (hr : s.runs r = some run) (hpc : run.pc = .waiting sem)
      (hn : s.permits sem = n + 1) :
      Moved s (.grant r) ((s.setPermits sem n).goto r run (.granted sem))
  | give {e r run sem exit} (he : e.run = r) (hr : s.runs r = some run)
      (hheld : run.pc.held = some sem) (hsem : run.pc.sem = some sem) :
      Moved s e ((s.release sem).goto r run (.ended (some sem) exit))

/-- **Everything a step can do.** -/
theorem step_cases (h : step s e = some t) : Moved s e t := by
  cases e with
  | post r tenantId =>
      simp only [step] at h
      split at h <;> simp only [Option.some.injEq, reduceCtorEq] at h
      subst h
      exact .post ‹_›
  | look r =>
      simp only [step] at h
      split at h
      · rename_i tenant hr
        split at h <;> obtain rfl := Option.some.inj h
        · exact .goes rfl hr rfl (.inr (Eq.symm ‹_›))
        · exact .goes rfl hr rfl (.inl rfl)
      · simp at h
  | lock r =>
      simp only [step] at h
      split at h
      · rename_i tenant hr hfree
        obtain rfl := Option.some.inj h
        exact .goes rfl hr rfl (.inl rfl)
      · simp at h
  | create r =>
      simp only [step] at h
      split at h
      · rename_i tenant hr
        split at h <;> obtain rfl := Option.some.inj h
        · exact .goes rfl hr rfl (.inr (Eq.symm ‹_›))
        · exact .create hr rfl ‹_›
      · simp at h
  | grant r =>
      simp only [step] at h
      split at h
      · rename_i tenant sem hr
        split at h
        · obtain rfl := Option.some.inj h
          exact .take hr rfl ‹_›
        · simp at h
      · simp at h
  | enter r =>
      simp only [step] at h
      split at h
      · rename_i tenant sem hr
        obtain rfl := Option.some.inj h
        exact .goes rfl hr rfl (.inl rfl)
      · simp at h
  | leave r exit =>
      simp only [step] at h
      split at h
      · rename_i tenant sem hr
        obtain rfl := Option.some.inj h
        exact .give rfl hr rfl rfl
      · simp at h
  | cancel r =>
      simp only [step] at h
      split at h
      -- created, at the lock, holding it, waiting, granted, and the rest
      · obtain rfl := Option.some.inj h
        exact .goes rfl ‹_› rfl (.inl rfl)
      · obtain rfl := Option.some.inj h
        exact .goes rfl ‹_› rfl (.inl rfl)
      · obtain rfl := Option.some.inj h
        exact .goes rfl ‹_› rfl (.inl rfl)
      · obtain rfl := Option.some.inj h
        exact .goes rfl ‹_› rfl (.inl rfl)
      · obtain rfl := Option.some.inj h
        exact .give rfl ‹_› rfl rfl
      · simp at h

/-! ## The invariant -/

/-- The run holds a permit of the semaphore. -/
def Holds (sem : ℕ) (run : Option Orchestration) : Prop := (run.bind (·.pc.held)) = some sem

/-- The run uses the semaphore that its tenant is entered with. -/
def Entered (semaphores : Dict String ℕ) (run : Option Orchestration) : Prop :=
  ∀ x sem, run = some x → x.pc.sem = some sem → semaphores.get x.tenant = some sem

@[simp] theorem holds_none (sem : ℕ) : ¬ Holds sem none := by simp [Holds]

@[simp] theorem holds_some (sem : ℕ) (run : Orchestration) :
    Holds sem (some run) ↔ run.pc.held = some sem := Iff.rfl

theorem Pc.sem_of_held {pc : Pc} {sem : ℕ} (h : pc.held = some sem) : pc.sem = some sem := by
  cases pc <;> simp_all [Pc.held, Pc.sem]

/-- **The invariant.** -/
structure Inv (s : State) : Prop where
  entered : ∀ r, Entered s.semaphores (s.runs r)
  old : ∀ tenant sem, s.semaphores.get tenant = some sem → sem < s.created
  own : ∀ tenant tenant' sem, s.semaphores.get tenant = some sem →
    s.semaphores.get tenant' = some sem → tenant = tenant'
  balanced : ∀ sem, sem < s.created →
    Balanced DEFAULT_TENANT_MAX_CONCURRENT (s.permits sem) s.runs (Holds sem)

theorem inv_init : Inv init where
  entered _ _ _ h := nomatch h
  old _ _ h := nomatch h
  own _ _ _ h := nomatch h
  balanced _ h := absurd h (Nat.not_lt_zero _)

/-- Only one run has to be looked at after a step of it. -/
theorem entered_goto (h : ∀ r, Entered s.semaphores (s.runs r)) {r : ℕ} {run : Orchestration}
    {pc : Pc} (hsem : ∀ sem, pc.sem = some sem → s.semaphores.get run.tenant = some sem) (q : ℕ) :
    Entered (s.goto r run pc).semaphores ((s.goto r run pc).runs q) := by
  by_cases hq : q = r
  · subst hq
    rintro x sem hx hxsem
    obtain rfl : { run with pc := pc } = x := by simpa [State.goto] using hx
    exact hsem sem hxsem
  · simpa [State.goto, hq] using h q

/-- Nobody holds a permit of a semaphore that has not been created. -/
theorem Inv.not_holds_created (h : Inv s) (r : ℕ) : ¬ Holds s.created (s.runs r) := by
  intro hheld
  obtain ⟨run, hrun, hheld⟩ := Option.bind_eq_some_iff.1 hheld
  have hget := h.entered r run s.created hrun (Pc.sem_of_held hheld)
  exact lt_irrefl _ (h.old _ _ hget)

/-- A step that leaves the semaphores as they are, and moves no permit. -/
theorem Inv.goes (h : Inv s) {r : ℕ} {run : Orchestration} {pc : Pc}
    (hsem : ∀ sem, pc.sem = some sem → s.semaphores.get run.tenant = some sem)
    (hheld : ∀ sem, Holds sem (some { run with pc := pc }) ↔ Holds sem (s.runs r)) :
    Inv (s.goto r run pc) where
  entered := entered_goto h.entered hsem
  old := h.old
  own := h.own
  balanced sem hlt := (h.balanced sem hlt).keep (hheld sem)

/-- The first run of a tenant creates its semaphore. -/
theorem Inv.newSemaphore (h : Inv s) {tenant : String}
    (hnone : s.semaphores.get tenant = none) : Inv (s.newSemaphore tenant) where
  entered r x sem hx hsem := by
    have hget := h.entered r x sem hx hsem
    have hne : x.tenant ≠ tenant := by
      rintro rfl
      simp [hnone] at hget
    exact (Dict.get_set_of_ne _ _ hne).trans hget
  old a sem hget := by
    simp only [State.newSemaphore, Dict.get_set] at hget ⊢
    split at hget
    · obtain rfl := Option.some.inj hget
      exact Nat.lt_succ_self _
    · exact (h.old a sem hget).trans (Nat.lt_succ_self _)
  own a b sem ha hb := by
    simp only [State.newSemaphore, Dict.get_set] at ha hb
    split at ha <;> split at hb
    · simp_all
    · obtain rfl := Option.some.inj ha
      exact absurd (h.old b _ hb) (lt_irrefl _)
    · obtain rfl := Option.some.inj hb
      exact absurd (h.old a _ ha) (lt_irrefl _)
    · exact h.own a b sem ha hb
  balanced sem hlt := by
    by_cases hsem : sem = s.created
    · subst hsem
      have hinit := @balanced_init _ _ DEFAULT_TENANT_MAX_CONCURRENT _ _ h.not_holds_created
      simpa [State.newSemaphore] using hinit
    · have hlt' : sem < s.created := Nat.lt_of_le_of_ne (Nat.le_of_lt_succ hlt) hsem
      simpa [State.newSemaphore, hsem] using h.balanced sem hlt'

/-- A waiting run is given a permit. -/
theorem Inv.take (h : Inv s) {r sem n : ℕ} {run : Orchestration} (hr : s.runs r = some run)
    (hpc : run.pc = .waiting sem) (hn : s.permits sem = n + 1) :
    Inv ((s.setPermits sem n).goto r run (.granted sem)) where
  entered := by
    refine entered_goto h.entered ?_
    rintro _ ⟨⟩
    exact h.entered r run sem hr (by simp [hpc, Pc.sem])
  old := h.old
  own := h.own
  balanced sem' hlt := by
    have hbal := h.balanced sem' hlt
    have hout : ∀ i, ¬ Holds i (s.runs r) := by simp [hr, hpc, Pc.held]
    by_cases hsem : sem' = sem
    · subst hsem
      have hin : Holds sem' (some { run with pc := .granted sem' }) := rfl
      rw [hn] at hbal
      simpa [State.setPermits, State.goto] using hbal.take (hout sem') hin
    · have hkeep : Holds sem' (some { run with pc := .granted sem }) ↔ Holds sem' (s.runs r) :=
        iff_of_false (by simpa [Pc.held] using Ne.symm hsem) (hout sem')
      simpa [State.setPermits, State.goto, hsem] using hbal.keep hkeep

/-- A run gives its permit back and ends. -/
theorem Inv.give (h : Inv s) {r sem : ℕ} {run : Orchestration} {exit : Exit}
    (hr : s.runs r = some run) (hheld : run.pc.held = some sem) :
    Inv ((s.release sem).goto r run (.ended (some sem) exit)) where
  entered := by
    refine entered_goto h.entered ?_
    rintro _ ⟨⟩
    exact h.entered r run sem hr (Pc.sem_of_held hheld)
  old := h.old
  own := h.own
  balanced sem' hlt := by
    have hbal := h.balanced sem' hlt
    have hout : ∀ i, ¬ Holds i (some { run with pc := .ended (some sem) exit }) := by
      simp [Pc.held]
    by_cases hsem : sem' = sem
    · subst hsem
      have hin : Holds sem' (s.runs r) := by simpa [hr] using hheld
      simpa [State.release, State.setPermits, State.goto] using hbal.giveBack hin (hout sem')
    · have hkeep := iff_of_false (hout sem')
        (show ¬ Holds sem' (s.runs r) by simpa [hr, hheld] using Ne.symm hsem)
      simpa [State.release, State.setPermits, State.goto, hsem] using hbal.keep hkeep

/-- **Every step keeps the invariant.** -/
theorem Inv.step (h : Inv s) (ht : step s e = some t) : Inv t := by
  cases step_cases ht with
  | post hr =>
      refine h.goes ?_ ?_
      · simp [Pc.sem]
      · simp [hr, Pc.held]
  | @goes _ r run pc o _ hr hheld hsem =>
      have h' : Inv { s with lockOwner := o } := ⟨h.entered, h.old, h.own, h.balanced⟩
      refine h'.goes ?_ ?_
      · intro sem hpc
        rcases hsem with hsem | hsem
        · exact h.entered r run sem hr (hsem ▸ hpc)
        · exact hsem ▸ hpc
      · simp [hr, hheld]
  | @create r run hr hpc hnone =>
      have hnew := h.newSemaphore hnone
      have h' : Inv (s.newSemaphore run.tenant).unlock :=
        ⟨hnew.entered, hnew.old, hnew.own, hnew.balanced⟩
      refine h'.goes ?_ ?_
      · rintro _ ⟨⟩
        exact Dict.get_set_self ..
      · have hruns : (s.newSemaphore run.tenant).unlock.runs r = some run := hr
        simp [hruns, hpc, Pc.held]
  | take hr hpc hn => exact h.take hr hpc hn
  | give _ hr hheld _ => exact h.give hr hheld

/-! ## The cap -/

/-- The run executes an orchestration of the tenant. -/
def State.Executes (s : State) (tenant : String) (r : ℕ) : Prop :=
  ∃ sem, s.runs r = some ⟨tenant, .executing sem⟩

/-- **The state.**  No more orchestrations of a tenant execute than the cap allows;
two runs use the same semaphore exactly when they belong to the same tenant; and
the permits of a tenant's semaphore, with those its runs hold, make up the cap. -/
structure Capped (s : State) : Prop where
  cap : ∀ tenant (G : Finset ℕ), (∀ r ∈ G, s.Executes tenant r) →
    G.card ≤ DEFAULT_TENANT_MAX_CONCURRENT
  same : ∀ r r' run run' sem sem', s.runs r = some run → s.runs r' = some run' →
    run.pc.sem = some sem → run'.pc.sem = some sem' → (run.tenant = run'.tenant ↔ sem = sem')
  balanced : ∀ tenant sem, s.semaphores.get tenant = some sem →
    Balanced DEFAULT_TENANT_MAX_CONCURRENT (s.permits sem) s.runs (Holds sem)

/-- **The step.**  A run changes the permits of its own tenant's semaphore only. -/
def OwnPermits (s : State) (e : Event) (t : State) : Prop :=
  ∀ sem, t.permits sem ≠ s.permits sem →
    ∃ run, t.runs e.run = some run ∧ t.semaphores.get run.tenant = some sem

theorem Inv.capped (h : Inv s) : Capped s where
  cap tenant G hG := by
    rcases G.eq_empty_or_nonempty with rfl | ⟨r, hr⟩
    · exact Nat.zero_le _
    obtain ⟨sem, hrun⟩ := hG r hr
    have hget : s.semaphores.get tenant = some sem := h.entered r _ sem hrun rfl
    refine (h.balanced sem (h.old _ _ hget)).card_le ?_
    intro q hq
    obtain ⟨sem', hrun'⟩ := hG q hq
    have hget' : s.semaphores.get tenant = some sem' := h.entered q _ sem' hrun' rfl
    obtain rfl : sem = sem' := Option.some.inj (hget.symm.trans hget')
    simp [hrun', Pc.held]
  same r r' run run' sem sem' hr hr' hsem hsem' := by
    have hget := h.entered r run sem hr hsem
    have hget' := h.entered r' run' sem' hr' hsem'
    constructor
    · intro htenant
      rw [htenant, hget'] at hget
      exact (Option.some.inj hget).symm
    · rintro rfl
      exact h.own _ _ sem hget hget'
  balanced tenant sem hget := h.balanced sem (h.old tenant sem hget)

theorem Inv.ownPermits (h : Inv s) (ht : TenantCap.step s e = some t) : OwnPermits s e t := by
  have hself : ∀ (u : State) r run pc, (u.goto r run pc).runs r = some { run with pc := pc } :=
    fun _ _ _ _ => Function.update_self ..
  intro sem hne
  cases step_cases ht with
  | post => exact absurd rfl hne
  | goes => exact absurd rfl hne
  | @create r run =>
      obtain rfl : sem = s.created := by
        by_contra hsem
        exact hne (Function.update_of_ne hsem _ _)
      exact ⟨_, hself _ r run _, Dict.get_set_self ..⟩
  | @take r run sem' n hr hpc =>
      obtain rfl : sem = sem' := by
        by_contra hsem
        exact hne (Function.update_of_ne hsem _ _)
      exact ⟨_, hself _ r run _, h.entered r run sem hr (by simp [hpc, Pc.sem])⟩
  | @give e r run sem' exit he hr hheld hsem' =>
      obtain rfl : sem = sem' := by
        by_contra hsem
        exact hne (Function.update_of_ne hsem _ _)
      subst he
      exact ⟨_, hself _ e.run run _, h.entered e.run run sem hr hsem'⟩

/-- **The cap of every tenant.**  Whatever the order of the requests and of the
steps of their runs, and however the runs end. -/
theorem tenant_capped (es : List Event) :
    Run.Throughout step Capped init es ∧ Run.Obeys step OwnPermits init es := by
  have hstep : ∀ s e t, Inv s → step s e = some t → Inv t := fun _ _ _ h ht => h.step ht
  constructor
  · exact (Run.throughout_of_preserved hstep inv_init es).mono fun _ h => h.capped
  · exact Run.obeys_of_preserved hstep (fun _ _ _ h ht => h.ownPermits ht) inv_init es

/-- Two first requests of one tenant, of which neither finds a semaphore: the
second run to hold the lock finds the semaphore of the first. -/
example :
    (Run.exec step init [.post 0 (some "acme"), .post 1 (some "acme"), .look 0, .look 1, .lock 0,
        .create 0, .lock 1, .create 1]).map (fun s => (s.created, s.runs 0, s.runs 1)) =
      some (1, some ⟨"acme", .waiting 0⟩, some ⟨"acme", .waiting 0⟩) := by
  decide +kernel

end TenantCap
end AgentSwarm
