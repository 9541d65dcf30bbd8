import AgentSwarm.ContainerPool.Exclusive

/-!
# Worn-out containers

`return_container` makes a container idle, and one that has been used often enough is stopped,
removed and spawned again under its name.  Each of the three may fail.  Docker gives a name to
one container at a time, so nothing is spawned while the old one is there; what it reports as
running is what runs, and a container that has stopped does not run again.

* `Docked` — the pool, and the containers Docker has, running or not.
* `Outcome`, `Act`, `dockStep` — how far the removal gets, what happens to the pool, one step.
* `NoneWornOut` — a worn-out container that is returned is replaced, or never found again; and
  no container is used more often than that.
* `Retires` — the condition on a step: a worn-out container does not run once it has been
  returned.
* `noneWornOut_iff` — **no worn-out container is handed out exactly when each one that is
  returned is stopped**.
* `failed_stop_hands_out` — a `stop` that fails.
-/

namespace AgentSwarm
namespace ContainerPool

/-- The pool with Docker: `docker` has for each container that is there whether it runs, and
`started` are the ids that Docker has given. -/
structure Docked where
  pool : Pool
  started : List String
  docker : Dict String Bool

/-- How far the removal of a container gets before something raises. -/
inductive Outcome where
  /-- Neither stopped nor removed. -/
  | failed
  | stopped
  | removed
  deriving DecidableEq

/-- What happens to the pool. -/
inductive Act where
  /-- `checkout`; `answers` are the containers for which Docker answers at all. -/
  | checkout (req : Request) (answers : String → Bool)
  /-- `return_container`; `new` is the id of the container spawned in place of a worn-out one,
  if Docker does not refuse. -/
  | giveBack (id : String) (outcome : Outcome) (new : Option String)
  /-- A container stops by itself. -/
  | exits (id : String)

/-- The container `id` runs. -/
def Docked.Running (s : Docked) (id : String) : Prop := s.docker.get id = some true

instance (s : Docked) (id : String) : Decidable (s.Running id) :=
  inferInstanceAs (Decidable (_ = _))

/-- What `checkout` takes for running. -/
def Docked.alive (s : Docked) (answers : String → Bool) (id : String) : Bool :=
  answers id && decide (s.Running id)

/-- What is left of a container: whether it runs, if it is there. -/
def Docked.left (s : Docked) (id : String) : Outcome → Option Bool
  | .failed => s.docker.get id
  | .stopped => (s.docker.get id).map fun _ => false
  | .removed => none

/-- The containers Docker has once `id` has been dealt with and `new` spawned. -/
def Docked.dockerAfter (s : Docked) (id : String) (outcome : Outcome) (new : Option String) :
    Dict String Bool :=
  let docker := match s.left id outcome with
    | none => s.docker.erase id
    | some runs => s.docker.set id runs
  match new with
  | none => docker
  | some id' => docker.set id' true

/-- The name is free once the container is gone. -/
def Docked.spawns (s : Docked) (id : String) (outcome : Outcome) (new : Option String) :
    Option String :=
  if s.left id outcome = none then new else none

/-- One step. -/
def dockStep (maxUses : ℕ) (s : Docked) : Act → Option Docked
  | .checkout req answers => some { s with pool := (scan (s.alive answers) req s.pool).1 }
  | .giveBack id outcome new =>
      match s.pool.get id with
      | none => some s
      | some c =>
          if c.useCount < maxUses then
            some { s with pool := returnContainer maxUses id none s.pool }
          else if ∀ id' ∈ s.spawns id outcome new, id' ∉ s.started then
            some {
              pool := returnContainer maxUses id (s.spawns id outcome new) s.pool
              started := s.started ++ (s.spawns id outcome new).toList
              docker := s.dockerAfter id outcome (s.spawns id outcome new) }
          else none
  | .exits id =>
      some { s with docker := if s.Running id then s.docker.set id false else s.docker }

/-- After `startup`, everything that was spawned runs. -/
def docked (spawned : Spawned) : Docked where
  pool := startup spawned.results
  started := spawned.results.reduceOption
  docker := spawned.results.reduceOption.map fun id => (id, true)

/-! ## The property and the condition -/

/-- No later `checkout` finds the container. -/
def NeverOut (maxUses : ℕ) (s : Docked) (id : String) : Prop :=
  ∀ acts t, Run.exec (dockStep maxUses) s acts = some t →
    ∀ req answers, (scan (t.alive answers) req t.pool).2 ≠ some id

/-- In place of the container `c` there is one that has not been used. -/
def Replaced (basePort : ℕ) (s : Docked) (c : PooledContainer) : Prop :=
  s.pool.get c.containerId = none ∧ ∃ id d, s.pool.get id = some d ∧ d.state = .idle ∧
    d.useCount = 0 ∧ d.name = c.name ∧ d.port basePort = c.port basePort

/-- A worn-out container that is returned is replaced, or never found again. -/
def ReplacedOrGone (maxUses basePort : ℕ) (s : Docked) (a : Act) (t : Docked) : Prop :=
  match a with
  | .giveBack id _ _ => ∀ c, s.pool.get id = some c → maxUses ≤ c.useCount →
      Replaced basePort t c ∨ NeverOut maxUses t id
  | _ => True

/-- No container has been used more often than it may. -/
def UsedAtMost (maxUses : ℕ) (s : Docked) : Prop :=
  ∀ id c, s.pool.get id = some c → c.useCount ≤ maxUses

/-- No worn-out container is handed out in a run. -/
structure NoneWornOut (maxUses basePort : ℕ) (s : Docked) (acts : List Act) : Prop where
  replaced_or_gone : Run.Obeys (dockStep maxUses) (ReplacedOrGone maxUses basePort) s acts
  used : Run.Throughout (dockStep maxUses) (UsedAtMost maxUses) s acts

/-- A worn-out container that is returned is stopped or removed, or has not been running. -/
def Retires (maxUses : ℕ) (s : Docked) (a : Act) : Prop :=
  match a with
  | .giveBack id outcome _ => ∀ c, s.pool.get id = some c → maxUses ≤ c.useCount →
      s.left id outcome ≠ some true
  | _ => True

/-! ## The search -/

variable {alive : String → Bool} {req : Request} {pool : Pool} {maxUses basePort n : ℕ}
  {s t : Docked}

/-- What is found is reported as running. -/
theorem alive_of_scan {id : String} (h : (scan alive req pool).2 = some id) : alive id = true := by
  induction pool with
  | nil => cases h
  | cons p pool ih =>
      obtain ⟨k, c⟩ := p
      rw [scan] at h
      split at h
      · split at h
        · rename_i halive
          obtain rfl : k = id := Option.some.inj h
          exact halive
        · exact ih h
      · exact ih h

/-- A container is found when no other is reported as running. -/
theorem scan_only {id : String} {c : PooledContainer} (hget : pool.get id = some c)
    (hidle : c.state = .idle) (halive : ∀ j, alive j = true ↔ j = id) :
    (scan alive req pool).2 = some id := by
  induction pool with
  | nil => cases hget
  | cons p pool ih =>
      obtain ⟨k, d⟩ := p
      rw [Dict.get_cons] at hget
      rw [scan]
      by_cases hk : id = k
      · subst hk
        rw [if_pos rfl] at hget
        cases hget
        rw [if_pos hidle, if_pos ((halive id).2 rfl)]
      · rw [if_neg hk] at hget
        have hdead : ¬alive k = true := fun h => hk ((halive k).1 h).symm
        have hrest := ih hget
        split
        · simpa [hdead] using hrest
        · exact hrest

/-! ## Returning -/

theorem returnContainer_kept {id : String} {c : PooledContainer} (hget : pool.get id = some c)
    {new : Option String} (h : c.useCount < maxUses ∨ new = none) :
    returnContainer maxUses id new pool = pool.set id c.freed := by
  rw [returnContainer, hget]
  dsimp only
  split
  · rename_i hworn
    rcases h with h | rfl
    · omega
    · rfl
  · rfl

theorem returnContainer_worn {id id' : String} {c : PooledContainer} (hget : pool.get id = some c)
    (hworn : maxUses ≤ c.useCount) :
    returnContainer maxUses id (some id') pool =
      ((pool.set id c.freed).erase id).set id' { containerId := id', index := c.index } := by
  rw [returnContainer, hget]
  dsimp only
  rw [if_pos hworn]
  rfl

/-! ## The invariant of all runs -/

/-- The pool is a fleet of containers that Docker has started. -/
structure Manned (n : ℕ) (s : Docked) : Prop where
  fleet : Fleet n s.pool
  started : ∀ id c, s.pool.get id = some c → id ∈ s.started

theorem manned_docked (spawned : Spawned) : Manned spawned.results.length (docked spawned) :=
  ⟨(heldOnce_opened spawned).fleet, (heldOnce_opened spawned).started⟩

/-- What a step does to the pool. -/
inductive Docking (maxUses : ℕ) (s : Docked) : Act → Docked → Prop
  | checkout {req answers} : Docking maxUses s (.checkout req answers)
      { s with pool := (scan (s.alive answers) req s.pool).1 }
  | unknown {id outcome new} (hget : s.pool.get id = none) :
      Docking maxUses s (.giveBack id outcome new) s
  | returned {id outcome new c} (hget : s.pool.get id = some c) (huse : c.useCount < maxUses) :
      Docking maxUses s (.giveBack id outcome new) { s with pool := s.pool.set id c.freed }
  /-- The name is not free, or Docker refuses. -/
  | notSpawned {id outcome new c} (hget : s.pool.get id = some c) (hworn : maxUses ≤ c.useCount)
      (hnew : s.spawns id outcome new = none) :
      Docking maxUses s (.giveBack id outcome new)
        { s with pool := s.pool.set id c.freed, docker := s.dockerAfter id outcome none }
  | spawned {id outcome new c id'} (hget : s.pool.get id = some c) (hworn : maxUses ≤ c.useCount)
      (hnew : s.spawns id outcome new = some id') (hfresh : id' ∉ s.started) :
      Docking maxUses s (.giveBack id outcome new) {
        pool := ((s.pool.set id c.freed).erase id).set id' { containerId := id', index := c.index }
        started := s.started ++ [id']
        docker := s.dockerAfter id outcome (some id') }
  | exits {id} : Docking maxUses s (.exits id)
      { s with docker := if s.Running id then s.docker.set id false else s.docker }

/-- **Everything a step can do.** -/
theorem dockStep_cases {a : Act} (h : dockStep maxUses s a = some t) : Docking maxUses s a t := by
  cases a with
  | checkout req answers =>
      cases h
      exact .checkout
  | exits id =>
      cases h
      exact .exits
  | giveBack id outcome new =>
      simp only [dockStep] at h
      split at h
      · cases h
        exact .unknown ‹_›
      · rename_i c hget
        split at h
        · rename_i huse
          cases h
          rw [returnContainer_kept hget (.inl huse)]
          exact .returned hget huse
        · rename_i huse
          have hworn : maxUses ≤ c.useCount := by omega
          split at h
          · rename_i hfresh
            cases h
            cases hnew : s.spawns id outcome new with
            | none =>
                rw [returnContainer_kept hget (.inr rfl), Option.toList_none, List.append_nil]
                exact .notSpawned hget hworn hnew
            | some id' =>
                rw [returnContainer_worn hget hworn]
                exact .spawned hget hworn hnew (hfresh id' hnew)
          · cases h

theorem fleet_freed (h : Fleet n pool) {id : String} {c : PooledContainer}
    (hget : pool.get id = some c) : Fleet n (pool.set id c.freed) := by
  have hkept : Fleet n (returnContainer (c.useCount + 1) id none pool) :=
    fleet_returnContainer h hget
  rwa [returnContainer_kept hget (.inr rfl)] at hkept

/-- What is in the pool once a container is idle again was there, as often used. -/
theorem before_freed {id : String} {c : PooledContainer} (hget : pool.get id = some c)
    {j : String} {d : PooledContainer} (hd : (pool.set id c.freed).get j = some d) :
    ∃ d', pool.get j = some d' ∧ d.useCount = d'.useCount := by
  rw [Dict.get_set] at hd
  split at hd
  · rename_i hj
    cases hd
    exact ⟨c, hj ▸ hget, rfl⟩
  · exact ⟨d, hd, rfl⟩

/-- **One step** keeps the invariant. -/
theorem manned_dockStep {a : Act} (h : Manned n s) (hstep : dockStep maxUses s a = some t) :
    Manned n t := by
  cases dockStep_cases hstep with
  | checkout =>
      refine ⟨fleet_scan h.fleet, fun id c' hget => ?_⟩
      obtain ⟨c, hget, -⟩ := scan_same h.fleet.nodup hget
      exact h.started id c hget
  | unknown => exact h
  | @returned id outcome new c hget =>
      refine ⟨fleet_freed h.fleet hget, fun j d hd => ?_⟩
      obtain ⟨d', hd', -⟩ := before_freed hget hd
      exact h.started j d' hd'
  | @notSpawned id outcome new c hget =>
      refine ⟨fleet_freed h.fleet hget, fun j d hd => ?_⟩
      obtain ⟨d', hd', -⟩ := before_freed hget hd
      exact h.started j d' hd'
  | @spawned id outcome new c id' hget hworn =>
      have hfleet : Fleet n (returnContainer maxUses id (some id') s.pool) :=
        fleet_returnContainer h.fleet hget
      rw [returnContainer_worn hget hworn] at hfleet
      refine ⟨hfleet, fun j d hd => ?_⟩
      rw [List.mem_append, List.mem_singleton]
      rw [Dict.get_set] at hd
      split at hd
      · rename_i hj
        exact .inr hj
      · exact .inl (h.started j d (get_erased hd).2)
  | exits => exact ⟨h.fleet, h.started⟩

/-! ## Containers that do not run -/

/-- A container that Docker has started and that does not run stays so. -/
def Stopped (s : Docked) (id : String) : Prop := id ∈ s.started ∧ ¬s.Running id

theorem get_dockerAfter_none (s : Docked) (id : String) (outcome : Outcome) (j : String) :
    (s.dockerAfter id outcome none).get j =
      if j = id then s.left id outcome else s.docker.get j := by
  rw [Docked.dockerAfter]
  cases hleft : s.left id outcome with
  | none =>
      dsimp only
      rw [Dict.get_erase]
  | some runs =>
      dsimp only
      rw [Dict.get_set]

theorem get_dockerAfter_some (s : Docked) (id : String) (outcome : Outcome) (id' j : String) :
    (s.dockerAfter id outcome (some id')).get j =
      if j = id' then some true else (s.dockerAfter id outcome none).get j := by
  simp only [Docked.dockerAfter]
  rw [Dict.get_set]

/-- Dealing with a container does not start one. -/
theorem left_of_not_running {id : String} (h : ¬s.Running id) (outcome : Outcome) :
    s.left id outcome ≠ some true := by
  cases outcome with
  | failed => exact h
  | stopped =>
      rw [Docked.left]
      cases s.docker.get id <;> simp
  | removed => exact Option.some_ne_none true |>.symm

theorem not_running_dockerAfter {id j : String} (h : ¬s.Running j) (outcome : Outcome) :
    (s.dockerAfter id outcome none).get j ≠ some true := by
  rw [get_dockerAfter_none]
  split
  · rename_i hj
    exact left_of_not_running (hj ▸ h) outcome
  · exact h

theorem not_running_exits {id j : String} (h : ¬s.Running j) :
    (if s.Running id then s.docker.set id false else s.docker).get j ≠ some true := by
  split
  · rw [Dict.get_set]
    split
    · simp
    · exact h
  · exact h

theorem stopped_dockStep {a : Act} {id : String} (h : Stopped s id)
    (hstep : dockStep maxUses s a = some t) : Stopped t id := by
  obtain ⟨hstarted, hrun⟩ := h
  cases dockStep_cases hstep with
  | checkout => exact ⟨hstarted, hrun⟩
  | unknown => exact ⟨hstarted, hrun⟩
  | returned => exact ⟨hstarted, hrun⟩
  | notSpawned => exact ⟨hstarted, not_running_dockerAfter hrun _⟩
  | @spawned k outcome new c id' hget hworn hnew hfresh =>
      have hne : id ≠ id' := by
        rintro rfl
        exact hfresh hstarted
      refine ⟨List.mem_append_left _ hstarted, ?_⟩
      rw [Docked.Running, get_dockerAfter_some, if_neg hne]
      exact not_running_dockerAfter hrun _
  | exits => exact ⟨hstarted, not_running_exits hrun⟩

/-- **A container that does not run is never found again.** -/
theorem neverOut_of_stopped {id : String} (h : Stopped s id) : NeverOut maxUses s id := by
  intro acts t ht req answers hfound
  have hstops : Run.Throughout (dockStep maxUses) (fun s => Stopped s id) s acts :=
    Run.throughout_of_preserved (fun _ _ _ => stopped_dockStep) h acts
  have halive := alive_of_scan hfound
  rw [Docked.alive, Bool.and_eq_true, decide_eq_true_eq] at halive
  exact (hstops.last ht).2 halive.2

/-- An idle container that runs may be found by the next `checkout`: Docker answers for it
alone. -/
theorem not_neverOut {id : String} {c : PooledContainer} (hget : s.pool.get id = some c)
    (hidle : c.state = .idle) (hrun : s.Running id) : ¬NeverOut maxUses s id := by
  intro h
  refine h [] s rfl ⟨"", ""⟩ (fun j => j = id) (scan_only hget hidle fun j => ?_)
  rw [Docked.alive, Bool.and_eq_true, decide_eq_true_eq, decide_eq_true_eq]
  constructor
  · exact fun hj => hj.1
  · rintro rfl
    exact ⟨rfl, hrun⟩

/-! ## One return -/

/-- **A worn-out container that is returned** is replaced or gone exactly when it has been
stopped. -/
theorem replacedOrGone_iff {a : Act} (h : Manned n s) (hstep : dockStep maxUses s a = some t) :
    ReplacedOrGone maxUses basePort s a t ↔ Retires maxUses s a := by
  cases dockStep_cases hstep with
  | checkout => exact iff_of_true trivial trivial
  | exits => exact iff_of_true trivial trivial
  | @unknown id outcome new hget =>
      have hnone : ∀ c, s.pool.get id ≠ some c := by simp [hget]
      exact iff_of_true (fun c hc => absurd hc (hnone c)) fun c hc => absurd hc (hnone c)
  | @returned id outcome new c hget huse =>
      have hfew : ∀ c', s.pool.get id = some c' → ¬maxUses ≤ c'.useCount := by
        intro c' hc'
        obtain rfl : c = c' := Option.some.inj (hget.symm.trans hc')
        omega
      exact iff_of_true (fun c' hc' hle => absurd hle (hfew c' hc'))
        fun c' hc' hle => absurd hle (hfew c' hc')
  | @notSpawned id outcome new c hget hworn hnew =>
      have hthere : (s.pool.set id c.freed).get id = some c.freed := by
        rw [Dict.get_set, if_pos rfl]
      have hleft : (s.dockerAfter id outcome none).get id = s.left id outcome := by
        rw [get_dockerAfter_none, if_pos rfl]
      constructor
      · intro hgone c' hc' hle hruns
        rcases hgone c' hc' hle with ⟨hnone, -⟩ | hnever
        · have hid : c'.containerId = id := h.fleet.keyed id c' hc'
          rw [hid] at hnone
          exact absurd (hthere.symm.trans hnone) (Option.some_ne_none _)
        · exact absurd hnever (not_neverOut (c := c.freed) hthere rfl (hleft.trans hruns))
      · intro hretires c' hc' hle
        have hstopped : s.left id outcome ≠ some true := hretires c' hc' hle
        refine .inr (neverOut_of_stopped ⟨h.started id c hget, ?_⟩)
        exact fun hruns => hstopped (hleft.symm.trans hruns)
  | @spawned id outcome new c id' hget hworn hnew hfresh =>
      have hne : id ≠ id' := fun heq => hfresh (heq ▸ h.started id c hget)
      refine iff_of_true ?_ ?_
      · intro c' hc' _
        obtain rfl : c = c' := Option.some.inj (hget.symm.trans hc')
        have hid : c.containerId = id := h.fleet.keyed id c hget
        refine .inl ⟨?_, id', { containerId := id', index := c.index }, ?_, rfl, rfl, rfl, rfl⟩
        · rw [hid, Dict.get_set, if_neg hne, Dict.get_erase, if_pos rfl]
        · rw [Dict.get_set, if_pos rfl]
      · intro c' _ _
        rw [Docked.spawns] at hnew
        split at hnew
        · rename_i hleft
          rw [hleft]
          exact (Option.some_ne_none true).symm
        · cases hnew

/-! ## How often a container is used -/

/-- Also, an idle container that is worn out does not run. -/
structure Unworn (maxUses n : ℕ) (s : Docked) : Prop where
  manned : Manned n s
  used : UsedAtMost maxUses s
  retired : ∀ id c, s.pool.get id = some c → c.state = .idle → c.useCount = maxUses →
    ¬s.Running id

/-- A search leaves no container that is worn out idle and running: what it finds runs, so it
is not worn out yet. -/
theorem unworn_scan (h : Unworn maxUses n s) {answers : String → Bool} {id : String}
    {c' : PooledContainer} (hc' : (scan (s.alive answers) req s.pool).1.get id = some c') :
    c'.useCount ≤ maxUses ∧
      (c'.state = .idle → c'.useCount = maxUses → ¬s.Running id) := by
  by_cases hchosen : (scan (s.alive answers) req s.pool).2 = some id
  · obtain ⟨c, hget, hidle, hscan⟩ := scan_chosen h.manned.fleet.nodup hchosen
    have halive := alive_of_scan hchosen
    rw [Docked.alive, Bool.and_eq_true, decide_eq_true_eq] at halive
    have hle := h.used id c hget
    have hne : c.useCount ≠ maxUses := fun heq => h.retired id c hget hidle heq halive.2
    rw [hscan] at hc'
    cases hc'
    refine ⟨?_, fun hstate => by cases hstate⟩
    show c.useCount + 1 ≤ maxUses
    omega
  · rcases scan_other s.pool (s.alive answers) req id hchosen with hsame | ⟨c, hget, -, hdead⟩
    · rw [hsame] at hc'
      exact ⟨h.used id c' hc', h.retired id c' hc'⟩
    · rw [hdead] at hc'
      cases hc'
      exact ⟨h.used id c hget, fun hstate => by cases hstate⟩

/-- **One step** keeps the invariant, if it retires what is worn out. -/
theorem unworn_dockStep (hmax : 1 ≤ maxUses) {a : Act} (h : Unworn maxUses n s)
    (hretires : Retires maxUses s a) (hstep : dockStep maxUses s a = some t) :
    Unworn maxUses n t := by
  have hmanned := manned_dockStep h.manned hstep
  cases dockStep_cases hstep with
  | checkout =>
      exact ⟨hmanned, fun id c hc => (unworn_scan h hc).1, fun id c hc => (unworn_scan h hc).2⟩
  | unknown => exact h
  | @returned id outcome new c hget huse =>
      refine ⟨hmanned, fun j d hd => ?_, fun j d hd hidle hcount => ?_⟩
      · obtain ⟨d', hd', hsame⟩ := before_freed hget hd
        rw [hsame]
        exact h.used j d' hd'
      · rw [Dict.get_set] at hd
        split at hd
        · cases hd
          exact absurd hcount (Nat.ne_of_lt huse)
        · exact h.retired j d hd hidle hcount
  | @notSpawned id outcome new c hget hworn hnew =>
      refine ⟨hmanned, fun j d hd => ?_, fun j d hd hidle hcount => ?_⟩
      · obtain ⟨d', hd', hsame⟩ := before_freed hget hd
        rw [hsame]
        exact h.used j d' hd'
      · rw [Dict.get_set] at hd
        show (s.dockerAfter id outcome none).get j ≠ some true
        split at hd
        · rename_i hj
          rw [get_dockerAfter_none, if_pos hj]
          exact hretires c hget hworn
        · exact not_running_dockerAfter (h.retired j d hd hidle hcount) outcome
  | @spawned id outcome new c id' hget hworn hnew hfresh =>
      refine ⟨hmanned, fun j d hd => ?_, fun j d hd hidle hcount => ?_⟩
      · rw [Dict.get_set] at hd
        split at hd
        · cases hd
          exact Nat.zero_le _
        · exact h.used j d (get_erased hd).2
      · rw [Dict.get_set] at hd
        show (s.dockerAfter id outcome (some id')).get j ≠ some true
        rw [get_dockerAfter_some]
        split at hd
        · cases hd
          have hzero : 0 = maxUses := hcount
          omega
        · rename_i hj
          rw [if_neg hj]
          exact not_running_dockerAfter (h.retired j d (get_erased hd).2 hidle hcount) outcome
  | exits =>
      refine ⟨hmanned, h.used, fun id c hc hidle hcount => ?_⟩
      exact not_running_exits (h.retired id c hc hidle hcount)

/-! ## Whole runs -/

theorem startupFrom_unused {spawned : List (Option String)} {i : ℕ}
    (h : ∀ id c, pool.get id = some c → c.useCount = 0) :
    ∀ id c, (startupFrom i spawned pool).get id = some c → c.useCount = 0 := by
  induction spawned generalizing i pool with
  | nil => exact h
  | cons result spawned ih =>
      cases result with
      | none => exact ih h
      | some id =>
          refine ih fun j d hd => ?_
          rw [Dict.get_set] at hd
          split at hd
          · cases hd
            rfl
          · exact h j d hd

theorem unworn_docked (hmax : 1 ≤ maxUses) (spawned : Spawned) :
    Unworn maxUses spawned.results.length (docked spawned) := by
  have hunused : ∀ id c, (docked spawned).pool.get id = some c → c.useCount = 0 :=
    startupFrom_unused fun id c hc => by simp at hc
  refine ⟨manned_docked spawned, fun id c hc => ?_, fun id c hc _ hcount => ?_⟩
  · rw [hunused id c hc]
    exact Nat.zero_le maxUses
  · have hzero := hunused id c hc
    omega

/-- A step that is not possible retires: something is spawned, so the old one is gone. -/
theorem retires_of_none {a : Act} (h : dockStep maxUses s a = none) : Retires maxUses s a := by
  cases a with
  | checkout req answers => trivial
  | exits id => trivial
  | giveBack id outcome new =>
      intro c hget hworn hruns
      have hnone : s.spawns id outcome new = none := by
        rw [Docked.spawns, hruns]
        rfl
      simp only [dockStep, hget] at h
      rw [if_neg (by omega), hnone, if_pos (by simp)] at h
      cases h

/-- **No worn-out container is handed out in a run exactly when each one that is returned is
stopped.** -/
theorem noneWornOut_iff (basePort : ℕ) (hmax : 1 ≤ maxUses) (spawned : Spawned)
    (acts : List Act) : NoneWornOut maxUses basePort (docked spawned) acts ↔
      Run.Along (dockStep maxUses) (Retires maxUses) (docked spawned) acts := by
  have hreturns : Run.Obeys (dockStep maxUses) (ReplacedOrGone maxUses basePort)
      (docked spawned) acts ↔
        Run.Along (dockStep maxUses) (Retires maxUses) (docked spawned) acts :=
    Run.obeys_iff_along (fun _ _ _ => manned_dockStep) (fun _ _ _ => replacedOrGone_iff)
      (fun _ _ _ => retires_of_none) (manned_docked spawned)
  constructor
  · intro h
    exact hreturns.1 h.replaced_or_gone
  · intro h
    have hunworn : Run.Throughout (dockStep maxUses) (Unworn maxUses spawned.results.length)
        (docked spawned) acts :=
      Run.throughout_of_invariant (fun _ _ _ => unworn_dockStep hmax) (unworn_docked hmax spawned) h
    exact ⟨hreturns.2 h, hunworn.mono fun s hs => hs.used⟩

/-- One container, which startup has spawned. -/
def oneSpawned : Spawned := ⟨[some "4f2a"], by decide⟩

/-- A container is used once and replaced. -/
theorem noneWornOut_replaced : NoneWornOut 1 9001 (docked oneSpawned)
    [.checkout ⟨"3f2a91bc", "frontend"⟩ fun _ => true,
      .giveBack "4f2a" .removed (some "77b0")] := by
  refine (noneWornOut_iff 9001 (Nat.le_refl 1) oneSpawned _).2 ⟨trivial, ?_, trivial⟩
  intro c _ _
  exact (Option.some_ne_none true).symm

/-- **A `stop` that fails**: the name is not free, so nothing is spawned, and the container is
handed out once more. -/
theorem failed_stop_hands_out :
    ¬∀ (maxUses basePort : ℕ) (spawned : Spawned) (acts : List Act), 1 ≤ maxUses →
      NoneWornOut maxUses basePort (docked spawned) acts := by
  intro h
  let checkout : Act := .checkout ⟨"3f2a91bc", "frontend"⟩ fun _ => true
  have hrun := h 1 9001 oneSpawned [checkout, .giveBack "4f2a" .failed (some "77b0"), checkout]
    (Nat.le_refl 1)
  have hused := hrun.used.last rfl "4f2a" _ rfl
  revert hused
  decide

end ContainerPool
end AgentSwarm
