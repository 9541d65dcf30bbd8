import Mathlib.Logic.Function.Basic
import AgentSwarm.Lib.Dict

/-!
# The container pool and the invokes that use it

`ContainerPoolManager` keeps the warm worker containers; `DockerBackend.invoke`
checks one out, works with it and returns it.  Any number of invokes run at the
same time, and each of them may be cancelled at an `await` or have a step raise,
so an invoke is modelled by the place it is at, and a step is what it does up to
the next place where something can go wrong.

* `PooledContainer`, `Pool` — a container, and the dictionary of them.
* `scan` — the search of `checkout` for an idle container that is running.
* `returnContainer` — `return_container`, with the recycling of a container that
  has been used often enough.
* `Pc`, `Event` — the places of an invoke, and what can happen there.
* `step` — one step of one invoke.

The pool's lock is never held over a suspension, so `checkout` up to the
selection, and `return_container` once it has the lock, are one step each.
-/

namespace AgentSwarm
namespace ContainerPool

/-- `ContainerState`. -/
inductive ContainerState where
  | idle
  | busy
  | starting
  | dead
  deriving DecidableEq, Repr

/-- A container of the pool.  Every container is spawned for an index, which
gives it its name and its port. -/
structure PooledContainer where
  containerId : String
  index : ℕ
  state : ContainerState := .idle
  assignedTaskId : Option String := none
  assignedRole : Option String := none
  useCount : ℕ := 0
  deriving DecidableEq

/-- `_pool`. -/
abbrev Pool := Dict String PooledContainer

/-- The arguments of a `checkout` that the container keeps. -/
structure Request where
  taskId : String
  agentCardId : String

/-- `range(READINESS_MAX_WAIT // READINESS_INTERVAL)` has this length. -/
def readinessPolls : ℕ := 30 / 2

/-- The container as `checkout` marks it. -/
def PooledContainer.checkedOut (c : PooledContainer) (req : Request) : PooledContainer :=
  { c with
    state := .busy
    assignedTaskId := some req.taskId
    assignedRole := some req.agentCardId
    useCount := c.useCount + 1 }

/-- The locked part of `checkout`: the first idle container that Docker reports
as running becomes busy, and the idle ones before it that are not become dead.
`alive` are the answers of the Docker client; without a client every container
counts as running. -/
def scan (alive : String → Bool) (req : Request) : Pool → Pool × Option String
  | [] => ([], none)
  | (id, c) :: pool =>
      if c.state = .idle then
        if alive id then ((id, c.checkedOut req) :: pool, some id)
        else
          let (pool, chosen) := scan alive req pool
          ((id, { c with state := .dead }) :: pool, chosen)
      else
        let (pool, chosen) := scan alive req pool
        ((id, c) :: pool, chosen)

/-- `return_container` with the lock held.  `new` is the id Docker gives the
container that takes the place of a worn-out one, if it can be spawned. -/
def returnContainer (maxUses : ℕ) (id : String) (new : Option String) (pool : Pool) : Pool :=
  match pool.get id with
  | none => pool
  | some c =>
      let pool := pool.set id { c with
        state := .idle, assignedTaskId := none, assignedRole := none }
      if maxUses ≤ c.useCount then
        match new with
        | some id' => (pool.erase id).set id' { containerId := id', index := c.index }
        | none => pool
      else pool

/-! ## Invokes -/

/-- The place of an invoke. -/
inductive Pc where
  /-- Before the lock of `checkout`. -/
  | start
  /-- In `checkout`, the container selected, before its config file is written. -/
  | selected (id : String)
  /-- In `checkout`, awaiting the `k`-th readiness probe. -/
  | probing (id : String) (k : ℕ)
  /-- In `checkout`, asleep after the `k`-th probe. -/
  | sleeping (id : String) (k : ℕ)
  /-- `checkout` has returned, the `A2AClient` is not built yet. -/
  | opening (id : String)
  /-- In the `try` block, awaiting the worker. -/
  | trying (id : String)
  /-- In `except CancelledError`, awaiting `cancel_task`. -/
  | cancelling (id : String)
  /-- In `finally`, awaiting `client.close()`. -/
  | closing (id : String)
  /-- In `finally`, awaiting the lock of `return_container`. -/
  | returning (id : String)
  /-- The invoke has returned or raised. -/
  | ended
  deriving DecidableEq

/-- What happens to an invoke at the place where it is. -/
inductive Event where
  /-- `checkout` gets the lock and asks Docker which containers are running. -/
  | checkout (alive : String → Bool)
  | configWritten
  /-- The probe answers with status 200, or with anything else. -/
  | probed (ready : Bool)
  | slept
  | clientOpened
  /-- An await of the `try` block is over, and another one follows. -/
  | worked
  /-- The `try` block ends, or an exception is caught. -/
  | sent
  | cancelSent
  | closed
  /-- `return_container` gets the lock. -/
  | returned (new : Option String)
  /-- A step outside the `try` block raises. -/
  | raises
  /-- A `CancelledError` is thrown in. -/
  | cancel

/-- The pool, and where every invoke is. -/
structure Sys where
  pool : Pool
  pc : ℕ → Pc

/-- Invoke `i` moves to the place `p`. -/
def Sys.goto (s : Sys) (i : ℕ) (p : Pc) : Sys := { s with pc := Function.update s.pc i p }

/-- Something happens to one invoke. -/
structure Action where
  invoke : ℕ
  event : Event

/-- One step of one invoke.  `prog` are the arguments of the invokes.  Docker
never gives a new container the id of one that is in the pool. -/
def step (maxUses : ℕ) (prog : ℕ → Request) (s : Sys) (a : Action) : Option Sys :=
  let i := a.invoke
  match s.pc i, a.event with
  | .start, .checkout alive =>
      match scan alive (prog i) s.pool with
      | (pool, some id) => some ({ s with pool := pool }.goto i (.selected id))
      | (pool, none) => some ({ s with pool := pool }.goto i .ended)
  | .start, .cancel => some (s.goto i .ended)
  | .selected id, .configWritten => some (s.goto i (.probing id 0))
  | .selected _, .raises => some (s.goto i .ended)
  | .probing id _, .probed true => some (s.goto i (.opening id))
  | .probing id k, .probed false => some (s.goto i (.sleeping id k))
  | .probing _ _, .cancel => some (s.goto i .ended)
  | .sleeping id k, .slept =>
      if k + 1 < readinessPolls then some (s.goto i (.probing id (k + 1)))
      else some (s.goto i (.opening id))
  | .sleeping _ _, .cancel => some (s.goto i .ended)
  | .opening id, .clientOpened => some (s.goto i (.trying id))
  | .opening _, .raises => some (s.goto i .ended)
  | .trying id, .worked => some (s.goto i (.trying id))
  | .trying id, .sent => some (s.goto i (.closing id))
  | .trying id, .cancel => some (s.goto i (.cancelling id))
  | .cancelling id, .cancelSent => some (s.goto i (.closing id))
  | .cancelling id, .cancel => some (s.goto i (.closing id))
  | .closing id, .closed => some (s.goto i (.returning id))
  | .closing _, .cancel => some (s.goto i .ended)
  | .returning id, .returned new =>
      if ∀ id' ∈ new, id' ∉ s.pool.keys then
        some ({ s with pool := returnContainer maxUses id new s.pool }.goto i .ended)
      else none
  | .returning _, .cancel => some (s.goto i .ended)
  | _, _ => none

/-- The container an invoke at this place has selected and not yet returned. -/
def Pc.holds : Pc → Option String
  | .start => none
  | .selected id => some id
  | .probing id _ => some id
  | .sleeping id _ => some id
  | .opening id => some id
  | .trying id => some id
  | .cancelling id => some id
  | .closing id => some id
  | .returning id => some id
  | .ended => none

/-- An exception thrown in at this place leaves no container behind: none is
held, or the `finally` of the `try` block is still to come. -/
def Pc.guarded : Pc → Bool
  | .start => true
  | .trying _ => true
  | .cancelling _ => true
  | .ended => true
  | _ => false

/-- The event is an exception that leaves the code where it happens. -/
def Event.throws : Event → Bool
  | .raises => true
  | .cancel => true
  | _ => false

/-! ## Everything a step can do -/

/-- The transitions of invoke `i`, by what they do to the pool and to the
container the invoke holds. -/
inductive Moved (maxUses : ℕ) (prog : ℕ → Request) (s : Sys) (i : ℕ) : Event → Sys → Prop
  /-- `checkout` finds a container. -/
  | select {alive pool id} (hpc : s.pc i = .start)
      (hscan : scan alive (prog i) s.pool = (pool, some id)) :
      Moved maxUses prog s i (.checkout alive) ({ s with pool := pool }.goto i (.selected id))
  /-- `checkout` finds none. -/
  | selectNone {alive pool} (hpc : s.pc i = .start)
      (hscan : scan alive (prog i) s.pool = (pool, none)) :
      Moved maxUses prog s i (.checkout alive) ({ s with pool := pool }.goto i .ended)
  /-- A step that leaves the pool and the invoke's container alone. -/
  | go {e p} (hholds : p.holds = (s.pc i).holds) (hguard : e.throws → (s.pc i).guarded) :
      Moved maxUses prog s i e (s.goto i p)
  /-- The container is returned. -/
  | giveBack {id new} (hpc : s.pc i = .returning id) (hnew : ∀ id' ∈ new, id' ∉ s.pool.keys) :
      Moved maxUses prog s i (.returned new)
        ({ s with pool := returnContainer maxUses id new s.pool }.goto i .ended)
  /-- The invoke ends with its container in its hands. -/
  | drop {e id} (hpc : (s.pc i).holds = some id) (hguard : (s.pc i).guarded = false)
      (he : e.throws = true) : Moved maxUses prog s i e (s.goto i .ended)

variable {maxUses : ℕ} {prog : ℕ → Request} {s t : Sys} {i : ℕ} {e : Event}

/-- **Everything a step can do.** -/
theorem step_cases (h : step maxUses prog s ⟨i, e⟩ = some t) : Moved maxUses prog s i e t := by
  rw [step] at h
  dsimp only at h
  split at h
  all_goals try have hpc := ‹s.pc i = _›
  case h_1 =>
    split at h
    · cases h
      exact .select hpc ‹_›
    · cases h
      exact .selectNone hpc ‹_›
  case h_8 =>
    split at h <;> cases h <;> exact .go (by simp [hpc, Pc.holds]) (by simp [Event.throws])
  case h_19 =>
    split at h
    · cases h
      exact .giveBack hpc ‹_›
    · cases h
  case h_21 => cases h
  -- the six places where an exception takes the container with it
  case h_4 | h_7 | h_9 | h_11 | h_18 | h_20 =>
    cases h
    exact .drop (by rw [hpc]; rfl) (by rw [hpc]; rfl) rfl
  all_goals
    cases h
    exact .go (by simp [hpc, Pc.holds]) (by simp [hpc, Event.throws, Pc.guarded])

end ContainerPool
end AgentSwarm
