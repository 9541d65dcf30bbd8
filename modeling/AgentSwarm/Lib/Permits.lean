import Mathlib.Data.Finset.Card
import Mathlib.Data.Nat.Notation
import Mathlib.Logic.Function.Basic
import Mathlib.Tactic.Common

/-!
# Permits of a counting semaphore

A semaphore is created with `limit` permits.  Each of its permits is at hand or
held by a process, and a process holds one permit at most.  What a process is
doing is a value of `P`, `doing p` for the process `p`, and `Holds` says of such
a value whether the process has a permit.

* `Balanced` — the processes with a permit are finitely many, and together with
  the permits at hand they make up the limit.
* `balanced_init` — a semaphore nobody has used.
* `Balanced.keep`, `Balanced.take`, `Balanced.giveBack` — one process goes on to
  do something else, and one permit moves or none.
* `Balanced.card_le`, `Balanced.card_le_of_injOn` — no more holders than the limit, and
  no more things that have holders of their own.
* `Balanced.eq_limit` — with no holder left, every permit is at hand.
-/

namespace AgentSwarm
namespace Permits

universe u v

variable {I : Type u} {P : Type v}

/-- **The invariant of a semaphore.**  The permits at hand and those held make up
the limit. -/
def Balanced (limit permits : ℕ) (doing : I → P) (Holds : P → Prop) : Prop :=
  ∃ F : Finset I, (∀ p, p ∈ F ↔ Holds (doing p)) ∧ F.card + permits = limit

variable {limit permits : ℕ} {doing : I → P} {Holds : P → Prop}

theorem balanced_init (h : ∀ p, ¬ Holds (doing p)) : Balanced limit limit doing Holds :=
  ⟨∅, fun p => ⟨fun hp => absurd hp (Finset.notMem_empty p), fun hp => absurd hp (h p)⟩, by simp⟩

/-- **At most `limit` at a time.**  Processes that all hold a permit are no more
than the limit. -/
theorem Balanced.card_le (h : Balanced limit permits doing Holds) {G : Finset I}
    (hG : ∀ p ∈ G, Holds (doing p)) : G.card ≤ limit := by
  obtain ⟨F, hF, hcard⟩ := h
  have hsub : G ⊆ F := fun p hp => (hF p).2 (hG p hp)
  have hle : G.card ≤ F.card := Finset.card_le_card hsub
  omega

/-- The same for things of which each has a holder of its own. -/
theorem Balanced.card_le_of_injOn {J : Type*} [DecidableEq I]
    (h : Balanced limit permits doing Holds) {G : Finset J} {owner : J → I}
    (hinj : Set.InjOn owner G) (hG : ∀ j ∈ G, Holds (doing (owner j))) : G.card ≤ limit := by
  have himage : ∀ p ∈ G.image owner, Holds (doing p) := by
    intro p hp
    obtain ⟨j, hj, rfl⟩ := Finset.mem_image.1 hp
    exact hG j hj
  calc G.card = (G.image owner).card := (Finset.card_image_of_injOn hinj).symm
    _ ≤ limit := h.card_le himage

/-- **Nothing is lost.**  When nobody holds a permit, all of them are at hand. -/
theorem Balanced.eq_limit (h : Balanced limit permits doing Holds)
    (hnone : ∀ p, ¬ Holds (doing p)) : permits = limit := by
  obtain ⟨F, hF, hcard⟩ := h
  have hempty : F = ∅ := Finset.eq_empty_of_forall_notMem fun p hp => hnone p ((hF p).1 hp)
  rw [hempty, Finset.card_empty, Nat.zero_add] at hcard
  exact hcard

/-! ## One process goes on -/

variable [DecidableEq I] {p : I} {now : P}

variable (Holds) in
/-- What a process holds after one of them has gone on to do something else. -/
theorem holds_update_iff (q : I) :
    Holds (Function.update doing p now q) ↔ (q = p ∧ Holds now) ∨ (q ≠ p ∧ Holds (doing q)) := by
  by_cases hq : q = p
  · subst hq
    simp
  · simp [hq]

/-- The process has a permit afterwards if it had one before. -/
theorem Balanced.keep (h : Balanced limit permits doing Holds)
    (hsame : Holds now ↔ Holds (doing p)) :
    Balanced limit permits (Function.update doing p now) Holds := by
  obtain ⟨F, hF, hcard⟩ := h
  refine ⟨F, fun q => ?_, hcard⟩
  rw [holds_update_iff Holds, hF]
  by_cases hq : q = p
  · subst hq
    simp [hsame]
  · simp [hq]

/-- The process takes one of the permits at hand. -/
theorem Balanced.take (h : Balanced limit (permits + 1) doing Holds) (hout : ¬ Holds (doing p))
    (hin : Holds now) : Balanced limit permits (Function.update doing p now) Holds := by
  obtain ⟨F, hF, hcard⟩ := h
  have hp : p ∉ F := fun hp => hout ((hF p).1 hp)
  refine ⟨insert p F, fun q => ?_, ?_⟩
  · rw [holds_update_iff Holds, Finset.mem_insert, hF]
    by_cases hq : q = p
    · simp [hq, hin]
    · simp [hq]
  · rw [Finset.card_insert_of_notMem hp]
    omega

/-- The process gives its permit back. -/
theorem Balanced.giveBack (h : Balanced limit permits doing Holds) (hin : Holds (doing p))
    (hout : ¬ Holds now) :
    Balanced limit (permits + 1) (Function.update doing p now) Holds := by
  obtain ⟨F, hF, hcard⟩ := h
  have hp : p ∈ F := (hF p).2 hin
  refine ⟨F.erase p, fun q => ?_, ?_⟩
  · rw [holds_update_iff Holds, Finset.mem_erase, hF]
    by_cases hq : q = p
    · simp [hq, hout]
    · simp [hq]
  · have hcard' : (F.erase p).card + 1 = F.card := Finset.card_erase_add_one hp
    omega

end Permits
end AgentSwarm
