import Mathlib.Data.Finset.Card
import AgentSwarm.Lib.Dict

/-!
# Which keys are more recent

A log of dated writes, the newest first, read as a dictionary: a look-up finds the
last write of a key.  A cache that makes room by age keeps a key until enough other
keys have been written after it.

* `Dated` — the dates fall from each entry to the next, and none is after a bound.
* `since` — the other keys written after the last write of a key.
* `mem_since` — they are the keys whose last write is the later one; so of two keys
  the later one has fewer (`since_subset`).
-/

namespace AgentSwarm
namespace Recency

universe u v w

variable {K : Type u} {V : Type v} {T : Type w}

/-- The dates fall, and no entry is dated after `now`. -/
def Dated [LinearOrder T] (now : T) (log : Dict K (V × T)) : Prop :=
  (log.Pairwise fun p q => q.2.2 < p.2.2) ∧ ∀ p ∈ log, p.2.2 ≤ now

section Dates

variable [LinearOrder T] {now : T} {log : Dict K (V × T)}

theorem Dated.nil (now : T) : Dated now ([] : Dict K (V × T)) :=
  ⟨List.Pairwise.nil, by simp⟩

theorem Dated.mono {later : T} (h : Dated now log) (hle : now ≤ later) : Dated later log :=
  ⟨h.1, fun p hp => (h.2 p hp).trans hle⟩

/-- A new entry is dated later than the others. -/
theorem Dated.cons {later : T} (h : Dated now log) (hlt : now < later) (key : K) (v : V) :
    Dated later ((key, v, later) :: log) := by
  refine ⟨List.pairwise_cons.2 ⟨fun p hp => (h.2 p hp).trans_lt hlt, h.1⟩, ?_⟩
  intro p hp
  rcases List.mem_cons.1 hp with rfl | hp
  · exact le_rfl
  · exact (h.2 p hp).trans hlt.le

theorem Dated.tail {p : K × V × T} (h : Dated now (p :: log)) : Dated p.2.2 log := by
  obtain ⟨hp, hlog⟩ := List.pairwise_cons.1 h.1
  exact ⟨hlog, fun q hq => (hp q hq).le⟩

end Dates

variable [DecidableEq K]

/-- The keys written after the last write of `key`, less `key` itself. -/
def since : Dict K (V × T) → K → Finset K
  | [], _ => ∅
  | (k, _) :: log, key => if key = k then ∅ else insert k (since log key)

@[simp] theorem since_cons_self (key : K) (v : V × T) (log : Dict K (V × T)) :
    since ((key, v) :: log) key = ∅ := by
  simp [since]

theorem since_cons_of_ne {key k : K} (h : key ≠ k) (v : V × T) (log : Dict K (V × T)) :
    since ((k, v) :: log) key = insert k (since log key) := by
  simp [since, h]

variable [LinearOrder T] {now : T} {log : Dict K (V × T)}

/-- A key written before the newest entry. -/
theorem Dated.lt_head {p : K × V × T} (h : Dated now (p :: log)) {key : K} {v : V} {t : T}
    (hget : log.get key = some (v, t)) : t < p.2.2 :=
  (List.pairwise_cons.1 h.1).1 _ (Dict.mem_of_get hget)

/-- **More recent.**  The keys written since the last write of a key are those whose
own last write is the later one. -/
theorem mem_since (h : Dated now log) {key : K} {v : V} {t : T}
    (hget : log.get key = some (v, t)) (k : K) :
    k ∈ since log key ↔ ∃ v' t', log.get k = some (v', t') ∧ t < t' := by
  induction log generalizing now with
  | nil => simp at hget
  | cons p log ih =>
      obtain ⟨j, w, s⟩ := p
      rw [Dict.get_cons] at hget
      split at hget
      · -- the newest entry is the key's own
        rename_i hkey
        cases hget
        subst hkey
        rw [since_cons_self]
        refine iff_of_false (Finset.notMem_empty k) ?_
        rintro ⟨v', t', hk, hlt⟩
        rw [Dict.get_cons] at hk
        split at hk
        · cases hk
          exact lt_irrefl _ hlt
        · exact lt_asymm hlt (h.lt_head hk)
      · rename_i hkey
        rw [since_cons_of_ne hkey, Finset.mem_insert, Dict.get_cons, ih h.tail hget]
        by_cases hk : k = j
        · simp [hk, h.lt_head hget]
        · simp [hk]

/-- Of two keys the later one has fewer more recent ones. -/
theorem since_subset (h : Dated now log) {k k' : K} {v v' : V} {t t' : T}
    (hk : log.get k = some (v, t)) (hk' : log.get k' = some (v', t')) (hlt : t < t') :
    since log k' ⊆ since log k := by
  intro j hj
  obtain ⟨w, s, hget, hs⟩ := (mem_since h hk' j).1 hj
  exact (mem_since h hk j).2 ⟨w, s, hget, hlt.trans hs⟩

theorem not_mem_since (h : Dated now log) {key : K} {v : V} {t : T}
    (hget : log.get key = some (v, t)) : key ∉ since log key := by
  rw [mem_since h hget, hget]
  rintro ⟨v', t', heq, hlt⟩
  cases heq
  exact lt_irrefl _ hlt

/-- Different keys were last written at different times. -/
theorem Dated.ne_of_ne (h : Dated now log) {k k' : K} {v v' : V} {t t' : T}
    (hk : log.get k = some (v, t)) (hk' : log.get k' = some (v', t')) (hne : k ≠ k') :
    t ≠ t' := by
  induction log generalizing now with
  | nil => simp at hk
  | cons p log ih =>
      obtain ⟨j, w, s⟩ := p
      rw [Dict.get_cons] at hk hk'
      split at hk
      · rename_i hkp
        rw [if_neg (fun h => hne (hkp.trans h.symm))] at hk'
        cases hk
        exact (h.lt_head hk').ne'
      · split at hk'
        · cases hk'
          exact (h.lt_head hk).ne
        · exact ih h.tail hk hk'

end Recency
end AgentSwarm
