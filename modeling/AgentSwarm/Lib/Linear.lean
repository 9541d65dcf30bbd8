import Mathlib.Data.List.Nodup
import AgentSwarm.Lib.Run

/-!
# Calls that happen at once

Calls on an object that overlap are explained by an order in which each of them happens at once:
the object is what the calls of the order make of it, one after the other, and a call that has
been answered has the answer of its place in the order.

* `replay`, `AnswerIn` — the object after an order, and the answer of a call in it.
* `Explains` — an order explains a state.
* `Explains.step`, `Explains.happens` — the two rules for a step: it leaves the object and the
  answers alone, or one more call happens in it.
* `explained_throughout` — **the run rule**: the orders of the states of a run are prefixes of
  each other.
* `Explains.precedes` — so a call that was answered before another has begun comes before it.
-/

namespace AgentSwarm
namespace Linear

universe u v

variable {ι T D R : Type u} (effect : ι → T → D → D) (answer : ι → T → D → R)

/-- The object after the calls of an order. -/
def replay (d : D) (order : List (ι × T)) : D := order.foldl (fun d e => effect e.1 e.2 d) d

/-- The answer of a call at its place in the order. -/
def AnswerIn (d : D) (order : List (ι × T)) (i : ι) (r : R) : Prop :=
  ∃ before now after, order = before ++ (i, now) :: after ∧
    r = answer i now (replay effect d before)

/-- The order explains the object `d` that was `d₀` at first: it has calls that have begun, each
once, and those that have been answered with their answers. -/
structure Explains (d₀ : D) (order : List (ι × T)) (begun : ι → Prop) (answered : ι → R → Prop)
    (d : D) : Prop where
  once : (order.map Prod.fst).Nodup
  begun : ∀ e ∈ order, begun e.1
  object : d = replay effect d₀ order
  answers : ∀ i r, answered i r → AnswerIn effect answer d₀ order i r

variable {effect answer} {d₀ d : D} {order more : List (ι × T)} {begun begun' : ι → Prop}
  {answered answered' : ι → R → Prop}

theorem replay_append (d : D) (order more : List (ι × T)) :
    replay effect d (order ++ more) = replay effect (replay effect d order) more :=
  List.foldl_append

theorem AnswerIn.append {i : ι} {r : R} (h : AnswerIn effect answer d₀ order i r)
    (more : List (ι × T)) : AnswerIn effect answer d₀ (order ++ more) i r := by
  obtain ⟨before, now, after, rfl, hr⟩ := h
  exact ⟨before, now, after ++ more, by simp, hr⟩

theorem explains_nil (h : ∀ i r, ¬answered i r) :
    Explains effect answer d₀ [] begun answered d₀ where
  once := List.nodup_nil
  begun := fun e he => by cases he
  object := rfl
  answers := fun i r hr => absurd hr (h i r)

/-- **A step that changes nothing.**  No call is answered in it, or only one that has its place. -/
theorem Explains.step (h : Explains effect answer d₀ order begun answered d)
    (hbegun : ∀ i, begun i → begun' i)
    (hanswered : ∀ i r, answered' i r → answered i r ∨ AnswerIn effect answer d₀ order i r) :
    Explains effect answer d₀ order begun' answered' d where
  once := h.once
  begun := fun e he => hbegun e.1 (h.begun e he)
  object := h.object
  answers := fun i r hr => (hanswered i r hr).elim (h.answers i r) id

/-- **A step in which a call happens.** -/
theorem Explains.happens (h : Explains effect answer d₀ order begun answered d) {i : ι} (now : T)
    (hfresh : ∀ e ∈ order, e.1 ≠ i) (hbegun : ∀ j, begun j → begun' j) (hi : begun' i)
    (hanswered : ∀ j r, answered' j r → answered j r ∨ j = i ∧ r = answer i now d) :
    Explains effect answer d₀ (order ++ [(i, now)]) begun' answered' (effect i now d) where
  once := by
    rw [List.map_append]
    refine List.Nodup.append h.once (List.nodup_singleton i) ?_
    intro j hj hji
    obtain ⟨e, he, rfl⟩ := List.mem_map.1 hj
    exact hfresh e he (List.mem_singleton.1 hji)
  begun := by
    intro e he
    rcases List.mem_append.1 he with he | he
    · exact hbegun e.1 (h.begun e he)
    · exact List.mem_singleton.1 he ▸ hi
  object := by rw [replay_append, ← h.object]; rfl
  answers := by
    intro j r hr
    rcases hanswered j r hr with hr | ⟨rfl, rfl⟩
    · exact (h.answers j r hr).append _
    · exact ⟨order, now, [], rfl, by rw [← h.object]⟩

/-- **What was answered before another call has begun comes before it.** -/
theorem Explains.precedes {i j : ι} {r : R} {d' : D}
    (h : Explains effect answer d₀ order begun answered d)
    (hmore : Explains effect answer d₀ (order ++ more) begun' answered' d')
    (hi : answered i r) (hj : ¬begun j) (hin : ∃ e ∈ order ++ more, e.1 = j) :
    ∃ before between after now now', order ++ more =
      before ++ (i, now) :: between ++ (j, now') :: after := by
  obtain ⟨before, now, after, rfl, -⟩ := h.answers i r hi
  obtain ⟨⟨j', now'⟩, he, rfl⟩ := hin
  rcases List.mem_append.1 he with he | he
  · exact absurd (h.begun _ he) hj
  · obtain ⟨between, after', rfl⟩ := List.append_of_mem he
    exact ⟨before, after ++ between, after', now, now', by simp⟩

/-! ## Whole runs -/

variable {S : Type u} {A : Type v} {step : S → A → Option S}

/-- **The run rule.**  Where every step makes an order that `J` has for the state longer, or leaves
it, so does every run. -/
theorem explained_throughout {J : S → List (ι × T) → Prop}
    (hstep : ∀ s a t order, J s order → step s a = some t → ∃ more, J t (order ++ more))
    {s t : S} {as : List A} (hs : J s order) (ht : Run.exec step s as = some t) :
    ∃ more, J t (order ++ more) := by
  induction as generalizing s order with
  | nil =>
      cases ht
      exact ⟨[], by rwa [List.append_nil]⟩
  | cons a as ih =>
      obtain ⟨u, hu, hut⟩ := Run.exec_cons_some ht
      obtain ⟨first, hfirst⟩ := hstep s a u order hs hu
      obtain ⟨rest, hrest⟩ := ih hfirst hut
      exact ⟨first ++ rest, by rwa [← List.append_assoc]⟩

end Linear
end AgentSwarm
