import Mathlib.Data.List.Basic
import Mathlib.Logic.Function.Basic

/-!
# Runs of a partial step function

A concurrent program is given here by one partial function
`step : S → A → Option S`: the actions of `A` are the choices of the scheduler
and of the outside world, and `none` says that an action is not possible in a
state.  A run is a list of actions.

* `exec` — the state a list of actions leads to, if all of them are possible.
* `Along` — a condition on single steps, required of every step of a run.  The
  condition sees the state *before* the step and the action, never the outcome.
* `Throughout` — a property of states, required of every state a run visits.
* `Steadily` — a relation between the states before and after a step, required
  of every step of a run.
* `Obeys` — the same for a relation that sees the action as well.
* `throughout_of_invariant`, `steadily_of_invariant` — the induction, made once:
  what a single step preserves, a whole run preserves; a condition on the steps
  may be assumed on both sides.
* `throughout_iff_along`, `throughout_iff_along_while` — a condition that is exact for a
  step is exact for runs.
* `obeys_iff_along` — the same for the single steps.
* `last_iff_along` — the same for the last state of a run, and what is not mended.
* `rel_of_steadily` — a preorder respected by every step relates any earlier
  state of a run to any later one.
-/

namespace AgentSwarm
namespace Run

universe u v

variable {S : Type u} {A : Type v} (step : S → A → Option S)

/-- The state a list of actions leads to, or `none` when one of them is not
possible where it is tried. -/
def exec : S → List A → Option S
  | s, [] => some s
  | s, a :: as =>
      match step s a with
      | some t => exec t as
      | none => none

/-- Every step of the run meets `ok`, judged in the state the step starts from. -/
def Along (ok : S → A → Prop) : S → List A → Prop
  | _, [] => True
  | s, a :: as =>
      ok s a ∧
        match step s a with
        | some t => Along ok t as
        | none => True

/-- Every state the run visits satisfies `P`, the first and the last included. -/
def Throughout (P : S → Prop) (s : S) (as : List A) : Prop :=
  ∀ bs cs, as = bs ++ cs → ∀ t, exec step s bs = some t → P t

/-- Every step of the run leads from a state to one related to it by `R`. -/
def Steadily (R : S → S → Prop) (s : S) (as : List A) : Prop :=
  ∀ bs a cs, as = bs ++ a :: cs → ∀ t u, exec step s bs = some t → step t a = some u → R t u

/-- Every step of the run is one that `R` allows, with its action. -/
def Obeys (R : S → A → S → Prop) (s : S) (as : List A) : Prop :=
  ∀ bs a cs, as = bs ++ a :: cs → ∀ t u, exec step s bs = some t → step t a = some u → R t a u

instance decidableAlong (ok : S → A → Prop) [∀ s a, Decidable (ok s a)] :
    ∀ (s : S) (as : List A), Decidable (Along step ok s as)
  | _, [] => isTrue trivial
  | s, a :: as =>
      have : Decidable (match step s a with | some t => Along step ok t as | none => True) :=
        match step s a with
        | some t => decidableAlong ok t as
        | none => isTrue trivial
      inferInstanceAs (Decidable (ok s a ∧ _))

variable {step}

@[simp] theorem exec_nil (s : S) : exec step s [] = some s := rfl

theorem exec_cons {s t : S} {a : A} (h : step s a = some t) (as : List A) :
    exec step s (a :: as) = exec step t as := by
  simp only [exec, h]

/-- A run of one action more starts with a step. -/
theorem exec_cons_some {s u : S} {a : A} {as : List A} (h : exec step s (a :: as) = some u) :
    ∃ t, step s a = some t ∧ exec step t as = some u := by
  cases ht : step s a with
  | none => simp [exec, ht] at h
  | some t => exact ⟨t, rfl, by simpa [exec, ht] using h⟩

/-- Running one list of actions after another. -/
theorem exec_append {s : S} (as bs : List A) :
    exec step s (as ++ bs) = (exec step s as).bind fun t => exec step t bs := by
  induction as generalizing s with
  | nil => rfl
  | cons a as ih =>
      cases ht : step s a with
      | none => simp [exec, ht]
      | some t => simp [exec, ht, ih]

/-! ## Conditions on the steps of a run -/

variable {ok : S → A → Prop}

theorem along_cons {s t : S} {a : A} {as : List A} (h : Along step ok s (a :: as))
    (ht : step s a = some t) : ok s a ∧ Along step ok t as := by
  obtain ⟨hok, hrest⟩ := h
  simp only [ht] at hrest
  exact ⟨hok, hrest⟩

/-- A run that starts with a step meeting the condition. -/
theorem Along.cons {s t : S} {a : A} {as : List A} (hok : ok s a) (ht : step s a = some t)
    (h : Along step ok t as) : Along step ok s (a :: as) := by
  refine ⟨hok, ?_⟩
  simp only [ht]
  exact h

/-- A condition that every step meets is met along every run. -/
theorem along_of_forall (h : ∀ s a, ok s a) (s : S) (as : List A) : Along step ok s as := by
  induction as generalizing s with
  | nil => trivial
  | cons a as ih =>
      refine ⟨h s a, ?_⟩
      cases step s a with
      | none => trivial
      | some t => exact ih t

/-- Two conditions that are met are met together. -/
theorem Along.and {ok' : S → A → Prop} {s : S} {as : List A} (h : Along step ok s as)
    (h' : Along step ok' s as) : Along step (fun s a => ok s a ∧ ok' s a) s as := by
  induction as generalizing s with
  | nil => trivial
  | cons a as ih =>
      refine ⟨⟨h.1, h'.1⟩, ?_⟩
      cases ht : step s a with
      | none => trivial
      | some t => exact ih (along_cons h ht).2 (along_cons h' ht).2

/-- A condition on the actions alone. -/
theorem along_of_mem {Q : A → Prop} (s : S) {as : List A} (hQ : ∀ a ∈ as, Q a) :
    Along step (fun _ a => Q a) s as := by
  induction as generalizing s with
  | nil => trivial
  | cons a as ih =>
      refine ⟨hQ a List.mem_cons_self, ?_⟩
      cases step s a with
      | none => trivial
      | some t => exact ih t fun b hb => hQ b (List.mem_cons_of_mem _ hb)

/-- A condition met along a run is met along its beginnings. -/
theorem along_of_append {s : S} {as bs : List A} (h : Along step ok s (as ++ bs)) :
    Along step ok s as := by
  induction as generalizing s with
  | nil => trivial
  | cons a as ih =>
      obtain ⟨hok, hrest⟩ := h
      refine ⟨hok, ?_⟩
      cases ht : step s a with
      | none => trivial
      | some t =>
          simp only [ht] at hrest
          exact ih hrest

/-- A condition met along a run is met along its ends, and by the step between. -/
theorem along_suffix {s t : S} {as bs : List A} (h : Along step ok s (as ++ bs))
    (ht : exec step s as = some t) : Along step ok t bs := by
  induction as generalizing s with
  | nil =>
      cases ht
      exact h
  | cons a as ih =>
      obtain ⟨u, hu, hut⟩ := exec_cons_some ht
      exact ih (along_cons h hu).2 hut

/-- A condition met along a run, and along another from where it ends. -/
theorem Along.append {s t : S} {as bs : List A} (h : Along step ok s as)
    (ht : exec step s as = some t) (h' : Along step ok t bs) : Along step ok s (as ++ bs) := by
  induction as generalizing s with
  | nil =>
      cases ht
      exact h'
  | cons a as ih =>
      obtain ⟨u, hu, hut⟩ := exec_cons_some ht
      obtain ⟨hok, hrest⟩ := along_cons h hu
      exact .cons hok hu (ih hrest hut)

/-! ## The induction over a run -/

variable {I : S → Prop}

/-- **The invariant rule.**  A property of the first state which every step
meeting the condition preserves holds of the state the run ends in. -/
theorem exec_invariant (hstep : ∀ s a t, I s → ok s a → step s a = some t → I t)
    {s u : S} {as : List A} (hs : I s) (hok : Along step ok s as)
    (hrun : exec step s as = some u) : I u := by
  induction as generalizing s with
  | nil =>
      cases hrun
      exact hs
  | cons a as ih =>
      obtain ⟨t, ht, htu⟩ := exec_cons_some hrun
      obtain ⟨hoka, hoks⟩ := along_cons hok ht
      exact ih (hstep s a t hs hoka ht) hoks htu

/-- The invariant rule, for a property that sees the actions so far. -/
theorem exec_remembers {I : List A → S → Prop}
    (hstep : ∀ past s a t, I past s → ok s a → step s a = some t → I (past ++ [a]) t)
    {past : List A} {s u : S} {as : List A} (hs : I past s) (hok : Along step ok s as)
    (hrun : exec step s as = some u) : I (past ++ as) u := by
  induction as generalizing past s with
  | nil =>
      cases hrun
      rwa [List.append_nil]
  | cons a as ih =>
      obtain ⟨t, ht, htu⟩ := exec_cons_some hrun
      obtain ⟨hoka, hoks⟩ := along_cons hok ht
      rw [List.append_cons]
      exact ih (hstep past s a t hs hoka ht) hoks htu

/-- An invariant holds in every state the run visits. -/
theorem throughout_of_invariant (hstep : ∀ s a t, I s → ok s a → step s a = some t → I t)
    {s : S} {as : List A} (hs : I s) (hok : Along step ok s as) : Throughout step I s as := by
  rintro bs cs rfl t ht
  exact exec_invariant hstep hs (along_of_append hok) ht

/-- What every step from a state of the invariant guarantees, every step of the
run guarantees. -/
theorem obeys_of_invariant {R : S → A → S → Prop}
    (hstep : ∀ s a t, I s → ok s a → step s a = some t → I t)
    (hrel : ∀ s a t, I s → ok s a → step s a = some t → R s a t)
    {s : S} {as : List A} (hs : I s) (hok : Along step ok s as) : Obeys step R s as := by
  rintro bs a cs rfl t u ht hu
  have hmid : Along step ok t (a :: cs) := along_suffix hok ht
  exact hrel t a u (exec_invariant hstep hs (along_of_append hok) ht) (along_cons hmid hu).1 hu

/-- The same for a relation that does not see the action. -/
theorem steadily_of_invariant {R : S → S → Prop}
    (hstep : ∀ s a t, I s → ok s a → step s a = some t → I t)
    (hrel : ∀ s a t, I s → ok s a → step s a = some t → R s t)
    {s : S} {as : List A} (hs : I s) (hok : Along step ok s as) : Steadily step R s as :=
  obeys_of_invariant (fun _ _ _ => hstep _ _ _) (fun _ _ _ => hrel _ _ _) hs hok

/-! A property that every step preserves, whatever its action. -/

theorem throughout_of_preserved (hstep : ∀ s a t, I s → step s a = some t → I t) {s : S}
    (hs : I s) (as : List A) : Throughout step I s as :=
  have hall : Along step (fun _ _ => True) s as := along_of_forall (fun _ _ => trivial) s as
  throughout_of_invariant (fun s a t h _ => hstep s a t h) hs hall

theorem obeys_of_preserved {R : S → A → S → Prop}
    (hstep : ∀ s a t, I s → step s a = some t → I t)
    (hrel : ∀ s a t, I s → step s a = some t → R s a t) {s : S} (hs : I s) (as : List A) :
    Obeys step R s as :=
  have hall : Along step (fun _ _ => True) s as := along_of_forall (fun _ _ => trivial) s as
  obeys_of_invariant (fun s a t h _ => hstep s a t h) (fun s a t h _ => hrel s a t h) hs hall

theorem steadily_of_preserved {R : S → S → Prop}
    (hstep : ∀ s a t, I s → step s a = some t → I t)
    (hrel : ∀ s a t, I s → step s a = some t → R s t) {s : S} (hs : I s) (as : List A) :
    Steadily step R s as :=
  obeys_of_preserved hstep hrel hs as

theorem Throughout.mono {P Q : S → Prop} (h : ∀ s, P s → Q s) {s : S} {as : List A}
    (hP : Throughout step P s as) : Throughout step Q s as :=
  fun bs cs hsplit t ht => h t (hP bs cs hsplit t ht)

/-- **An exact condition.**  If a step from a state with `P` leads to one with `P`
exactly when it meets `ok`, and a step that is not possible meets `ok`, then the
states of a run have `P` exactly when its steps meet `ok`.  `B` is an invariant
of the steps between states with `P`. -/
theorem throughout_iff_along_while {B P : S → Prop}
    (hbase : ∀ s a t, B s → P s → P t → step s a = some t → B t)
    (hstep : ∀ s a t, B s → P s → step s a = some t → (P t ↔ ok s a))
    (hstuck : ∀ s a, B s → step s a = none → ok s a) {s : S} {as : List A} (hB : B s) (hP : P s) :
    Throughout step P s as ↔ Along step ok s as := by
  constructor
  · intro h
    induction as generalizing s with
    | nil => trivial
    | cons a as ih =>
        cases ht : step s a with
        | none => exact ⟨hstuck s a hB ht, by simp [ht]⟩
        | some t =>
            have hPt : P t := h [a] as rfl t (by simp [exec, ht])
            refine ⟨(hstep s a t hB hP ht).1 hPt, ?_⟩
            simp only [ht]
            refine ih (hbase s a t hB hP hPt ht) hPt ?_
            rintro bs cs rfl u hu
            exact h (a :: bs) cs rfl u (by rw [exec_cons ht, hu])
  · intro h
    refine Throughout.mono (P := fun s => B s ∧ P s) (fun _ h => h.2)
      (throughout_of_invariant ?_ ⟨hB, hP⟩ h)
    intro s a t hs hok ht
    have hPt : P t := (hstep s a t hs.1 hs.2 ht).2 hok
    exact ⟨hbase s a t hs.1 hs.2 hPt ht, hPt⟩

/-- The same with an invariant of all steps. -/
theorem throughout_iff_along {B P : S → Prop}
    (hbase : ∀ s a t, B s → step s a = some t → B t)
    (hstep : ∀ s a t, B s → P s → step s a = some t → (P t ↔ ok s a))
    (hstuck : ∀ s a, B s → step s a = none → ok s a) {s : S} {as : List A} (hB : B s) (hP : P s) :
    Throughout step P s as ↔ Along step ok s as :=
  throughout_iff_along_while (fun s a t hs _ _ ht => hbase s a t hs ht) hstep hstuck hB hP

/-- **An exact condition on single steps.**  If, from a state of an invariant of all steps, a
step is one that `R` allows exactly when it meets `ok`, and a step that is not possible meets
`ok`, then a run obeys `R` exactly when its steps meet `ok`. -/
theorem obeys_iff_along {B : S → Prop} {R : S → A → S → Prop}
    (hbase : ∀ s a t, B s → step s a = some t → B t)
    (hstep : ∀ s a t, B s → step s a = some t → (R s a t ↔ ok s a))
    (hstuck : ∀ s a, B s → step s a = none → ok s a) {s : S} {as : List A} (hB : B s) :
    Obeys step R s as ↔ Along step ok s as := by
  constructor
  · intro h
    induction as generalizing s with
    | nil => trivial
    | cons a as ih =>
        cases ht : step s a with
        | none => exact ⟨hstuck s a hB ht, by simp [ht]⟩
        | some t =>
            refine .cons ((hstep s a t hB ht).1 (h [] a as rfl s t rfl ht)) ht ?_
            refine ih (hbase s a t hB ht) ?_
            rintro bs b cs rfl u v hu hv
            exact h (a :: bs) b cs rfl u v (by rw [exec_cons ht, hu]) hv
  · exact obeys_of_invariant (fun s a t hs _ ht => hbase s a t hs ht)
      (fun s a t hs hok ht => (hstep s a t hs ht).2 hok) hB

/-- **An exact condition on the end of a run.**  A step from a state with `P` leads to
one with `P` exactly when it meets `ok`, and a state without `P` to none with it.  `B` is
an invariant of all steps. -/
theorem last_iff_along {B P : S → Prop} (hbase : ∀ s a t, B s → step s a = some t → B t)
    (hstep : ∀ s a t, B s → P s → step s a = some t → (P t ↔ ok s a))
    (hlost : ∀ s a t, B s → ¬ P s → step s a = some t → ¬ P t)
    {s t : S} {as : List A} (hB : B s) (hP : P s) (ht : exec step s as = some t) :
    P t ↔ Along step ok s as := by
  have hgone : ∀ (as : List A) (s : S), B s → ¬ P s → exec step s as = some t → ¬ P t := by
    intro as
    induction as with
    | nil =>
        rintro s - hP ht
        cases ht
        exact hP
    | cons a as ih =>
        intro s hB hP ht
        obtain ⟨u, hu, hut⟩ := exec_cons_some ht
        exact ih u (hbase s a u hB hu) (hlost s a u hB hP hu) hut
  induction as generalizing s with
  | nil =>
      cases ht
      exact iff_of_true hP trivial
  | cons a as ih =>
      obtain ⟨u, hu, hut⟩ := exec_cons_some ht
      have hBu := hbase s a u hB hu
      by_cases hok : ok s a
      · have hrest := ih hBu ((hstep s a u hB hP hu).2 hok) hut
        exact hrest.trans ⟨fun h => .cons hok hu h, fun h => (along_cons h hu).2⟩
      · have hPu : ¬ P u := fun h => hok ((hstep s a u hB hP hu).1 h)
        exact iff_of_false (hgone as u hBu hPu hut) fun h => hok (along_cons h hu).1

theorem Throughout.last {P : S → Prop} {s t : S} {as : List A} (h : Throughout step P s as)
    (ht : exec step s as = some t) : P t :=
  h as [] (List.append_nil as).symm t ht

/-- **Earlier and later states.**  If every step of a run respects a preorder,
any state of the run is related to every state after it. -/
theorem rel_of_steadily {R : S → S → Prop} (hrefl : ∀ s, R s s)
    (htrans : ∀ s t u, R s t → R t u → R s u) {s : S} {as bs cs : List A}
    (h : Steadily step R s (as ++ bs ++ cs)) {t u : S} (ht : exec step s as = some t)
    (hu : exec step t bs = some u) : R t u := by
  induction bs generalizing as t with
  | nil =>
      cases hu
      exact hrefl _
  | cons b bs ih =>
      obtain ⟨v, hv, hvu⟩ := exec_cons_some hu
      have hfirst : R t v := h as b (bs ++ cs) (by simp) t v ht hv
      have hsv : exec step s (as ++ [b]) = some v := by
        rw [exec_append, ht]
        simp [exec, hv]
      refine htrans t v u hfirst (ih ?_ hsv hvu)
      simpa using h

end Run
end AgentSwarm
