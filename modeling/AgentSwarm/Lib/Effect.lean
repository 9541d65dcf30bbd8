import Mathlib.Data.List.Basic

/-!
# Computations with a state and exceptions

A Python function that works on something outside of the program, and may raise: from a
state of what is outside, it gives a value or an exception, and the state it leaves.

* `Eff`, `raise`, `ofExcept`, `catching` — computations, `raise`, a pure function that may
  raise, and a `try` whose `except` clause takes some exceptions.
* `bind_snd`, `catching_snd` — the state that is left.
* `bind_ok`, `bind_error`, … — how a computation goes on from a result.
* `Reads` — it leaves every state as it is; `reads_bind`, … are the rules.
* `Leads` — how a computation ends, by a condition on the value and one on the exception,
  each with the state that is left.
* `leads_bind`, `leads_catching`, … — **the rules**, one for each way to put computations
  together: what has to hold beforehand, exactly.
* `mapM_error` — what a map over a list raises.
* `Returns` — it ends with a value.
-/

namespace AgentSwarm

universe u

/-- A computation on states `W` that may raise an `E`. -/
def Eff (W E α : Type u) : Type u := W → Except E α × W

namespace Eff

variable {W E α β : Type u}

/-- One computation after another. -/
def andThen (x : Eff W E α) (f : α → Eff W E β) : Eff W E β := fun w =>
  match x w with
  | (.ok a, w') => f a w'
  | (.error e, w') => (.error e, w')

instance : Monad (Eff W E) where
  pure a := fun w => (.ok a, w)
  bind := andThen

/-- `raise e`. -/
def raise (e : E) : Eff W E α := fun w => (.error e, w)

/-- A function that does not look at the state. -/
def ofExcept : Except E α → Eff W E α
  | .ok a => pure a
  | .error e => raise e

/-- `try: x except …`, where `handler` gives the values for the exceptions it takes. -/
def catching (x : Eff W E α) (handler : E → Option α) : Eff W E α := fun w =>
  match x w with
  | (.ok a, w') => (.ok a, w')
  | (.error e, w') =>
      match handler e with
      | some a => (.ok a, w')
      | none => (.error e, w')

/-- How a computation ends. -/
def Leads (x : Eff W E α) (w : W) (ok : α → W → Prop) (error : E → W → Prop) : Prop :=
  match x w with
  | (.ok a, w') => ok a w'
  | (.error e, w') => error e w'

variable {w : W} {ok : α → W → Prop} {error : E → W → Prop}

/-! ## The state that is left -/

/-- One computation after another leaves what the second leaves, if the first does not raise. -/
theorem bind_snd (x : Eff W E β) (f : β → Eff W E α) (w : W) :
    ((x >>= f) w).2 =
      match x w with
      | (.ok b, w') => (f b w').2
      | (.error _, w') => w' := by
  have hbind : x >>= f = andThen x f := rfl
  rw [hbind, andThen]
  rcases x w with ⟨e | b, w'⟩ <;> rfl

/-- A `try` leaves what its body leaves. -/
theorem catching_snd (x : Eff W E α) (handler : E → Option α) (w : W) :
    (catching x handler w).2 = (x w).2 := by
  unfold catching
  rcases x w with ⟨e | a, w'⟩
  · cases hh : handler e <;> simp only [hh]
  · rfl

/-! ## How a computation goes on -/

theorem bind_ok {x : Eff W E β} {f : β → Eff W E α} {w w' : W} {b : β} (h : x w = (.ok b, w')) :
    (x >>= f) w = f b w' := by
  have hbind : x >>= f = andThen x f := rfl
  rw [hbind, andThen, h]

theorem bind_error {x : Eff W E β} {f : β → Eff W E α} {w w' : W} {e : E}
    (h : x w = (.error e, w')) : (x >>= f) w = (.error e, w') := by
  have hbind : x >>= f = andThen x f := rfl
  rw [hbind, andThen, h]

theorem catching_ok {x : Eff W E α} {handler : E → Option α} {w w' : W} {a : α}
    (h : x w = (.ok a, w')) : catching x handler w = (.ok a, w') := by
  rw [catching, h]

theorem catching_error {x : Eff W E α} {handler : E → Option α} {w w' : W} {e : E}
    (h : x w = (.error e, w')) : catching x handler w =
      match handler e with
      | some a => (.ok a, w')
      | none => (.error e, w') := by
  rw [catching, h]

/-! ## Looking only -/

/-- The computation changes nothing. -/
def Reads (x : Eff W E α) : Prop := ∀ w, (x w).2 = w

theorem reads_pure (a : α) : Reads (pure a : Eff W E α) := fun _ => rfl

theorem reads_ofExcept (x : Except E α) : Reads (ofExcept x : Eff W E α) := by
  cases x <;> exact fun _ => rfl

theorem reads_bind {x : Eff W E β} {f : β → Eff W E α} (hx : Reads x) (hf : ∀ b, Reads (f b)) :
    Reads (x >>= f) := by
  intro w
  have hsame := hx w
  rw [bind_snd]
  rcases hresult : x w with ⟨e | b, w'⟩ <;> rw [hresult] at hsame
  · exact hsame
  · exact (hf b w').trans hsame

theorem reads_catching {x : Eff W E α} (hx : Reads x) (handler : E → Option α) :
    Reads (catching x handler) := fun w => (catching_snd x handler w).trans (hx w)

/-! ## The rules -/

@[simp] theorem leads_pure (a : α) : Leads (pure a : Eff W E α) w ok error ↔ ok a w := Iff.rfl

@[simp] theorem leads_bind (x : Eff W E β) (f : β → Eff W E α) :
    Leads (x >>= f) w ok error ↔ Leads x w (fun b w' => Leads (f b) w' ok error) error := by
  have hbind : x >>= f = andThen x f := rfl
  unfold Leads
  rw [hbind, andThen]
  rcases x w with ⟨e | b, w'⟩ <;> rfl

@[simp] theorem leads_ofExcept (x : Except E α) :
    Leads (ofExcept x : Eff W E α) w ok error ↔
      match x with
      | .ok a => ok a w
      | .error e => error e w := by
  cases x <;> rfl

@[simp] theorem leads_catching (x : Eff W E α) (handler : E → Option α) :
    Leads (catching x handler) w ok error ↔
      Leads x w ok fun e w' =>
        match handler e with
        | some a => ok a w'
        | none => error e w' := by
  unfold Leads catching
  rcases x w with ⟨e | a, w'⟩
  · cases hh : handler e <;> simp only [hh]
  · rfl

/-- **Consequence.** -/
theorem Leads.mono {x : Eff W E α} {ok' : α → W → Prop} {error' : E → W → Prop}
    (h : Leads x w ok error) (hok : ∀ a w', ok a w' → ok' a w')
    (herror : ∀ e w', error e w' → error' e w') : Leads x w ok' error' := by
  unfold Leads at h ⊢
  revert h
  rcases x w with ⟨e | a, w'⟩
  · exact herror e w'
  · exact hok a w'

/-- What `mapM` raises, one of the calls raises. -/
theorem mapM_error {f : α → Except E β} {values : List α} {e : E}
    (h : values.mapM f = .error e) : ∃ a ∈ values, f a = .error e := by
  induction values with
  | nil => cases h
  | cons a values ih =>
      rw [List.mapM_cons] at h
      cases ha : f a with
      | error e' =>
          rw [ha] at h
          cases h
          exact ⟨a, List.mem_cons_self, ha⟩
      | ok b =>
          cases hrest : values.mapM f with
          | error e' =>
              rw [ha, hrest] at h
              cases h
              obtain ⟨a', ha', hraise⟩ := ih hrest
              exact ⟨a', List.mem_cons_of_mem a ha', hraise⟩
          | ok bs =>
              rw [ha, hrest] at h
              cases h

/-! ## Ending with a value -/

/-- The computation ends with a value. -/
def Returns (x : Eff W E α) (w : W) : Prop := Leads x w (fun _ _ => True) fun _ _ => False

theorem returns_iff {x : Eff W E α} : Returns x w ↔ ∃ a, (x w).1 = .ok a := by
  unfold Returns Leads
  rcases x w with ⟨e | a, w'⟩ <;> simp

end Eff
end AgentSwarm
