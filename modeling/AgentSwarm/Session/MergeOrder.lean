import Mathlib.Data.List.Perm.Basic
import Mathlib.Data.Nat.Notation
import Mathlib.Data.Option.Basic
import AgentSwarm.Common.Json

/-!
# The order of state updates

`SessionService.update_state` merges a delta into the state of a session with
`_deep_merge`.  Two deltas that put different things at one key path depend on
their order; this file shows that nothing else does.

* `valueAt`, `isObj` — what an object holds at a path of keys.
* `Same` — equality of JSON values up to the order of the keys, as Python's
  `==` on `dict`s has it; `WellFormed` — no object has a key twice.
* `Compatible` — two deltas never disagree: at a path that both have, both
  values are objects or they are equal.
* `mergeEntry_swap` — two compatible deltas commute over any base, also one
  that has a plain value where they have objects.
* `mergeAll_commutes` — **main result**: compatible deltas give one state in
  every order, with every leaf of every delta in it and every other leaf of
  the base as it was.
-/

namespace AgentSwarm

namespace Json

/-! ## Paths -/

/-- `isinstance(v, dict)`. -/
def isObj : Json → Bool
  | .obj _ => true
  | _ => false

/-- What `v` holds at a path of keys. -/
def valueAt : Json → List String → Option Json
  | v, [] => some v
  | .obj o, k :: p =>
      match Dict.get o k with
      | some v => v.valueAt p
      | none => none
  | _, _ :: _ => none

@[simp] theorem valueAt_nil (v : Json) : v.valueAt [] = some v := by
  cases v <;> rfl

/-- A path of one key and more leads through an object. -/
theorem valueAt_cons {v x : Json} {k : String} {p : List String} :
    v.valueAt (k :: p) = some x ↔
      ∃ o w, v = .obj o ∧ Dict.get o k = some w ∧ w.valueAt p = some x := by
  cases v with
  | obj o => cases h : Dict.get o k <;> simp [valueAt, h]
  | _ => simp [valueAt]

theorem isObj_iff {v : Json} : v.isObj ↔ ∃ o, v = .obj o := by
  cases v <;> simp [isObj]

/-! ## Equality up to the order of keys -/

/-- The values are equal up to the order in which objects list their keys. -/
inductive Same : Json → Json → Prop
  | null : Same .null .null
  | bool (b : Bool) : Same (.bool b) (.bool b)
  | num (q : ℚ) : Same (.num q) (.num q)
  | str (s : String) : Same (.str s) (.str s)
  | arr {xs ys : List Json} (hl : xs.length = ys.length)
      (h : ∀ (i : ℕ) v w, xs[i]? = some v → ys[i]? = some w → Same v w) : Same (.arr xs) (.arr ys)
  | obj {a b : JsonObj} (hk : ∀ k, (a.get k).isSome = (b.get k).isSome)
      (h : ∀ k v w, a.get k = some v → b.get k = some w → Same v w) : Same (.obj a) (.obj b)

theorem Same.refl : (v : Json) → Same v v
  | .null => .null
  | .bool b => .bool b
  | .num q => .num q
  | .str s => .str s
  | .arr xs => by
      refine .arr rfl ?_
      intro i v w hv hw
      have hmem : v ∈ xs := List.mem_of_getElem? hv
      cases hv.symm.trans hw
      exact Same.refl v
  | .obj o => by
      refine .obj (fun _ => rfl) ?_
      intro k v w hv hw
      have hmem : (k, v) ∈ o := Dict.mem_of_get hv
      cases hv.symm.trans hw
      exact Same.refl v
termination_by v => sizeOf v
decreasing_by
  · have := List.sizeOf_lt_of_mem hmem
    simp
    omega
  · have := List.sizeOf_lt_of_mem hmem
    simp at this ⊢
    omega

theorem Same.symm {v w : Json} (h : Same v w) : Same w v := by
  induction h with
  | null => exact .null
  | bool b => exact .bool b
  | num q => exact .num q
  | str s => exact .str s
  | arr hl _ ih => exact .arr hl.symm (fun i v w hv hw => ih i w v hw hv)
  | obj hk _ ih => exact .obj (fun k => (hk k).symm) (fun k v w hv hw => ih k w v hw hv)

theorem Same.trans {u v w : Json} (h : Same u v) (h' : Same v w) : Same u w := by
  induction h generalizing w with
  | null => exact h'
  | bool b => exact h'
  | num q => exact h'
  | str s => exact h'
  | @arr xs ys hl _ ih =>
      cases h' with
      | arr hl' h' =>
        refine .arr (hl.trans hl') ?_
        intro i x z hx hz
        obtain ⟨y, hy⟩ : ∃ y, ys[i]? = some y := by
          have hi : i < ys.length := hl ▸ (List.getElem?_eq_some_iff.1 hx).1
          exact ⟨ys[i], List.getElem?_eq_getElem hi⟩
        exact ih i x y hx hy (h' i y z hy hz)
  | @obj a b hk _ ih =>
      cases h' with
      | obj hk' h' =>
        refine .obj (fun k => (hk k).trans (hk' k)) ?_
        intro k x z hx hz
        obtain ⟨y, hy⟩ : ∃ y, Dict.get b k = some y := by
          refine Option.isSome_iff_exists.1 ?_
          rw [← hk k, hx]
          rfl
        exact ih k x y hx hy (h' k y z hy hz)

theorem Same.isObj_eq {v w : Json} (h : Same v w) : v.isObj = w.isObj := by
  cases h <;> rfl

/-- Objects are the same when every look-up is. -/
theorem same_obj {a b : JsonObj} (h : ∀ k, Option.Rel Same (a.get k) (b.get k)) :
    Same (.obj a) (.obj b) := by
  constructor
  · intro k
    have hrel := h k
    generalize a.get k = x at hrel ⊢
    generalize b.get k = y at hrel ⊢
    cases hrel <;> rfl
  · intro k v w hv hw
    have hrel := h k
    rw [hv, hw] at hrel
    cases hrel with
    | some hvw => exact hvw

theorem Same.get {a b : JsonObj} (h : Same (.obj a) (.obj b)) (k : String) :
    Option.Rel Same (a.get k) (b.get k) := by
  cases h with
  | obj hk h =>
    cases ha : a.get k with
    | none =>
      have hb : b.get k = none := by simpa [ha] using (hk k).symm
      rw [hb]
      exact .none
    | some v =>
      obtain ⟨w, hb⟩ : ∃ w, b.get k = some w := by
        refine Option.isSome_iff_exists.1 ?_
        rw [← hk k, ha]
        rfl
      rw [hb]
      exact .some (h k v w ha hb)

theorem rel_refl (x : Option Json) : Option.Rel Same x x := by
  cases x with
  | none => exact .none
  | some v => exact .some (Same.refl v)

/-! ## Objects without a key twice -/

/-- No object in the value has a key twice, as no Python `dict` has. -/
inductive WellFormed : Json → Prop
  | null : WellFormed .null
  | bool (b : Bool) : WellFormed (.bool b)
  | num (q : ℚ) : WellFormed (.num q)
  | str (s : String) : WellFormed (.str s)
  | arr {xs : List Json} (h : ∀ x ∈ xs, WellFormed x) : WellFormed (.arr xs)
  | obj {o : JsonObj} (hk : o.NodupKeys) (h : ∀ kv ∈ o, WellFormed kv.2) : WellFormed (.obj o)

theorem WellFormed.get {o : JsonObj} {k : String} {v : Json} (h : WellFormed (.obj o))
    (hv : o.get k = some v) : WellFormed v := by
  cases h with
  | obj hk h => exact h (k, v) (Dict.mem_of_get hv)

/-! ## What a merge leaves -/

/-- What `old` holds under `k`, when it is an object. -/
def under (old : Option Json) (k : String) : Option Json :=
  match old with
  | some (.obj t) => Dict.get t k
  | _ => none

@[simp] theorem mergeEntry_none (v : Json) : mergeEntry none v = v := by
  cases v <;> simp [mergeEntry]

/-- A plain value replaces what was there. -/
theorem mergeEntry_of_plain {v : Json} (h : v.isObj = false) (old : Option Json) :
    mergeEntry old v = v := by
  cases v with
  | obj o => simp [isObj] at h
  | _ => simp [mergeEntry]

/-- What a look-up finds after a merge. -/
theorem get_deepMerge {d : JsonObj} (hd : d.NodupKeys) (t : JsonObj) (k : String) :
    (deepMerge t d).get k =
      match d.get k with
      | some v => some (mergeEntry (t.get k) v)
      | none => t.get k := by
  induction d generalizing t with
  | nil => simp
  | cons e d ih =>
      obtain ⟨j, w⟩ := e
      obtain ⟨hj, htail⟩ := List.nodup_cons.1 hd
      rw [deepMerge, ih htail, Dict.get_cons, Dict.get_set]
      by_cases hk : k = j
      · subst hk
        have hnone : Dict.get d k = none := Dict.get_eq_none_of_not_mem_keys hj
        simp [hnone]
      · simp [hk]

/-- Merging an object leaves an object, each of its entries merged into what
was under the same key. -/
theorem mergeEntry_obj {o : JsonObj} (ho : o.NodupKeys) (old : Option Json) :
    ∃ x : JsonObj, mergeEntry old (.obj o) = .obj x ∧
      ∀ k, x.get k =
        match o.get k with
        | some v => some (mergeEntry (under old k) v)
        | none => under old k := by
  have hempty : ∀ k, o.get k = match o.get k with
      | some v => some (mergeEntry none v)
      | none => none := by
    intro k
    cases o.get k <;> simp
  cases old with
  | none => exact ⟨o, by simp, hempty⟩
  | some w =>
    cases w with
    | obj t => exact ⟨deepMerge t o, by simp [mergeEntry], get_deepMerge ho t⟩
    | _ => exact ⟨o, by simp [mergeEntry], hempty⟩

theorem WellFormed.nodup {o : JsonObj} (h : WellFormed (.obj o)) : o.NodupKeys := by
  cases h with
  | obj hk h => exact hk

/-- Merging into values that are the same leaves values that are the same. -/
theorem mergeEntry_congr {v : Json} (hv : WellFormed v) {old old' : Option Json}
    (h : Option.Rel Same old old') : Same (mergeEntry old v) (mergeEntry old' v) := by
  induction hv generalizing old old' with
  | @obj o hk _ ih =>
    obtain ⟨x, hx, hget⟩ := mergeEntry_obj hk old
    obtain ⟨x', hx', hget'⟩ := mergeEntry_obj hk old'
    rw [hx, hx']
    refine same_obj ?_
    intro k
    rw [hget, hget']
    have hunder : Option.Rel Same (under old k) (under old' k) := by
      cases h with
      | none => exact .none
      | @some t t' hsame =>
        cases hsame with
        | @obj a b hk h => exact (Same.obj hk h).get k
        | _ => exact .none
    cases hv : o.get k with
    | none => exact hunder
    | some v => exact .some (ih (k, v) (Dict.mem_of_get hv) hunder)
  | _ => simpa only [mergeEntry] using Same.refl _

/-! ## Compatible deltas -/

/-- At every path that both have, the values are both objects or equal. -/
def Agree (v w : Json) : Prop :=
  ∀ p x y, v.valueAt p = some x → w.valueAt p = some y → (x.isObj ∧ y.isObj) ∨ Same x y

theorem Agree.symm {v w : Json} (h : Agree v w) : Agree w v := by
  intro p x y hx hy
  obtain ⟨hyo, hxo⟩ | hsame := h p y x hy hx
  · exact .inl ⟨hxo, hyo⟩
  · exact .inr hsame.symm

/-- Either both are objects, or neither is and they are equal. -/
theorem Agree.root {v w : Json} (h : Agree v w) :
    (v.isObj ∧ w.isObj) ∨ (v.isObj = false ∧ w.isObj = false ∧ Same v w) := by
  obtain hobj | hsame := h [] v w (valueAt_nil v) (valueAt_nil w)
  · exact .inl hobj
  · have heq := hsame.isObj_eq
    cases hv : v.isObj with
    | true => exact .inl ⟨rfl, heq ▸ hv⟩
    | false => exact .inr ⟨rfl, heq ▸ hv, hsame⟩

theorem Agree.get {a b : JsonObj} (h : Agree (.obj a) (.obj b)) {k : String} {v w : Json}
    (hv : a.get k = some v) (hw : b.get k = some w) : Agree v w := by
  intro p x y hx hy
  exact h (k :: p) x y (valueAt_cons.2 ⟨a, v, rfl, hv, hx⟩) (valueAt_cons.2 ⟨b, w, rfl, hw, hy⟩)

/-- Two objects are compatible when what they have under each common key is. -/
theorem agree_obj {a b : JsonObj}
    (h : ∀ k v w, a.get k = some v → b.get k = some w → Agree v w) :
    Agree (.obj a) (.obj b) := by
  intro p x y hx hy
  cases p with
  | nil =>
    obtain rfl : Json.obj a = x := by simpa using hx
    obtain rfl : Json.obj b = y := by simpa using hy
    exact .inl ⟨rfl, rfl⟩
  | cons k p =>
    obtain ⟨a', v, ha, hv, hvx⟩ := valueAt_cons.1 hx
    obtain ⟨b', w, hb, hw, hwy⟩ := valueAt_cons.1 hy
    cases ha
    cases hb
    exact h k v w hv hw p x y hvx hwy

/-- **Two compatible values commute** over anything they are merged into. -/
theorem mergeEntry_swap {v w : Json} (hv : WellFormed v) (hw : WellFormed w) (h : Agree v w)
    (old : Option Json) :
    Same (mergeEntry (some (mergeEntry old v)) w) (mergeEntry (some (mergeEntry old w)) v) := by
  induction hv generalizing w old with
  | @obj a ha hmem ih =>
    obtain ⟨-, hobj⟩ | ⟨hno, -⟩ := h.root
    · obtain ⟨b, rfl⟩ := isObj_iff.1 hobj
      obtain ⟨x, hx, hgetx⟩ := mergeEntry_obj ha old
      obtain ⟨y, hy, hgety⟩ := mergeEntry_obj hw.nodup old
      rw [hx, hy]
      obtain ⟨xy, hxy, hgetxy⟩ := mergeEntry_obj hw.nodup (some (.obj x))
      obtain ⟨yx, hyx, hgetyx⟩ := mergeEntry_obj ha (some (.obj y))
      rw [hxy, hyx]
      refine same_obj ?_
      intro k
      rw [hgetxy, hgetyx, under, under, hgetx, hgety]
      cases hka : a.get k with
      | none => cases hkb : Dict.get b k <;> exact rel_refl _
      | some va =>
        cases hkb : Dict.get b k with
        | none => exact rel_refl _
        | some vb =>
          exact .some (ih (k, va) (Dict.mem_of_get hka) (hw.get hkb) (h.get hka hkb) (under old k))
    · simp [isObj] at hno
  | _ =>
    obtain ⟨hobj, -⟩ | ⟨hno, hno', hsame⟩ := h.root
    · simp [isObj] at hobj
    · rw [mergeEntry_of_plain hno', mergeEntry_of_plain hno]
      exact hsame.symm

/-! ## What a merge does at a path -/

/-- A plain value of a delta is found where the delta has it. -/
theorem valueAt_mergeEntry {p : List String} {v x : Json} (hv : WellFormed v)
    (hx : v.valueAt p = some x) (hplain : x.isObj = false) (old : Option Json) :
    (mergeEntry old v).valueAt p = some x := by
  induction p generalizing v old with
  | nil =>
      obtain rfl : v = x := by simpa using hx
      rw [mergeEntry_of_plain hplain, valueAt_nil]
  | cons k p ih =>
      obtain ⟨o, w, rfl, hw, hwx⟩ := valueAt_cons.1 hx
      obtain ⟨m, hm, hget⟩ := mergeEntry_obj hv.nodup old
      refine valueAt_cons.2 ⟨m, mergeEntry (under old k) w, hm, ?_, ih (hv.get hw) hwx _⟩
      rw [hget, hw]

/-- A plain value that is there stays through a delta that agrees with the
value it came from. -/
theorem valueAt_mergeEntry_of_agree {p : List String} {old v w x y : Json} (hw : WellFormed w)
    (hagree : Agree v w) (hx : v.valueAt p = some x) (hplain : x.isObj = false)
    (hy : old.valueAt p = some y) (hyx : Same y x) :
    ∃ z, (mergeEntry (some old) w).valueAt p = some z ∧ Same z x := by
  induction p generalizing old v w with
  | nil =>
      obtain rfl : v = x := by simpa using hx
      obtain ⟨hobj, -⟩ | ⟨-, hno, hsame⟩ := hagree.root
      · rw [hplain] at hobj
        cases hobj
      · exact ⟨w, by rw [mergeEntry_of_plain hno, valueAt_nil], hsame.symm⟩
  | cons k p ih =>
      obtain ⟨a, va, rfl, hva, hvax⟩ := valueAt_cons.1 hx
      obtain ⟨t, vt, rfl, hvt, hvty⟩ := valueAt_cons.1 hy
      obtain ⟨-, hobj⟩ | ⟨hno, -⟩ := hagree.root
      · obtain ⟨b, rfl⟩ := isObj_iff.1 hobj
        obtain ⟨m, hm, hget⟩ := mergeEntry_obj hw.nodup (some (.obj t))
        have hmk := hget k
        simp only [under, hvt] at hmk
        cases hvb : Dict.get b k with
        | none =>
          rw [hvb] at hmk
          exact ⟨y, valueAt_cons.2 ⟨m, vt, hm, hmk, hvty⟩, hyx⟩
        | some vb =>
          rw [hvb] at hmk
          obtain ⟨z, hz, hzx⟩ := ih (hw.get hvb) (hagree.get hva hvb) hvax hvty
          exact ⟨z, valueAt_cons.2 ⟨m, _, hm, hmk, hz⟩, hzx⟩
      · simp [isObj] at hno

/-- The delta has a value at the path, or a plain value on the way to it. -/
def Touches (v : Json) (p : List String) : Prop :=
  (∃ x, v.valueAt p = some x) ∨
    ∃ q x, q <+: p ∧ q ≠ p ∧ v.valueAt q = some x ∧ x.isObj = false

theorem Touches.cons {o : JsonObj} {k : String} {w : Json} {p : List String}
    (hw : o.get k = some w) (h : Touches w p) : Touches (.obj o) (k :: p) := by
  obtain ⟨x, hx⟩ | ⟨q, x, hq, hne, hx, hplain⟩ := h
  · exact .inl ⟨x, valueAt_cons.2 ⟨o, w, rfl, hw, hx⟩⟩
  · refine .inr ⟨k :: q, x, ?_, ?_, valueAt_cons.2 ⟨o, w, rfl, hw, hx⟩, hplain⟩
    · simpa using hq
    · simpa using hne

/-- What no delta touches stays as it was. -/
theorem valueAt_mergeEntry_of_untouched {p : List String} {old w x : Json} (hw : WellFormed w)
    (hx : old.valueAt p = some x) (h : ¬Touches w p) :
    (mergeEntry (some old) w).valueAt p = some x := by
  induction p generalizing old w with
  | nil => exact absurd (.inl ⟨w, valueAt_nil w⟩) h
  | cons k p ih =>
      obtain ⟨t, vt, rfl, hvt, hvtx⟩ := valueAt_cons.1 hx
      have hobj : w.isObj := by
        by_contra hno
        refine h (.inr ⟨[], w, List.nil_prefix, by simp, valueAt_nil w, ?_⟩)
        simpa using hno
      obtain ⟨b, rfl⟩ := isObj_iff.1 hobj
      obtain ⟨m, hm, hget⟩ := mergeEntry_obj hw.nodup (some (.obj t))
      have hmk := hget k
      simp only [under, hvt] at hmk
      cases hvb : Dict.get b k with
      | none =>
        rw [hvb] at hmk
        exact valueAt_cons.2 ⟨m, vt, hm, hmk, hvtx⟩
      | some vb =>
        rw [hvb] at hmk
        have hkept := ih (hw.get hvb) hvtx (fun ht => h (ht.cons hvb))
        exact valueAt_cons.2 ⟨m, _, hm, hmk, hkept⟩

end Json

/-! ## A list of updates -/

namespace MergeOrder

open Json

/-- The state after the updates, one after another. -/
def mergeAll (state : JsonObj) (deltas : List JsonObj) : JsonObj := deltas.foldl deepMerge state

/-- At each key path present in two of the deltas the values are both objects
or are equal. -/
def Compatible (a b : JsonObj) : Prop := Agree (.obj a) (.obj b)

/-- Merging an object is the entry of an object merged into an object. -/
theorem deepMerge_eq (state d : JsonObj) :
    Json.obj (deepMerge state d) = mergeEntry (some (.obj state)) (.obj d) := by
  simp [mergeEntry]

theorem mergeAll_congr {deltas : List JsonObj} (hwf : ∀ d ∈ deltas, WellFormed (.obj d))
    {s t : JsonObj} (h : Same (.obj s) (.obj t)) :
    Same (.obj (mergeAll s deltas)) (.obj (mergeAll t deltas)) := by
  induction deltas generalizing s t with
  | nil => exact h
  | cons d ds ih =>
      have hd := hwf d List.mem_cons_self
      have hstep : Same (.obj (deepMerge s d)) (.obj (deepMerge t d)) := by
        rw [deepMerge_eq, deepMerge_eq]
        exact mergeEntry_congr hd (.some h)
      exact ih (fun e he => hwf e (List.mem_cons_of_mem _ he)) hstep

/-- **The order of compatible updates does not matter**, whatever state they
are applied to. -/
theorem mergeAll_perm {order deltas : List JsonObj} (hp : order.Perm deltas)
    (hwf : ∀ d ∈ deltas, WellFormed (.obj d)) (hc : deltas.Pairwise Compatible) (s : JsonObj) :
    Same (.obj (mergeAll s order)) (.obj (mergeAll s deltas)) := by
  induction hp generalizing s with
  | nil => exact Same.refl _
  | cons d _ ih =>
      exact ih (fun e he => hwf e (List.mem_cons_of_mem _ he)) (List.pairwise_cons.1 hc).2 _
  | swap a b ds =>
      have ha := hwf a List.mem_cons_self
      have hb := hwf b (by simp)
      have hab : Compatible a b := (List.pairwise_cons.1 hc).1 b List.mem_cons_self
      have hswap :
          Same (.obj (deepMerge (deepMerge s b) a)) (.obj (deepMerge (deepMerge s a) b)) := by
        simp only [deepMerge_eq]
        exact (mergeEntry_swap ha hb hab _).symm
      have hrest : ∀ d ∈ ds, WellFormed (.obj d) := fun d hd => hwf d (by simp [hd])
      exact mergeAll_congr hrest hswap
  | trans _ h₂ ih₁ ih₂ =>
      have hwf' := fun d hd => hwf d (h₂.subset hd)
      have hc' := hc.perm h₂.symm (fun h => Agree.symm h)
      exact (ih₁ hwf' hc' s).trans (ih₂ hwf hc s)

/-- A plain value of `d` that is in the state stays through updates that are
compatible with `d`. -/
theorem mergeAll_keeps_leaf {d : JsonObj} {deltas : List JsonObj}
    (hwf : ∀ e ∈ deltas, WellFormed (.obj e)) (hc : ∀ e ∈ deltas, Compatible d e)
    {p : List String} {x : Json} (hx : valueAt (.obj d) p = some x) (hplain : x.isObj = false)
    {s : JsonObj} {y : Json} (hy : valueAt (.obj s) p = some y) (hyx : Same y x) :
    ∃ z, valueAt (.obj (mergeAll s deltas)) p = some z ∧ Same z x := by
  induction deltas generalizing s y with
  | nil => exact ⟨y, hy, hyx⟩
  | cons e es ih =>
      obtain ⟨z, hz, hzx⟩ := valueAt_mergeEntry_of_agree (hwf e List.mem_cons_self)
        (hc e List.mem_cons_self) hx hplain hy hyx
      rw [← deepMerge_eq] at hz
      exact ih (fun e he => hwf e (List.mem_cons_of_mem _ he))
        (fun e he => hc e (List.mem_cons_of_mem _ he)) hz hzx

/-- A plain value of one of the updates is in the state afterwards. -/
theorem mergeAll_leaf {deltas : List JsonObj} (hwf : ∀ d ∈ deltas, WellFormed (.obj d))
    (hc : deltas.Pairwise Compatible) (s : JsonObj) {d : JsonObj} (hd : d ∈ deltas)
    {p : List String} {x : Json} (hx : valueAt (.obj d) p = some x) (hplain : x.isObj = false) :
    ∃ z, valueAt (.obj (mergeAll s deltas)) p = some z ∧ Same z x := by
  obtain ⟨before, later, rfl⟩ := List.append_of_mem hd
  have hlater : ∀ e ∈ later, Compatible d e :=
    (List.pairwise_cons.1 (List.pairwise_append.1 hc).2.1).1
  have hwfl : ∀ e ∈ later, WellFormed (.obj e) := fun e he => hwf e (by simp [he])
  have hput : valueAt (.obj (deepMerge (mergeAll s before) d)) p = some x := by
    rw [deepMerge_eq]
    exact valueAt_mergeEntry (hwf d hd) hx hplain _
  rw [mergeAll, List.foldl_append]
  exact mergeAll_keeps_leaf hwfl hlater hx hplain hput (Same.refl x)

/-- What none of the updates touches is in the state afterwards. -/
theorem mergeAll_untouched {deltas : List JsonObj} (hwf : ∀ d ∈ deltas, WellFormed (.obj d))
    {s : JsonObj} {p : List String} {x : Json} (hx : valueAt (.obj s) p = some x)
    (h : ∀ d ∈ deltas, ¬Touches (.obj d) p) :
    valueAt (.obj (mergeAll s deltas)) p = some x := by
  induction deltas generalizing s with
  | nil => exact hx
  | cons d ds ih =>
      refine ih (fun e he => hwf e (List.mem_cons_of_mem _ he)) ?_
        (fun e he => h e (List.mem_cons_of_mem _ he))
      rw [deepMerge_eq]
      exact valueAt_mergeEntry_of_untouched (hwf d List.mem_cons_self) hx (h d List.mem_cons_self)

/-- **Non-conflicting state updates commute.**  In every order of pairwise
compatible deltas the state comes out the same up to key order; every plain
value of every delta is found at its path, and whatever no delta touches is
as the original state had it. -/
theorem mergeAll_commutes {deltas : List JsonObj} (hwf : ∀ d ∈ deltas, WellFormed (.obj d))
    (hc : deltas.Pairwise Compatible) (state : JsonObj) {order : List JsonObj}
    (ho : order.Perm deltas) :
    Same (.obj (mergeAll state order)) (.obj (mergeAll state deltas)) ∧
      (∀ d ∈ deltas, ∀ p x, valueAt (.obj d) p = some x → x.isObj = false →
        ∃ z, valueAt (.obj (mergeAll state order)) p = some z ∧ Same z x) ∧
      ∀ p x, valueAt (.obj state) p = some x → (∀ d ∈ deltas, ¬Touches (.obj d) p) →
        valueAt (.obj (mergeAll state order)) p = some x := by
  have hwf' : ∀ d ∈ order, WellFormed (.obj d) := fun d hd => hwf d (ho.subset hd)
  have hc' : order.Pairwise Compatible := hc.perm ho.symm (fun h => Agree.symm h)
  refine ⟨mergeAll_perm ho hwf hc state, ?_, ?_⟩
  · intro d hd p x hx hplain
    exact mergeAll_leaf hwf' hc' state (ho.symm.subset hd) hx hplain
  · intro p x hx h
    exact mergeAll_untouched hwf' hx (fun d hd => h d (ho.subset hd))

/-- Two updates below one key, over a state with a plain value there. -/
theorem mergeAll_commutes_plan :
    let analysis : JsonObj := [("plan", .obj [("analysis", .str "A")])]
    let contract : JsonObj := [("plan", .obj [("contract", .str "C")])]
    let state : JsonObj := [("plan", .str "none")]
    Same (.obj (mergeAll state [contract, analysis]))
      (.obj (mergeAll state [analysis, contract])) := by
  intro analysis contract state
  have hwf : ∀ d ∈ [analysis, contract], WellFormed (.obj d) := by
    intro d hd
    obtain rfl | rfl : d = analysis ∨ d = contract := by simpa using hd
    · refine .obj (by decide) ?_
      simpa [analysis] using WellFormed.obj (by decide) (by simpa using WellFormed.str "A")
    · refine .obj (by decide) ?_
      simpa [contract] using WellFormed.obj (by decide) (by simpa using WellFormed.str "C")
  have hagree : Compatible analysis contract := by
    refine agree_obj ?_
    intro k v w hv hw
    obtain ⟨rfl, rfl⟩ : k = "plan" ∧ Json.obj [("analysis", .str "A")] = v := by
      simpa [analysis, Dict.get_cons] using hv
    obtain rfl : Json.obj [("contract", .str "C")] = w := by
      simpa [contract, Dict.get_cons] using hw
    refine agree_obj ?_
    intro k v w hv hw
    obtain ⟨rfl, -⟩ : k = "analysis" ∧ Json.str "A" = v := by simpa [Dict.get_cons] using hv
    simp [Dict.get_cons] at hw
  have hc : [analysis, contract].Pairwise Compatible := by simpa using hagree
  exact (mergeAll_commutes hwf hc state (.swap _ _ _)).1

end MergeOrder
end AgentSwarm
