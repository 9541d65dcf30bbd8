import Mathlib.Data.List.Nodup

/-!
# Insertion-ordered dictionaries

A Python `dict`, and an SQL table with a primary key, as an association list:
the order of the entries is the order in which the keys first came in.

* `get`, `set`, `setDefault`, `erase` — `d.get(k)`, `d[k] = v`,
  `d.setdefault(k, v)` and `del d[k]`.
* `replace` — `INSERT OR REPLACE`: the old row is deleted and the new one is
  the table's last.
* `get_set`, `get_erase`, `get_replace` — what a look-up finds afterwards.
* `NodupKeys` — no key occurs twice; every operation keeps it.
-/

namespace AgentSwarm

universe u v

/-- A dictionary, its entries in insertion order. -/
abbrev Dict (K : Type u) (V : Type v) := List (K × V)

namespace Dict

variable {K : Type u} {V : Type v} [DecidableEq K]

/-- `d.get(k)`. -/
def get : Dict K V → K → Option V
  | [], _ => none
  | (k', v) :: d, k => if k = k' then some v else get d k

/-- `d[k] = v`: a key that is there keeps its place, a new one goes to the end. -/
def set : Dict K V → K → V → Dict K V
  | [], k, v => [(k, v)]
  | (k', v') :: d, k, v => if k = k' then (k, v) :: d else (k', v') :: set d k v

/-- `d.setdefault(k, v)`, less the value it returns. -/
def setDefault (d : Dict K V) (k : K) (v : V) : Dict K V :=
  match d.get k with
  | some _ => d
  | none => d.set k v

/-- `del d[k]`; nothing happens to a dictionary without the key. -/
def erase (d : Dict K V) (k : K) : Dict K V := d.filter fun p => p.1 ≠ k

/-- `INSERT OR REPLACE` under the primary key `k`. -/
def replace (d : Dict K V) (k : K) (v : V) : Dict K V := d.erase k ++ [(k, v)]

/-- The keys in order. -/
def keys (d : Dict K V) : List K := d.map Prod.fst

@[simp] theorem get_nil (k : K) : get ([] : Dict K V) k = none := rfl

theorem get_cons (k' : K) (v : V) (d : Dict K V) (k : K) :
    get ((k', v) :: d) k = if k = k' then some v else d.get k := rfl

/-- What a look-up finds after `d[k] = v`. -/
theorem get_set (d : Dict K V) (k : K) (v : V) (k' : K) :
    (d.set k v).get k' = if k' = k then some v else d.get k' := by
  induction d with
  | nil => rfl
  | cons p d ih =>
      obtain ⟨j, w⟩ := p
      by_cases hkj : k = j
      · subst hkj
        by_cases hk : k' = k <;> simp [set, get_cons, hk]
      · by_cases hk : k' = j
        · subst hk
          simp [set, get_cons, hkj, Ne.symm hkj]
        · simp [set, get_cons, hkj, hk, ih]

@[simp] theorem get_set_self (d : Dict K V) (k : K) (v : V) : (d.set k v).get k = some v := by
  simp [get_set]

theorem get_set_of_ne (d : Dict K V) {k k' : K} (v : V) (h : k' ≠ k) :
    (d.set k v).get k' = d.get k' := by
  simp [get_set, h]

/-- What a look-up finds after `del d[k]`. -/
theorem get_erase (d : Dict K V) (k k' : K) :
    (d.erase k).get k' = if k' = k then none else d.get k' := by
  induction d with
  | nil => simp [erase]
  | cons p d ih =>
      obtain ⟨j, w⟩ := p
      by_cases hj : j = k
      · subst hj
        by_cases hk : k' = j <;> simp_all [erase, get_cons]
      · have herase : erase ((j, w) :: d) k = (j, w) :: erase d k := by simp [erase, hj]
        rw [herase, get_cons, get_cons, ih]
        by_cases hk : k' = j
        · subst hk
          simp [hj]
        · simp [hk]

theorem get_append (d e : Dict K V) (k : K) :
    get (d ++ e) k = (d.get k).or (e.get k) := by
  induction d with
  | nil => simp
  | cons p d ih =>
      obtain ⟨j, w⟩ := p
      by_cases hk : k = j <;> simp [get_cons, hk, ih]

/-- What a look-up finds after `INSERT OR REPLACE`. -/
theorem get_replace (d : Dict K V) (k : K) (v : V) (k' : K) :
    (d.replace k v).get k' = if k' = k then some v else d.get k' := by
  rw [replace, get_append, get_erase]
  by_cases hk : k' = k <;> simp [hk, get_cons]

theorem mem_of_get {d : Dict K V} {k : K} {v : V} (h : d.get k = some v) : (k, v) ∈ d := by
  induction d with
  | nil => simp at h
  | cons p d ih =>
      obtain ⟨j, w⟩ := p
      rw [get_cons] at h
      split at h
      · rename_i hk
        cases h
        exact hk ▸ List.mem_cons_self
      · exact List.mem_cons_of_mem _ (ih h)

theorem get_isSome_of_mem_keys {d : Dict K V} {k : K} (h : k ∈ d.keys) : (d.get k).isSome := by
  induction d with
  | nil => simp [keys] at h
  | cons p d ih =>
      obtain ⟨j, w⟩ := p
      by_cases hk : k = j
      · simp [get_cons, hk]
      · have hmem : k ∈ keys d := by simpa [keys, hk] using h
        rw [get_cons, if_neg hk]
        exact ih hmem

theorem mem_keys_of_get {d : Dict K V} {k : K} {v : V} (h : d.get k = some v) : k ∈ d.keys :=
  List.mem_map.2 ⟨(k, v), mem_of_get h, rfl⟩

theorem get_eq_none_of_not_mem_keys {d : Dict K V} {k : K} (h : k ∉ d.keys) : d.get k = none := by
  by_contra hne
  obtain ⟨v, hv⟩ := Option.ne_none_iff_exists'.1 hne
  exact h (mem_keys_of_get hv)

/-- The keys are those a look-up finds something under. -/
theorem mem_keys_iff {d : Dict K V} {k : K} : k ∈ d.keys ↔ ∃ v, d.get k = some v :=
  ⟨fun h => Option.isSome_iff_exists.1 (get_isSome_of_mem_keys h),
    fun ⟨_, h⟩ => mem_keys_of_get h⟩

theorem mem_keys_set (d : Dict K V) (k : K) (v : V) (k' : K) :
    k' ∈ (d.set k v).keys ↔ k' = k ∨ k' ∈ d.keys := by
  rw [mem_keys_iff, mem_keys_iff, get_set]
  by_cases hk : k' = k <;> simp [hk]

theorem mem_keys_erase (d : Dict K V) (k k' : K) :
    k' ∈ (d.erase k).keys ↔ k' ≠ k ∧ k' ∈ d.keys := by
  rw [mem_keys_iff, mem_keys_iff, get_erase]
  by_cases hk : k' = k <;> simp [hk]

omit [DecidableEq K] in
theorem length_keys (d : Dict K V) : d.keys.length = d.length := List.length_map Prod.fst

/-! ## Dictionaries without a key twice -/

/-- No key occurs twice. -/
def NodupKeys (d : Dict K V) : Prop := d.keys.Nodup

instance (d : Dict K V) : Decidable d.NodupKeys := inferInstanceAs (Decidable d.keys.Nodup)

omit [DecidableEq K] in
theorem NodupKeys.of_keys_eq {W : Type*} {d : Dict K V} {e : Dict K W} (hd : d.NodupKeys)
    (h : e.keys = d.keys) : e.NodupKeys := by
  rwa [NodupKeys, h]

theorem keys_set (d : Dict K V) (k : K) (v : V) :
    (d.set k v).keys = if k ∈ d.keys then d.keys else d.keys ++ [k] := by
  induction d with
  | nil => simp [set, keys]
  | cons p d ih =>
      obtain ⟨j, w⟩ := p
      by_cases hk : k = j
      · simp [set, keys, hk]
      · by_cases hmem : k ∈ keys d
        · rw [if_pos hmem] at ih
          simp_all [set, keys]
        · rw [if_neg hmem] at ih
          simp_all [set, keys]

theorem length_set (d : Dict K V) (k : K) (v : V) :
    (d.set k v).length = if k ∈ d.keys then d.length else d.length + 1 := by
  rw [← length_keys, keys_set]
  split <;> simp [length_keys]

theorem NodupKeys.set {d : Dict K V} (hd : d.NodupKeys) (k : K) (v : V) : (d.set k v).NodupKeys := by
  rw [NodupKeys, keys_set]
  split
  · exact hd
  · rename_i hk
    simpa using hd.concat hk

theorem NodupKeys.erase {d : Dict K V} (hd : d.NodupKeys) (k : K) : (d.erase k).NodupKeys := by
  have hsub : (d.erase k).Sublist d := List.filter_sublist
  exact List.Nodup.sublist (hsub.map Prod.fst) hd

theorem length_erase_of_mem {d : Dict K V} (hd : d.NodupKeys) {k : K} (hk : k ∈ d.keys) :
    (d.erase k).length + 1 = d.length := by
  have hkeys : (d.erase k).keys = d.keys.erase k := by
    rw [hd.erase_eq_filter, erase, keys, keys, List.filter_map]
    congr 1
    exact List.filter_congr fun p _ => by by_cases hp : p.1 = k <;> simp [hp]
  rw [← length_keys, ← length_keys, hkeys]
  exact List.length_erase_add_one hk

omit [DecidableEq K] in
theorem NodupKeys.filter {d : Dict K V} (hd : d.NodupKeys) (p : K × V → Bool) :
    NodupKeys (List.filter p d) := by
  have hsub : (List.filter p d).Sublist d := List.filter_sublist
  exact List.Nodup.sublist (hsub.map Prod.fst) hd

theorem NodupKeys.replace {d : Dict K V} (hd : d.NodupKeys) (k : K) (v : V) :
    (d.replace k v).NodupKeys := by
  have hnew : k ∉ (d.erase k).keys := by simp [mem_keys_erase]
  have hkeys : (d.replace k v).keys = (d.erase k).keys ++ [k] := List.map_append
  rw [NodupKeys, hkeys]
  simpa using (hd.erase k).concat hnew

/-- An entry is the one that a look-up finds. -/
theorem NodupKeys.get_eq_some_iff {d : Dict K V} (hd : d.NodupKeys) {k : K} {v : V} :
    d.get k = some v ↔ (k, v) ∈ d := by
  refine ⟨mem_of_get, fun h => ?_⟩
  induction d with
  | nil => cases h
  | cons q d ih =>
      obtain ⟨j, w⟩ := q
      obtain ⟨hj, hd⟩ := List.nodup_cons.1 hd
      rw [get_cons]
      rcases List.mem_cons.1 h with heq | hmem
      · cases heq
        exact if_pos rfl
      · have hne : k ≠ j := by
          rintro rfl
          exact hj (List.mem_map.2 ⟨_, hmem, rfl⟩)
        rw [if_neg hne]
        exact ih hd hmem

/-- A look-up does not depend on the order of the entries. -/
theorem NodupKeys.get_perm {d e : Dict K V} (hd : d.NodupKeys) (h : d.Perm e) (k : K) :
    e.get k = d.get k := by
  have he : e.NodupKeys := (h.map Prod.fst).nodup_iff.1 hd
  exact Option.ext fun v => by rw [he.get_eq_some_iff, hd.get_eq_some_iff, h.mem_iff]

/-- What a look-up finds after a filter. -/
theorem get_filter {d : Dict K V} (hd : d.NodupKeys) (p : K × V → Bool) (k : K) :
    get (List.filter p d) k = (d.get k).filter fun v => p (k, v) := by
  induction d with
  | nil => rfl
  | cons q d ih =>
      obtain ⟨j, w⟩ := q
      obtain ⟨hj, hd⟩ := List.nodup_cons.1 hd
      by_cases hk : k = j
      · subst hk
        have hnone : get (List.filter p d) k = none := by
          refine get_eq_none_of_not_mem_keys ?_
          intro hmem
          obtain ⟨x, hx, hxk⟩ := List.mem_map.1 hmem
          have hkept : x ∈ d := (List.mem_filter.1 hx).1
          exact hj (List.mem_map.2 ⟨x, hkept, hxk⟩)
        cases hp : p (k, w) <;> simp [hp, get_cons, hnone, Option.filter]
      · cases hp : p (j, w) <;> simp [hp, get_cons, hk, ih hd]

/-- What a look-up finds after `d.setdefault(k, v)`. -/
theorem get_setDefault (d : Dict K V) (k : K) (v : V) (k' : K) :
    (d.setDefault k v).get k' = (d.get k').or (if k' = k then some v else none) := by
  rw [setDefault]
  by_cases hk : k' = k
  · subst hk
    cases h : d.get k' with
    | some w => simp [h]
    | none => simp
  · cases h : d.get k with
    | some w => simp [hk]
    | none => simp [hk, get_set]

theorem NodupKeys.setDefault {d : Dict K V} (hd : d.NodupKeys) (k : K) (v : V) :
    (d.setDefault k v).NodupKeys := by
  rw [Dict.setDefault]
  split
  · exact hd
  · exact hd.set k v

end Dict
end AgentSwarm
