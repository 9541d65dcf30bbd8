import Mathlib.Data.Finset.Card
import Mathlib.Data.List.ReduceOption
import AgentSwarm.ContainerPool.Conservation
import AgentSwarm.Lib.Split

/-!
# One holder for each container

`startup` spawns a container for each index below the pool's size, and a container
that is recycled is replaced by one of the same index, which has the same name and the
same port.  Whoever calls `checkout` holds the container that it returns until giving
it back.

* `PooledContainer.name`, `port` — what an index stands for.
* `startup`, `Spawned` — the pool that `startup` leaves, for what Docker does.
* `Usage`, `Call`, `call` — the pool with its callers, and one call of one of them.
* `Exclusive` — what the callers may rely on.
* `Fleet` — the invariant of the pool: ids, names and ports are those of different
  indices.
* `HeldOnce` — also, a container that is held is busy, in the pool, and held once.
* `exclusive_throughout` — **the guarantee**, in every state of every run, and for dead containers
  from one state to all later ones.
* `step_follows` — the invokes of the dispatcher are such callers.

Docker gives every container that it starts an id of its own.
-/

namespace AgentSwarm
namespace ContainerPool

/-- `container_name`. -/
def PooledContainer.name (c : PooledContainer) : String := "swarm-worker-" ++ Nat.repr c.index

/-- `port`, of the host. -/
def PooledContainer.port (basePort : ℕ) (c : PooledContainer) : ℕ := basePort + c.index

/-- `int(name.split("-")[-1])`, when that is decimal. -/
def nameIndex (name : String) : Option ℕ :=
  let digits := Split.lastPiece ['-'] name.toList
  if digits.isEmpty || !digits.all Char.isDigit then none
  else some (Nat.ofDigitChars 10 digits 0)

/-- The loop of `startup` from the index `i` on.  `spawned` has the id of each
container, or `none` where it could not be spawned. -/
def startupFrom : ℕ → List (Option String) → Pool → Pool
  | _, [], pool => pool
  | i, some id :: spawned, pool =>
      startupFrom (i + 1) spawned (pool.set id { containerId := id, index := i })
  | i, none :: spawned, pool => startupFrom (i + 1) spawned pool

/-- `startup`: the length of `spawned` is the pool's size. -/
def startup (spawned : List (Option String)) : Pool := startupFrom 0 spawned []

/-- What comes of the containers that `startup` spawns. -/
structure Spawned where
  results : List (Option String)
  distinct : results.reduceOption.Nodup

/-- The pool, and what its callers hold. -/
structure Usage where
  pool : Pool
  /-- The ids that Docker has given. -/
  started : List String
  /-- What the caller has got from `checkout` and not given back. -/
  held : ℕ → Option PooledContainer

/-- A call of a caller.  `new` is the id that Docker gives the container in place of a
worn-out one, if it can be spawned. -/
inductive Call where
  | checkout (caller : ℕ) (req : Request) (alive : String → Bool)
  | giveBack (caller : ℕ) (new : Option String)

/-- One call.  A caller gives back only what it holds. -/
def call (maxUses : ℕ) (s : Usage) : Call → Option Usage
  | .checkout i req alive =>
      match s.held i, scan alive req s.pool with
      | none, (pool, some id) =>
          some { s with pool := pool, held := Function.update s.held i (pool.get id) }
      | none, (pool, none) => some { s with pool := pool }
      | some _, _ => none
  | .giveBack i new =>
      match s.held i with
      | some c =>
          if ∀ id ∈ new, id ∉ s.started then
            some { pool := returnContainer maxUses c.containerId new s.pool
                   started := s.started ++ new.toList
                   held := Function.update s.held i none }
          else none
      | none => none

/-- The pool after `startup`. -/
def opened (spawned : Spawned) : Usage where
  pool := startup spawned.results
  started := spawned.results.reduceOption
  held _ := none

/-- Callers hold different containers with different ports, each key leads to the
container with that id, names and ports differ, and the pool does not grow. -/
structure Exclusive (basePort poolSize : ℕ) (s : Usage) : Prop where
  apart : ∀ i j c d, i ≠ j → s.held i = some c → s.held j = some d →
    c.containerId ≠ d.containerId ∧ c.port basePort ≠ d.port basePort
  keyed : ∀ id c, s.pool.get id = some c → c.containerId = id
  named : ∀ id id' c d, id ≠ id' → s.pool.get id = some c → s.pool.get id' = some d →
    c.name ≠ d.name ∧ c.port basePort ≠ d.port basePort
  size : s.pool.length ≤ poolSize

/-- The container `id` is dead. -/
def Dead (s : Usage) (id : String) : Prop := ∃ c, s.pool.get id = some c ∧ c.state = .dead

/-! ## Names -/

variable {alive : String → Bool} {req : Request} {pool pool' : Pool} {maxUses : ℕ}

theorem name_toList (c : PooledContainer) :
    c.name.toList = "swarm-worker".toList ++ (['-'] ++ (Nat.repr c.index).toList) := by
  have hname : c.name = "swarm-worker-" ++ Nat.repr c.index := rfl
  simp [hname, String.toList_append]

/-- The index can be read off the name, as the recycling does. -/
theorem nameIndex_name (c : PooledContainer) : nameIndex c.name = some c.index := by
  have hdigit : ∀ x ∈ Nat.toDigits 10 c.index, x.isDigit := fun x hx =>
    Nat.isDigit_of_mem_toDigits (by decide) (by decide) hx
  have hdash : '-' ∉ (Nat.repr c.index).toList := by
    intro h
    rw [Nat.toList_repr] at h
    exact absurd (hdigit '-' h) (by decide)
  have hpiece : Split.lastPiece ['-'] c.name.toList = Nat.toDigits 10 c.index := by
    rw [name_toList, Split.lastPiece_append (by decide) (by decide), Split.lastPiece_of_not_infix]
    · exact Nat.toList_repr
    · exact fun hin => hdash (hin.subset List.mem_cons_self)
  have hempty : (Nat.toDigits 10 c.index).isEmpty = false :=
    List.isEmpty_eq_false_iff.mpr Nat.toDigits_ne_nil
  have hall : (Nat.toDigits 10 c.index).all Char.isDigit = true := List.all_eq_true.mpr hdigit
  simp [nameIndex, hpiece, hempty, hall, Nat.ofDigitChars_ten_toDigits]

theorem name_inj {c d : PooledContainer} (h : c.name = d.name) : c.index = d.index := by
  have hindex : nameIndex c.name = nameIndex d.name := congrArg nameIndex h
  rw [nameIndex_name, nameIndex_name] at hindex
  exact Option.some.inj hindex

/-! ## The invariant of the pool -/

/-- Each container has its key as its id, and an index below `n` of its own. -/
structure Fleet (n : ℕ) (pool : Pool) : Prop where
  nodup : pool.NodupKeys
  keyed : ∀ id c, pool.get id = some c → c.containerId = id
  below : ∀ id c, pool.get id = some c → c.index < n
  apart : ∀ id id' c d, pool.get id = some c → pool.get id' = some d → c.index = d.index → id = id'

variable {n : ℕ}

theorem fleet_nil : Fleet 0 [] where
  nodup := List.nodup_nil
  keyed _ _ hget := by simp at hget
  below _ _ hget := by simp at hget
  apart _ _ _ _ hget := by simp at hget

theorem Fleet.mono {m : ℕ} (h : Fleet n pool) (hle : n ≤ m) : Fleet m pool where
  nodup := h.nodup
  keyed := h.keyed
  below id c hget := lt_of_lt_of_le (h.below id c hget) hle
  apart := h.apart

/-- The containers are as before, up to their states. -/
theorem Fleet.of_same (h : Fleet n pool) (hnodup : pool'.NodupKeys)
    (hsame : ∀ id c', pool'.get id = some c' →
      ∃ c, pool.get id = some c ∧ c'.containerId = c.containerId ∧ c'.index = c.index) :
    Fleet n pool' where
  nodup := hnodup
  keyed id c' hget := by
    obtain ⟨c, hget, hid, -⟩ := hsame id c' hget
    exact hid.trans (h.keyed id c hget)
  below id c' hget := by
    obtain ⟨c, hget, -, hindex⟩ := hsame id c' hget
    exact hindex ▸ h.below id c hget
  apart id id' c' d' hc hd heq := by
    obtain ⟨c, hc, -, hcindex⟩ := hsame id c' hc
    obtain ⟨d, hd, -, hdindex⟩ := hsame id' d' hd
    exact h.apart id id' c d hc hd (by rw [← hcindex, ← hdindex, heq])

/-- A container is spawned for an index that is free. -/
theorem Fleet.set (h : Fleet n pool) {id : String} {index : ℕ} (hlt : index < n)
    (hfree : ∀ id' c, pool.get id' = some c → id' ≠ id → c.index ≠ index) :
    Fleet n (pool.set id { containerId := id, index := index }) where
  nodup := h.nodup.set _ _
  keyed id' c hget := by
    rw [Dict.get_set] at hget
    split at hget
    · rename_i hid
      cases hget
      exact hid.symm
    · exact h.keyed id' c hget
  below id' c hget := by
    rw [Dict.get_set] at hget
    split at hget
    · cases hget
      exact hlt
    · exact h.below id' c hget
  apart id' id'' c d hc hd heq := by
    rw [Dict.get_set] at hc hd
    split at hc
    · rename_i hid
      cases hc
      split at hd
      · rename_i hid'
        exact hid.trans hid'.symm
      · rename_i hid'
        exact absurd heq.symm (hfree id'' d hd hid')
    · rename_i hid
      split at hd
      · cases hd
        exact absurd heq (hfree id' c hc hid)
      · exact h.apart id' id'' c d hc hd heq

/-- There are at most as many containers as indices. -/
theorem Fleet.length_le (h : Fleet n pool) : pool.length ≤ n := by
  have hget : ∀ id ∈ pool.keys.toFinset, ∃ c, pool.get id = some c := fun id hid =>
    Option.isSome_iff_exists.1 (Dict.get_isSome_of_mem_keys (List.mem_toFinset.1 hid))
  have hcard : pool.keys.toFinset.card ≤ (Finset.range n).card := by
    refine Finset.card_le_card_of_injOn
      (fun id => ((pool.get id).map PooledContainer.index).getD 0) ?_ ?_
    · intro id hid
      obtain ⟨c, hc⟩ := hget id hid
      simpa [hc] using h.below id c hc
    · intro id hid id' hid' heq
      obtain ⟨c, hc⟩ := hget id hid
      obtain ⟨d, hd⟩ := hget id' hid'
      exact h.apart id id' c d hc hd (by simpa [hc, hd] using heq)
  rw [List.toFinset_card_of_nodup h.nodup, Finset.card_range] at hcard
  simpa [Dict.keys] using hcard

/-! ## What startup, the search and the return do to the containers -/

/-- The loop of `startup`, from a pool of the indices before. -/
theorem fleet_startupFrom {spawned : List (Option String)} {i : ℕ} (h : Fleet i pool)
    (hdistinct : spawned.reduceOption.Nodup) (hnew : ∀ id ∈ spawned.reduceOption, id ∉ pool.keys) :
    Fleet (i + spawned.length) (startupFrom i spawned pool) ∧
      ∀ id ∈ (startupFrom i spawned pool).keys, id ∈ pool.keys ∨ id ∈ spawned.reduceOption := by
  induction spawned generalizing i pool with
  | nil => exact ⟨h, fun id hid => Or.inl hid⟩
  | cons result spawned ih =>
      have hlength : i + (result :: spawned).length = i + 1 + spawned.length := by
        simp only [List.length_cons]
        omega
      rw [hlength]
      cases result with
      | none =>
          rw [List.reduceOption_cons_of_none] at hdistinct hnew ⊢
          exact ih (h.mono (Nat.le_succ i)) hdistinct hnew
      | some id =>
          rw [List.reduceOption_cons_of_some] at hdistinct hnew ⊢
          obtain ⟨hid, hdistinct⟩ := List.nodup_cons.1 hdistinct
          have hfresh : id ∉ pool.keys := hnew id List.mem_cons_self
          have hset : Fleet (i + 1) (pool.set id { containerId := id, index := i }) :=
            (h.mono (Nat.le_succ i)).set (Nat.lt_succ_self i)
              fun id' c hget _ => (h.below id' c hget).ne
          have hkeys := Dict.keys_set pool id { containerId := id, index := i }
          rw [if_neg hfresh] at hkeys
          obtain ⟨hfleet, hmem⟩ := ih hset hdistinct (fun id' hid' => by
            rw [hkeys, List.mem_append, List.mem_singleton]
            rintro (hold | rfl)
            · exact hnew id' (List.mem_cons_of_mem _ hid') hold
            · exact hid hid')
          refine ⟨hfleet, fun id' hid' => ?_⟩
          rcases hmem id' hid' with hold | hlater
          · rw [hkeys, List.mem_append, List.mem_singleton] at hold
            rcases hold with hold | rfl
            · exact Or.inl hold
            · exact Or.inr List.mem_cons_self
          · exact Or.inr (List.mem_cons_of_mem _ hlater)

/-- The search changes the states of containers only. -/
theorem scan_same (hpool : pool.NodupKeys) {id : String} {c' : PooledContainer}
    (hget : (scan alive req pool).1.get id = some c') :
    ∃ c, pool.get id = some c ∧ c'.containerId = c.containerId ∧ c'.index = c.index := by
  by_cases hchosen : (scan alive req pool).2 = some id
  · obtain ⟨c, hc, -, hscan⟩ := scan_chosen hpool hchosen
    rw [hscan] at hget
    cases hget
    exact ⟨c, hc, rfl, rfl⟩
  · rcases scan_other pool alive req id hchosen with hsame | ⟨c, hc, -, hdead⟩
    · exact ⟨c', hsame ▸ hget, rfl, rfl⟩
    · rw [hdead] at hget
      cases hget
      exact ⟨c, hc, rfl, rfl⟩

theorem fleet_scan (h : Fleet n pool) : Fleet n (scan alive req pool).1 :=
  h.of_same (h.nodup.of_keys_eq (scan_keys alive req pool)) fun _ _ => scan_same h.nodup

/-- The container as `return_container` leaves it. -/
def PooledContainer.freed (c : PooledContainer) : PooledContainer :=
  { c with state := .idle, assignedTaskId := none, assignedRole := none }

/-- A container that is given back is idle in its place, or replaced by a new one of its
index. -/
theorem returnContainer_cases {id : String} {c : PooledContainer} {new : Option String}
    (hget : pool.get id = some c) :
    returnContainer maxUses id new pool = pool.set id c.freed ∨
      ∃ id', new = some id' ∧ returnContainer maxUses id new pool =
        ((pool.set id c.freed).erase id).set id' { containerId := id', index := c.index } := by
  unfold returnContainer
  rw [hget]
  dsimp only
  split
  · cases new with
    | none => exact Or.inl rfl
    | some id' => exact Or.inr ⟨id', rfl, rfl⟩
  · exact Or.inl rfl

/-- What is left of the others. -/
theorem get_erased {id j : String} {c d : PooledContainer}
    (h : ((pool.set id c).erase id).get j = some d) : j ≠ id ∧ pool.get j = some d := by
  rw [Dict.get_erase] at h
  split at h
  · cases h
  · rename_i hj
    exact ⟨hj, by rwa [Dict.get_set_of_ne _ _ hj] at h⟩

theorem fleet_returnContainer (h : Fleet n pool) {id : String} {c : PooledContainer}
    {new : Option String} (hget : pool.get id = some c) :
    Fleet n (returnContainer maxUses id new pool) := by
  rcases returnContainer_cases hget with heq | ⟨id', -, heq⟩
  · rw [heq]
    refine h.of_same (h.nodup.set _ _) fun j d hd => ?_
    rw [Dict.get_set] at hd
    split at hd
    · rename_i hj
      cases hd
      exact ⟨c, hj ▸ hget, rfl, rfl⟩
    · exact ⟨d, hd, rfl, rfl⟩
  · rw [heq]
    refine (h.of_same ((h.nodup.set _ _).erase _)
      fun j d hd => ⟨d, (get_erased hd).2, rfl, rfl⟩).set (h.below id c hget) ?_
    intro j d hd _ hindex
    obtain ⟨hj, hd⟩ := get_erased hd
    exact hj (h.apart j id d c hd hget hindex)

/-- Another container is as it was. -/
theorem returnContainer_other {id j : String} {c : PooledContainer} {new : Option String}
    (hget : pool.get id = some c) (hj : j ≠ id) (hnew : ∀ id' ∈ new, j ≠ id') :
    (returnContainer maxUses id new pool).get j = pool.get j := by
  rcases returnContainer_cases hget with heq | ⟨id', hid', heq⟩
  · rw [heq, Dict.get_set_of_ne _ _ hj]
  · rw [heq, Dict.get_set_of_ne _ _ (hnew id' hid'), Dict.get_erase, if_neg hj,
      Dict.get_set_of_ne _ _ hj]

/-- No container comes in but the new one. -/
theorem mem_returnContainer {id j : String} {c d : PooledContainer} {new : Option String}
    (hget : pool.get id = some c) (hd : (returnContainer maxUses id new pool).get j = some d) :
    (∃ d', pool.get j = some d') ∨ j ∈ new := by
  rcases returnContainer_cases hget with heq | ⟨id', hid', heq⟩
  · rw [heq, Dict.get_set] at hd
    split at hd
    · rename_i hj
      exact Or.inl ⟨c, hj ▸ hget⟩
    · exact Or.inl ⟨d, hd⟩
  · rw [heq, Dict.get_set] at hd
    split at hd
    · rename_i hj
      exact Or.inr (hj ▸ hid')
    · exact Or.inl ⟨d, (get_erased hd).2⟩

/-! ## The invariant of the callers -/

/-- A container that is held is busy, in the pool, and held once. -/
structure HeldOnce (n : ℕ) (s : Usage) : Prop where
  fleet : Fleet n s.pool
  started : ∀ id c, s.pool.get id = some c → id ∈ s.started
  held : ∀ i c, s.held i = some c →
    ∃ c', s.pool.get c.containerId = some c' ∧ c'.state = .busy ∧ c'.index = c.index
  once : ∀ i j c d, s.held i = some c → s.held j = some d → c.containerId = d.containerId → i = j

variable {s t : Usage}

/-- What is held after a change of what caller `i` holds. -/
theorem held_update {held : ℕ → Option PooledContainer} {i j : ℕ} {v : Option PooledContainer}
    {d : PooledContainer} (h : Function.update held i v j = some d) :
    (j = i ∧ v = some d) ∨ (j ≠ i ∧ held j = some d) := by
  by_cases hj : j = i
  · subst hj
    rw [Function.update_self] at h
    exact Or.inl ⟨rfl, h⟩
  · rw [Function.update_of_ne hj] at h
    exact Or.inr ⟨hj, h⟩

/-- The search leaves a busy container alone. -/
theorem scan_busy (hpool : pool.NodupKeys) {id : String} {c : PooledContainer}
    (hget : pool.get id = some c) (hbusy : c.state = .busy) :
    (scan alive req pool).2 ≠ some id ∧ (scan alive req pool).1.get id = some c := by
  have hchosen : (scan alive req pool).2 ≠ some id := by
    intro hchosen
    obtain ⟨c', hget', hidle, -⟩ := scan_chosen hpool hchosen
    rw [hget] at hget'
    cases hget'
    rw [hbusy] at hidle
    cases hidle
  refine ⟨hchosen, ?_⟩
  rcases scan_other pool alive req id hchosen with hsame | ⟨c', hget', hidle, -⟩
  · rw [hsame, hget]
  · rw [hget] at hget'
    cases hget'
    rw [hbusy] at hidle
    cases hidle

/-- What the search leaves is what is left of the containers that are held. -/
theorem HeldOnce.scan (h : HeldOnce n s) (alive : String → Bool) (req : Request) :
    HeldOnce n { s with pool := (ContainerPool.scan alive req s.pool).1 } where
  fleet := fleet_scan h.fleet
  started id c' hget := by
    obtain ⟨c, hget, -⟩ := scan_same h.fleet.nodup hget
    exact h.started id c hget
  held i c hheld := by
    obtain ⟨c', hget, hbusy, hindex⟩ := h.held i c hheld
    exact ⟨c', (scan_busy h.fleet.nodup hget hbusy).2, hbusy, hindex⟩
  once := h.once

/-- A caller gets the container that was found. -/
theorem heldOnce_checkout (h : HeldOnce n s) {i : ℕ} {id : String}
    (hchosen : (scan alive req s.pool).2 = some id) :
    HeldOnce n { s with
      pool := (scan alive req s.pool).1
      held := Function.update s.held i ((scan alive req s.pool).1.get id) } := by
  obtain ⟨c, hget, -, hscan⟩ := scan_chosen h.fleet.nodup hchosen
  have hid : c.containerId = id := h.fleet.keyed id c hget
  have hrest := h.scan alive req
  have hother : ∀ j d, s.held j = some d → d.containerId ≠ id := by
    intro j d hheld heq
    obtain ⟨d', hget', hbusy, -⟩ := h.held j d hheld
    exact (scan_busy h.fleet.nodup hget' hbusy).1 (heq ▸ hchosen)
  rw [hscan]
  refine ⟨hrest.fleet, hrest.started, fun j d hj => ?_, fun j k d d' hj hk heq => ?_⟩
  · rcases held_update hj with ⟨rfl, hd⟩ | ⟨-, hj⟩
    · cases hd
      exact ⟨c.checkedOut req, hid ▸ hscan, rfl, rfl⟩
    · exact hrest.held j d hj
  · rcases held_update hj with ⟨hji, hd⟩ | ⟨-, hj'⟩
    · cases hd
      rcases held_update hk with ⟨hki, -⟩ | ⟨-, hk'⟩
      · exact hji.trans hki.symm
      · exact absurd (heq.symm.trans hid) (hother k d' hk')
    · rcases held_update hk with ⟨-, hd'⟩ | ⟨-, hk'⟩
      · cases hd'
        exact absurd (heq.trans hid) (hother j d hj')
      · exact h.once j k d d' hj' hk' heq

/-- A caller gives its container back. -/
theorem heldOnce_giveBack (h : HeldOnce n s) {i : ℕ} {c : PooledContainer} {new : Option String}
    (hheld : s.held i = some c) (hnew : ∀ id ∈ new, id ∉ s.started) :
    HeldOnce n {
      pool := returnContainer maxUses c.containerId new s.pool
      started := s.started ++ new.toList
      held := Function.update s.held i none } := by
  obtain ⟨c₀, hget, -, -⟩ := h.held i c hheld
  refine ⟨fleet_returnContainer h.fleet hget, fun id d hd => ?_, fun j d hj => ?_,
    fun j k d d' hj hk heq => ?_⟩
  · rw [List.mem_append]
    rcases mem_returnContainer hget hd with ⟨d', hd'⟩ | hmem
    · exact Or.inl (h.started id d' hd')
    · exact Or.inr (Option.mem_toList.2 hmem)
  · rcases held_update hj with ⟨-, hd⟩ | ⟨hji, hj⟩
    · cases hd
    · obtain ⟨d', hget', hbusy, hindex⟩ := h.held j d hj
      have hne : d.containerId ≠ c.containerId := fun heq => hji (h.once j i d c hj hheld heq)
      refine ⟨d', ?_, hbusy, hindex⟩
      dsimp only
      rw [returnContainer_other hget hne, hget']
      rintro id' hid' rfl
      exact hnew _ hid' (h.started _ d' hget')
  · rcases held_update hj with ⟨-, hd⟩ | ⟨-, hj⟩
    · cases hd
    · rcases held_update hk with ⟨-, hd'⟩ | ⟨-, hk⟩
      · cases hd'
      · exact h.once j k d d' hj hk heq

/-- What a call does. -/
inductive Called (maxUses : ℕ) (s : Usage) : Call → Usage → Prop
  | finds {i req alive id} (hfree : s.held i = none) (hchosen : (scan alive req s.pool).2 = some id) :
      Called maxUses s (.checkout i req alive) { s with
        pool := (scan alive req s.pool).1
        held := Function.update s.held i ((scan alive req s.pool).1.get id) }
  | findsNone {i req alive} (hfree : s.held i = none)
      (hchosen : (scan alive req s.pool).2 = none) :
      Called maxUses s (.checkout i req alive) { s with pool := (scan alive req s.pool).1 }
  | givesBack {i c new} (hheld : s.held i = some c) (hnew : ∀ id ∈ new, id ∉ s.started) :
      Called maxUses s (.giveBack i new) {
        pool := returnContainer maxUses c.containerId new s.pool
        started := s.started ++ new.toList
        held := Function.update s.held i none }

theorem call_cases {c : Call} (h : call maxUses s c = some t) : Called maxUses s c t := by
  cases c with
  | checkout i req alive =>
      simp only [call] at h
      split at h
      · rename_i hfree hscan
        cases h
        obtain ⟨rfl, hchosen⟩ := Prod.ext_iff.1 hscan
        exact .finds hfree hchosen
      · rename_i hfree hscan
        cases h
        obtain ⟨rfl, hchosen⟩ := Prod.ext_iff.1 hscan
        exact .findsNone hfree hchosen
      · cases h
  | giveBack i new =>
      simp only [call] at h
      split at h
      · split at h <;> cases h
        exact .givesBack ‹_› ‹_›
      · cases h

/-- **One call** keeps the invariant. -/
theorem heldOnce_call {c : Call} (h : HeldOnce n s) (hcall : call maxUses s c = some t) :
    HeldOnce n t := by
  cases call_cases hcall with
  | finds hfree hchosen => exact heldOnce_checkout h hchosen
  | findsNone hfree hchosen => exact h.scan _ _
  | givesBack hheld hnew => exact heldOnce_giveBack h hheld hnew

/-- A dead container is dead after any call. -/
theorem dead_call {c : Call} {id : String} (h : HeldOnce n s) (hdead : Dead s id)
    (hcall : call maxUses s c = some t) : Dead t id := by
  obtain ⟨d, hget, hstate⟩ := hdead
  have hscan : ∀ alive req, ∃ d', (scan alive req s.pool).1.get id = some d' ∧ d'.state = .dead := by
    intro alive req
    have hchosen : (scan alive req s.pool).2 ≠ some id := by
      intro hchosen
      obtain ⟨d', hget', hidle, -⟩ := scan_chosen h.fleet.nodup hchosen
      rw [hget] at hget'
      cases hget'
      rw [hstate] at hidle
      cases hidle
    rcases scan_other s.pool alive req id hchosen with hsame | ⟨d', -, -, hdead⟩
    · exact ⟨d, hsame.trans hget, hstate⟩
    · exact ⟨_, hdead, rfl⟩
  cases call_cases hcall with
  | finds hfree hchosen => exact hscan _ _
  | findsNone hfree hchosen => exact hscan _ _
  | @givesBack i c new hheld hnew =>
      obtain ⟨c', hget', hbusy, -⟩ := h.held i c hheld
      have hne : id ≠ c.containerId := by
        rintro rfl
        rw [hget] at hget'
        cases hget'
        rw [hstate] at hbusy
        cases hbusy
      refine ⟨d, ?_, hstate⟩
      dsimp only
      rw [returnContainer_other hget' hne, hget]
      rintro id' hid' rfl
      exact hnew _ hid' (h.started _ d hget)

/-! ## Whole runs -/

theorem heldOnce_opened (spawned : Spawned) :
    HeldOnce spawned.results.length (opened spawned) := by
  obtain ⟨hfleet, hkeys⟩ :=
    fleet_startupFrom (i := 0) fleet_nil spawned.distinct fun _ _ => List.not_mem_nil
  rw [Nat.zero_add] at hfleet
  refine ⟨hfleet, fun id c hget => ?_, fun i c hheld => ?_, fun i j c d _ hheld => ?_⟩
  · rcases hkeys id (Dict.mem_keys_of_get hget) with hmem | hmem
    · cases hmem
    · exact hmem
  · cases hheld
  · cases hheld

theorem HeldOnce.exclusive (h : HeldOnce n s) (basePort : ℕ) : Exclusive basePort n s where
  apart i j c d hij hi hj := by
    have hid : c.containerId ≠ d.containerId := fun heq => hij (h.once i j c d hi hj heq)
    obtain ⟨c', hc', -, hcindex⟩ := h.held i c hi
    obtain ⟨d', hd', -, hdindex⟩ := h.held j d hj
    refine ⟨hid, fun hport => hid (h.fleet.apart _ _ c' d' hc' hd' ?_)⟩
    rw [hcindex, hdindex]
    exact Nat.add_left_cancel hport
  keyed := h.fleet.keyed
  named id id' c d hne hc hd :=
    ⟨fun hname => hne (h.fleet.apart id id' c d hc hd (name_inj hname)),
      fun hport => hne (h.fleet.apart id id' c d hc hd (Nat.add_left_cancel hport))⟩
  size := h.fleet.length_le

/-- Nobody holds a dead container. -/
theorem HeldOnce.not_held_of_dead (h : HeldOnce n s) {id : String} (hdead : Dead s id) {i : ℕ}
    {c : PooledContainer} (hheld : s.held i = some c) : c.containerId ≠ id := by
  rintro rfl
  obtain ⟨c', hget', hbusy, -⟩ := h.held i c hheld
  obtain ⟨d, hget, hstate⟩ := hdead
  rw [hget] at hget'
  cases hget'
  rw [hstate] at hbusy
  cases hbusy

/-- **Exclusive containers**, whatever the callers do, and a container that is dead in
one state of a run is held in none that follows. -/
theorem exclusive_throughout (maxUses basePort : ℕ) (spawned : Spawned) (calls : List Call) :
    Run.Throughout (call maxUses) (Exclusive basePort spawned.results.length) (opened spawned)
        calls ∧
      ∀ before between after s t, calls = before ++ between ++ after →
        Run.exec (call maxUses) (opened spawned) before = some s →
        Run.exec (call maxUses) s between = some t →
        ∀ id, Dead s id → ∀ i c, t.held i = some c → c.containerId ≠ id := by
  have hinv (as : List Call) : Run.Throughout (call maxUses) (HeldOnce spawned.results.length)
      (opened spawned) as :=
    Run.throughout_of_preserved (fun _ _ _ => heldOnce_call) (heldOnce_opened spawned) as
  refine ⟨(hinv calls).mono fun s h => h.exclusive basePort, ?_⟩
  rintro before between after s t rfl hs ht id hdead i c hheld
  have hstays : Run.Steadily (call maxUses) (fun s t => ∀ id, Dead s id → Dead t id)
      (opened spawned) (before ++ between ++ after) :=
    Run.steadily_of_preserved (fun _ _ _ => heldOnce_call)
      (fun _ _ _ h hcall _ hdead => dead_call h hdead hcall) (heldOnce_opened spawned) _
  have hdead' : Dead t id := Run.rel_of_steadily (R := fun s t => ∀ id, Dead s id → Dead t id)
    (fun _ _ h => h) (fun _ _ _ hst htu id h => htu id (hst id h)) hstays hs ht id hdead
  have hlast : Run.exec (call maxUses) (opened spawned) (before ++ between) = some t := by
    rw [Run.exec_append, hs]
    exact ht
  exact ((hinv (before ++ between)).last hlast).not_held_of_dead hdead' hheld

/-! ## The invokes of the dispatcher -/

/-- The invokes are callers: each holds what it has got from `checkout`, or has lost
it. -/
structure Follows (s : Sys) (u : Usage) : Prop where
  pool : u.pool = s.pool
  held : ∀ i id, (s.pc i).holds = some id → ∃ c, u.held i = some c ∧ c.containerId = id
  fresh : ∀ i, s.pc i = .start → u.held i = none

/-- An invoke that has taken a step has begun. -/
theorem start_of_step {prog : ℕ → Request} {s t : Sys} {i j : ℕ} {e : Event}
    (h : step maxUses prog s ⟨i, e⟩ = some t) (hj : t.pc j = .start) : j ≠ i ∧ s.pc j = .start := by
  have hgoto {s' : Sys} {p : Pc} (hj : (s'.goto i p).pc j = .start) (hp : p ≠ .start)
      (hpc : s'.pc = s.pc) : j ≠ i ∧ s.pc j = .start := by
    by_cases hji : j = i
    · subst hji
      exact absurd (by simpa [Sys.goto] using hj) hp
    · exact ⟨hji, by simpa [Sys.goto, hji, hpc] using hj⟩
  rw [step] at h
  dsimp only at h
  split at h
  case h_1 => split at h <;> cases h <;> exact hgoto hj (by simp) rfl
  case h_8 => split at h <;> cases h <;> exact hgoto hj (by simp) rfl
  case h_19 =>
    split at h <;> cases h
    exact hgoto hj (by simp) rfl
  case h_21 => cases h
  all_goals
    cases h
    exact hgoto hj (by simp) rfl

/-- **A step of an invoke** is a call of `checkout` or of `return_container`, or
neither. -/
theorem step_follows {prog : ℕ → Request} {s t : Sys} {u : Usage} {a : Action}
    (h : Follows s u) (hu : HeldOnce n u)
    (hnew : ∀ new, a.event = .returned new → ∀ id ∈ new, id ∉ u.started)
    (hstep : step maxUses prog s a = some t) :
    ∃ u', (u' = u ∨ ∃ c, call maxUses u c = some u') ∧ Follows t u' := by
  obtain ⟨i, e⟩ := a
  have hstart : ∀ j, t.pc j = .start → j ≠ i ∧ s.pc j = .start := fun j => start_of_step hstep
  have hpool := h.pool
  cases step_cases hstep with
  | @select alive pool id hpc hscan =>
      obtain ⟨rfl, hchosen⟩ := Prod.ext_iff.1 hscan
      rw [← hpool] at hchosen
      obtain ⟨c, hget, -, hfound⟩ := scan_chosen hu.fleet.nodup hchosen
      have hid : c.containerId = id := hu.fleet.keyed id c hget
      refine ⟨{ u with
          pool := (scan alive (prog i) u.pool).1
          held := Function.update u.held i ((scan alive (prog i) u.pool).1.get id) },
        Or.inr ⟨.checkout i (prog i) alive, ?_⟩, ?_, fun j id' hj => ?_, fun j hj => ?_⟩
      · have hscan' : scan alive (prog i) u.pool = ((scan alive (prog i) u.pool).1, some id) :=
          Prod.ext rfl hchosen
        simp only [call, h.fresh i hpc]
        rw [hscan']
      · rw [hpool]
        rfl
      · by_cases hji : j = i
        · subst hji
          have hid' : id = id' := by simpa [Sys.goto, Pc.holds] using hj
          exact ⟨c.checkedOut (prog j), by simp [hfound], hid.trans hid'⟩
        · obtain ⟨d, hd, hdid⟩ := h.held j id' (by simpa [Sys.goto, hji] using hj)
          exact ⟨d, by simpa [hji] using hd, hdid⟩
      · obtain ⟨hji, hj⟩ := hstart j hj
        simpa [hji] using h.fresh j hj
  | @selectNone alive pool hpc hscan =>
      obtain ⟨rfl, hchosen⟩ := Prod.ext_iff.1 hscan
      rw [← hpool] at hchosen
      refine ⟨{ u with pool := (scan alive (prog i) u.pool).1 },
        Or.inr ⟨.checkout i (prog i) alive, ?_⟩, ?_, fun j id' hj => ?_,
        fun j hj => h.fresh j (hstart j hj).2⟩
      · have hscan' : scan alive (prog i) u.pool = ((scan alive (prog i) u.pool).1, none) :=
          Prod.ext rfl hchosen
        simp only [call, h.fresh i hpc]
        rw [hscan']
      · rw [hpool]
        rfl
      · by_cases hji : j = i
        · subst hji
          simp [Sys.goto, Pc.holds] at hj
        · exact h.held j id' (by simpa [Sys.goto, hji] using hj)
  | @go e p hholds hguard =>
      refine ⟨u, Or.inl rfl, hpool, fun j id hj => ?_, fun j hj => h.fresh j (hstart j hj).2⟩
      by_cases hji : j = i
      · subst hji
        exact h.held j id (by rw [← hholds]; simpa [Sys.goto] using hj)
      · exact h.held j id (by simpa [Sys.goto, hji] using hj)
  | @giveBack id new hpc hfresh =>
      obtain ⟨c, hc, rfl⟩ := h.held i id (by rw [hpc]; rfl)
      refine ⟨{ pool := returnContainer maxUses c.containerId new u.pool
                started := u.started ++ new.toList
                held := Function.update u.held i none },
        Or.inr ⟨.giveBack i new, ?_⟩, ?_, fun j id' hj => ?_, fun j hj => ?_⟩
      · simp only [call, hc, if_pos (hnew new rfl)]
      · rw [hpool]
        rfl
      · by_cases hji : j = i
        · subst hji
          simp [Sys.goto, Pc.holds] at hj
        · obtain ⟨d, hd, hdid⟩ := h.held j id' (by simpa [Sys.goto, hji] using hj)
          exact ⟨d, by simpa [hji] using hd, hdid⟩
      · obtain ⟨hji, hj⟩ := hstart j hj
        simpa [hji] using h.fresh j hj
  | drop hpc hguard he =>
      refine ⟨u, Or.inl rfl, hpool, fun j id hj => ?_, fun j hj => h.fresh j (hstart j hj).2⟩
      by_cases hji : j = i
      · subst hji
        simp [Sys.goto, Pc.holds] at hj
      · exact h.held j id (by simpa [Sys.goto, hji] using hj)

end ContainerPool
end AgentSwarm
