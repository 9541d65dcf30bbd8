import AgentSwarm.Lib.Recency
import AgentSwarm.Lib.Run
import AgentSwarm.Dispatcher.ResultCache

/-!
# The result cache as a bounded map with expiry

What `get` finds should be a function of the successful results put so far: the last
one under the key, if it is no older than `ttl` and fewer than `maxSize` other keys
have been put since.

* `Usage`, `step` — a cache in use: one `put` or `get` after another, each later than
  the one before.
* `reference` — the map the cache stands for, over the log of the successful puts.
* `BoundedTtlMap` — every later `get` is answered as the map answers it, failures are
  never returned, and the size is bounded.
* `throughout_boundedTtlMap_iff` — **the law**: it holds in every state of a run exactly
  when no `put` of a key that is stored evicts the entry of another (`Spares`).  A full
  cache makes room for a new key and, needlessly, for one that it overwrites:
  `overwriting_put_evicts`.
-/

namespace AgentSwarm
namespace Dispatcher
namespace CacheLaw

/-! ## A cache in use -/

/-- A call of the cache, by the key it computes. -/
inductive Call where
  | put (key : String) (result : DispatchResult)
  | get (key : String)

/-- A call and the time since the call before it. -/
structure Timed where
  call : Call
  delay : ℚ
  delay_pos : 0 < delay

/-- A cache, the successful puts so far, the newest first, and the time of the last
call. -/
structure Usage where
  cache : ResultCache
  successes : Dict String (DispatchResult × ℚ)
  clock : ℚ

/-- `ResultCache(ttl, max_size)`, not yet used. -/
def start (ttl : ℚ) (maxSize : ℕ) (h : 0 < maxSize) (clock : ℚ) : Usage where
  cache := { ttl := ttl, maxSize := maxSize, store := [], maxSize_pos := h }
  successes := []
  clock := clock

/-- One call. -/
def step (s : Usage) (a : Timed) : Option Usage :=
  let now := s.clock + a.delay
  match a.call with
  | .put key result =>
      some { cache := s.cache.put key result now,
             successes :=
               if result.success then (key, result, now) :: s.successes else s.successes,
             clock := now }
  | .get key => some { s with cache := (s.cache.get key now).2, clock := now }

/-! ## The law -/

/-- The last successful put of a key, while it is at most `ttl` old and fewer than
`maxSize` other keys have been put since. -/
def reference (ttl : ℚ) (maxSize : ℕ) (successes : Dict String (DispatchResult × ℚ)) (key : String)
    (now : ℚ) : Option DispatchResult :=
  match successes.get key with
  | none => none
  | some (result, time) =>
      if now - time ≤ ttl ∧ (Recency.since successes key).card < maxSize then some result
      else none

/-- A `get` of any key at any later time is answered as the map answers it. -/
structure BoundedTtlMap (ttl : ℚ) (maxSize : ℕ) (s : Usage) : Prop where
  get_eq : ∀ key now, s.clock < now →
    (s.cache.get key now).1 = reference ttl maxSize s.successes key now
  success : ∀ key now result, (s.cache.get key now).1 = some result → result.success = true
  bounded : s.cache.store.length ≤ maxSize

/-- A successful put of a stored key into a full cache finds the entry nearest to its
expiry to be its own, or expired. -/
def Spares (s : Usage) (a : Timed) : Prop :=
  ∀ key result, a.call = .put key result → result.success = true → key ∈ s.cache.store.keys →
    s.cache.maxSize ≤ s.cache.store.length →
      ∀ oldest entry, ResultCache.oldestKey s.cache.store = some oldest →
        s.cache.store.get oldest = some entry → oldest = key ∨ entry.2 ≤ s.clock + a.delay

/-! ## The operations -/

/-- `min` of a store with entries finds one with the least expiry. -/
theorem oldestKey_spec {store : Dict String (DispatchResult × ℚ)} (hnodup : store.NodupKeys)
    (hne : store ≠ []) :
    ∃ oldest entry, ResultCache.oldestKey store = some oldest ∧ store.get oldest = some entry ∧
      ∀ key entry', store.get key = some entry' → entry.2 ≤ entry'.2 := by
  induction store with
  | nil => exact absurd rfl hne
  | cons p store ih =>
      obtain ⟨k, r, e⟩ := p
      obtain ⟨hk, hnodup⟩ := List.nodup_cons.1 hnodup
      by_cases hstore : store = []
      · subst hstore
        refine ⟨k, (r, e), rfl, by simp [Dict.get_cons], ?_⟩
        intro key entry' hget
        rw [Dict.get_cons] at hget
        split at hget
        · cases hget
          exact le_rfl
        · cases hget
      · obtain ⟨k', entry, holdest, hget, hleast⟩ := ih hnodup hstore
        obtain ⟨r', e'⟩ := entry
        have hne : k' ≠ k := by
          rintro rfl
          exact hk (Dict.mem_keys_of_get hget)
        by_cases hle : e ≤ e'
        · refine ⟨k, (r, e), by simp [ResultCache.oldestKey, holdest, hget, hle],
            by simp [Dict.get_cons], ?_⟩
          intro key entry' hentry
          rw [Dict.get_cons] at hentry
          split at hentry
          · cases hentry
            exact le_rfl
          · exact hle.trans (hleast key entry' hentry)
        · refine ⟨k', (r', e'), by simp [ResultCache.oldestKey, holdest, hget, hle],
            by rw [Dict.get_cons, if_neg hne, hget], ?_⟩
          intro key entry' hentry
          rw [Dict.get_cons] at hentry
          split at hentry
          · cases hentry
            exact (not_le.1 hle).le
          · exact hleast key entry' hentry

/-- What a full cache loses to a put. -/
def evicted (cache : ResultCache) : Option String :=
  if cache.maxSize ≤ cache.store.length then ResultCache.oldestKey cache.store else none

theorem evicted_eq_some {cache : ResultCache} (hnodup : cache.store.NodupKeys) {oldest : String}
    (h : evicted cache = some oldest) :
    cache.maxSize ≤ cache.store.length ∧ ResultCache.oldestKey cache.store = some oldest ∧
      ∃ entry, cache.store.get oldest = some entry ∧
        ∀ k entry', cache.store.get k = some entry' → entry.2 ≤ entry'.2 := by
  unfold evicted at h
  split at h
  · rename_i hfull
    refine ⟨hfull, h, ?_⟩
    have hne : cache.store ≠ [] := by
      intro hnil
      rw [hnil] at h
      cases h
    obtain ⟨oldest', entry, holdest, hget, hleast⟩ := oldestKey_spec hnodup hne
    rw [h] at holdest
    cases holdest
    exact ⟨entry, hget, hleast⟩
  · cases h

/-- `put` of a success: a full cache loses the entry nearest to its expiry, and the new
entry is stored. -/
theorem put_cases (cache : ResultCache) (hnodup : cache.store.NodupKeys) (key : String)
    {result : DispatchResult} (hsuccess : result.success = true) (now : ℚ) :
    (cache.store.length < cache.maxSize ∧ evicted cache = none ∧
        cache.put key result now =
          { cache with store := cache.store.set key (result, now + cache.ttl) }) ∨
      ∃ oldest, evicted cache = some oldest ∧
        cache.put key result now =
          { cache with store := (cache.store.erase oldest).set key (result, now + cache.ttl) } := by
  by_cases hfull : cache.maxSize ≤ cache.store.length
  · have hne : cache.store ≠ [] := by
      intro hnil
      have hpos := cache.maxSize_pos
      rw [hnil] at hfull
      exact absurd hpos (by simpa using hfull)
    obtain ⟨oldest, entry, holdest, -, -⟩ := oldestKey_spec hnodup hne
    exact .inr ⟨oldest, by rw [evicted, if_pos hfull, holdest],
      by simp [ResultCache.put, hsuccess, hfull, holdest]⟩
  · exact .inl ⟨not_le.1 hfull, if_neg hfull, by simp [ResultCache.put, hsuccess, hfull]⟩

theorem put_failure (cache : ResultCache) (key : String) {result : DispatchResult}
    (hfailure : result.success ≠ true) (now : ℚ) : cache.put key result now = cache := by
  simp [ResultCache.put, hfailure]

/-- `get`: an expired entry leaves the store, and nothing else changes. -/
theorem get_cases (cache : ResultCache) (key : String) (now : ℚ) :
    (cache.get key now).2 = cache ∨
      ∃ entry, cache.store.get key = some entry ∧ entry.2 < now ∧
        (cache.get key now).2 = { cache with store := cache.store.erase key } := by
  unfold ResultCache.get
  split
  · exact .inl rfl
  · rename_i result expiresAt hget
    split
    · rename_i hlt
      exact .inr ⟨(result, expiresAt), hget, hlt, rfl⟩
    · exact .inl rfl

/-! ## What every call keeps -/

/-- Each entry of the cache is the last successful put of its key. -/
structure Base (ttl : ℚ) (maxSize : ℕ) (s : Usage) : Prop where
  ttl_eq : s.cache.ttl = ttl
  maxSize_eq : s.cache.maxSize = maxSize
  nodup : s.cache.store.NodupKeys
  bounded : s.cache.store.length ≤ maxSize
  dated : Recency.Dated s.clock s.successes
  success : ∀ p ∈ s.successes, p.2.1.success = true
  entry : ∀ key result expiresAt, s.cache.store.get key = some (result, expiresAt) →
    ∃ time, s.successes.get key = some (result, time) ∧ expiresAt = time + ttl

variable {ttl : ℚ} {maxSize : ℕ} {s t : Usage} {a : Timed}

theorem base_start (h : 0 < maxSize) (clock : ℚ) :
    Base ttl maxSize (start ttl maxSize h clock) where
  ttl_eq := rfl
  maxSize_eq := rfl
  nodup := List.nodup_nil
  bounded := h.le
  dated := Recency.Dated.nil clock
  success := by simp [start]
  entry := by simp [start]

/-- What a successful put leaves of the store, seen from its keys. -/
theorem get_put {cache : ResultCache} (hnodup : cache.store.NodupKeys) {key : String}
    {result : DispatchResult} (hsuccess : result.success = true) {now : ℚ} {k : String}
    {entry : DispatchResult × ℚ} (h : (cache.put key result now).store.get k = some entry) :
    k = key ∧ entry = (result, now + cache.ttl) ∨ k ≠ key ∧ cache.store.get k = some entry := by
  obtain ⟨-, -, hput⟩ | ⟨oldest, -, hput⟩ := put_cases cache hnodup key hsuccess now <;>
    rw [hput] at h <;> dsimp only at h <;> rw [Dict.get_set] at h <;> split at h
  · cases h
    exact .inl ⟨‹_›, rfl⟩
  · exact .inr ⟨‹_›, h⟩
  · cases h
    exact .inl ⟨‹_›, rfl⟩
  · rw [Dict.get_erase] at h
    split at h
    · cases h
    · exact .inr ⟨‹_›, h⟩

theorem nodup_put {cache : ResultCache} (hnodup : cache.store.NodupKeys) (key : String)
    {result : DispatchResult} (hsuccess : result.success = true) (now : ℚ) :
    (cache.put key result now).store.NodupKeys := by
  obtain ⟨-, -, hput⟩ | ⟨oldest, -, hput⟩ := put_cases cache hnodup key hsuccess now <;>
    rw [hput]
  · exact hnodup.set _ _
  · exact (hnodup.erase _).set _ _

/-- The size after a put is within the limit again. -/
theorem length_put_le {cache : ResultCache} (hnodup : cache.store.NodupKeys)
    (hle : cache.store.length ≤ cache.maxSize) (key : String) {result : DispatchResult}
    (hsuccess : result.success = true) (now : ℚ) :
    (cache.put key result now).store.length ≤ cache.maxSize := by
  obtain ⟨hroom, -, hput⟩ | ⟨oldest, hevicted, hput⟩ :=
      put_cases cache hnodup key hsuccess now <;>
    rw [hput] <;> dsimp only <;> rw [Dict.length_set]
  · split <;> omega
  · obtain ⟨-, -, entry, hget, -⟩ := evicted_eq_some hnodup hevicted
    have hlost := Dict.length_erase_of_mem hnodup (Dict.mem_keys_of_get hget)
    split <;> omega

/-! ## What one call does -/

/-- A successful put, or a call that only lets time pass, but for an expired entry. -/
theorem step_cases (h : step s a = some t) :
    (∃ key result, a.call = .put key result ∧ result.success = true ∧
        t = ⟨s.cache.put key result (s.clock + a.delay),
          (key, result, s.clock + a.delay) :: s.successes, s.clock + a.delay⟩) ∨
      (∀ key result, a.call = .put key result → result.success ≠ true) ∧
        (t = { s with clock := s.clock + a.delay } ∨
          ∃ key entry, s.cache.store.get key = some entry ∧ entry.2 < s.clock + a.delay ∧
            t = ⟨{ s.cache with store := s.cache.store.erase key }, s.successes,
              s.clock + a.delay⟩) := by
  unfold step at h
  cases hcall : a.call with
  | put key result =>
      simp only [hcall, Option.some.injEq] at h
      by_cases hsuccess : result.success = true
      · simp only [hsuccess, if_true] at h
        exact .inl ⟨key, result, rfl, hsuccess, h.symm⟩
      · have hsame : s.cache.put key result (s.clock + a.delay) = s.cache :=
          put_failure s.cache key hsuccess _
        simp only [hsame, if_neg hsuccess] at h
        refine .inr ⟨?_, .inl h.symm⟩
        intro key' result' heq
        cases heq
        exact hsuccess
  | get key =>
      simp only [hcall, Option.some.injEq] at h
      refine .inr ⟨by simp, ?_⟩
      obtain hsame | ⟨entry, hget, hexpired, hlost⟩ :=
        get_cases s.cache key (s.clock + a.delay)
      · rw [hsame] at h
        exact .inl h.symm
      · rw [hlost] at h
        exact .inr ⟨key, entry, hget, hexpired, h.symm⟩

theorem base_put (hbase : Base ttl maxSize s) {now : ℚ} (hlt : s.clock < now) (key : String)
    {result : DispatchResult} (hsuccess : result.success = true) :
    Base ttl maxSize ⟨s.cache.put key result now, (key, result, now) :: s.successes, now⟩ := by
  have httl := hbase.ttl_eq
  have hmax := hbase.maxSize_eq
  have hsame : (s.cache.put key result now).ttl = s.cache.ttl ∧
      (s.cache.put key result now).maxSize = s.cache.maxSize := by
    simp [ResultCache.put, hsuccess]
  refine ⟨hsame.1.trans httl, hsame.2.trans hmax, nodup_put hbase.nodup key hsuccess now, ?_,
    hbase.dated.cons hlt key result, ?_, ?_⟩
  · rw [← hmax]
    exact length_put_le hbase.nodup (hmax ▸ hbase.bounded) key hsuccess now
  · intro p hp
    rcases List.mem_cons.1 hp with rfl | hp
    · exact hsuccess
    · exact hbase.success p hp
  · intro k r e hget
    obtain ⟨rfl, hentry⟩ | ⟨hk, hget⟩ := get_put hbase.nodup hsuccess hget
    · cases hentry
      exact ⟨now, by rw [Dict.get_cons, if_pos rfl], by rw [httl]⟩
    · obtain ⟨time, htime, he⟩ := hbase.entry k r e hget
      exact ⟨time, by rw [Dict.get_cons, if_neg hk, htime], he⟩

theorem base_wait (hbase : Base ttl maxSize s) {now : ℚ} (hlt : s.clock < now) :
    Base ttl maxSize { s with clock := now } :=
  { hbase with dated := hbase.dated.mono hlt.le }

theorem base_erase (hbase : Base ttl maxSize s) (key : String) :
    Base ttl maxSize { s with cache := { s.cache with store := s.cache.store.erase key } } where
  ttl_eq := hbase.ttl_eq
  maxSize_eq := hbase.maxSize_eq
  nodup := hbase.nodup.erase key
  bounded := (List.length_filter_le _ s.cache.store).trans hbase.bounded
  dated := hbase.dated
  success := hbase.success
  entry := by
    intro k r e hget
    rw [Dict.get_erase] at hget
    split at hget
    · cases hget
    · exact hbase.entry k r e hget

theorem base_step (hbase : Base ttl maxSize s) (h : step s a = some t) : Base ttl maxSize t := by
  have hlt : s.clock < s.clock + a.delay := lt_add_of_pos_right _ a.delay_pos
  obtain ⟨key, result, -, hsuccess, rfl⟩ | ⟨-, rfl | ⟨key, entry, -, -, rfl⟩⟩ := step_cases h
  · exact base_put hbase hlt key hsuccess
  · exact base_wait hbase hlt
  · exact base_wait (base_erase hbase key) hlt

/-! ## Which keys are kept -/

/-- Under a key whose last successful put has not expired there is an entry exactly when
fewer than `maxSize` other keys have been put since. -/
def Kept (ttl : ℚ) (maxSize : ℕ) (s : Usage) : Prop :=
  ∀ key result time, s.successes.get key = some (result, time) → s.clock < time + ttl →
    (key ∈ s.cache.store.keys ↔ (Recency.since s.successes key).card < maxSize)

/-- What `get` finds under a key of the log. -/
theorem get_of_log (hbase : Base ttl maxSize s) {key : String} {result : DispatchResult} {time : ℚ}
    (hlog : s.successes.get key = some (result, time)) (now : ℚ) :
    (s.cache.get key now).1 =
      if key ∈ s.cache.store.keys ∧ now - time ≤ ttl then some result else none := by
  unfold ResultCache.get
  cases hget : s.cache.store.get key with
  | none =>
      have hnot : key ∉ s.cache.store.keys := by simp [Dict.mem_keys_iff, hget]
      simp [hnot]
  | some entry =>
      obtain ⟨r, e⟩ := entry
      have hmem : key ∈ s.cache.store.keys := Dict.mem_keys_of_get hget
      obtain ⟨time', htime, rfl⟩ := hbase.entry key r e hget
      rw [hlog] at htime
      cases htime
      by_cases hlate : time + ttl < now
      · have hage : ¬ now - time ≤ ttl := by
          rw [not_le, lt_sub_iff_add_lt, add_comm]
          exact hlate
        simp [hlate, hage]
      · have hage : now - time ≤ ttl := by
          rw [sub_le_iff_le_add, add_comm]
          exact not_lt.1 hlate
        simp [hlate, hmem, hage]

/-- The answers are those of the map exactly when the right keys are kept. -/
theorem boundedTtlMap_iff (hbase : Base ttl maxSize s) :
    BoundedTtlMap ttl maxSize s ↔ Kept ttl maxSize s := by
  constructor
  · intro h key result time hlog hfresh
    have heq := h.get_eq key (time + ttl) hfresh
    rw [get_of_log hbase hlog, reference, hlog] at heq
    simp only [add_sub_cancel_left, le_refl, and_true, true_and] at heq
    by_cases hkey : key ∈ s.cache.store.keys <;>
      by_cases hcard : (Recency.since s.successes key).card < maxSize <;>
      simp [hkey, hcard] at heq ⊢
  · intro h
    refine ⟨?_, ?_, hbase.bounded⟩
    · intro key now hlt
      cases hlog : s.successes.get key with
      | none =>
          have hnone : s.cache.store.get key = none := by
            by_contra hne
            obtain ⟨⟨r, e⟩, hget⟩ := Option.ne_none_iff_exists'.1 hne
            obtain ⟨time, htime, -⟩ := hbase.entry key r e hget
            rw [hlog] at htime
            cases htime
          simp [reference, hlog, ResultCache.get, hnone]
      | some entry =>
          obtain ⟨result, time⟩ := entry
          rw [get_of_log hbase hlog, reference, hlog]
          by_cases hage : now - time ≤ ttl
          · have hfresh : s.clock < time + ttl := by
              have hle : now ≤ time + ttl := by
                rw [sub_le_iff_le_add, add_comm] at hage
                exact hage
              exact hlt.trans_le hle
            simp [hage, h key result time hlog hfresh]
          · simp [hage]
    · intro key now result hget
      unfold ResultCache.get at hget
      split at hget
      · cases hget
      · rename_i r e hentry
        split at hget
        · cases hget
        · cases hget
          obtain ⟨time, htime, -⟩ := hbase.entry key _ e hentry
          exact hbase.success _ (Dict.mem_of_get htime)

/-- What is stored and has not expired was put later than what is nearest to its expiry. -/
theorem stored_subset_since (hbase : Base ttl maxSize s) {oldest : String}
    {result : DispatchResult} {time : ℚ} (hlog : s.successes.get oldest = some (result, time))
    (hleast : ∀ k entry', s.cache.store.get k = some entry' → time + ttl ≤ entry'.2) :
    s.cache.store.keys.toFinset.erase oldest ⊆ Recency.since s.successes oldest := by
  intro k hk
  obtain ⟨hne, hk⟩ := Finset.mem_erase.1 hk
  obtain ⟨⟨r, e⟩, hget⟩ := Dict.mem_keys_iff.1 (List.mem_toFinset.1 hk)
  obtain ⟨time', hlog', rfl⟩ := hbase.entry k r e hget
  have hle : time ≤ time' := le_of_add_le_add_right (hleast k _ hget)
  exact (Recency.mem_since hbase.dated hlog k).2
    ⟨r, time', hlog', hle.lt_of_ne (hbase.dated.ne_of_ne hlog hlog' (Ne.symm hne))⟩

/-- What was put since is stored, if fewer than `maxSize` keys were. -/
theorem since_subset_stored (hbase : Base ttl maxSize s) (hkept : Kept ttl maxSize s)
    {key : String} {result : DispatchResult} {time : ℚ}
    (hlog : s.successes.get key = some (result, time)) (hfresh : s.clock < time + ttl)
    (hcard : (Recency.since s.successes key).card < maxSize) :
    Recency.since s.successes key ⊆ s.cache.store.keys.toFinset := by
  intro k hk
  obtain ⟨r, time', hlog', hlt⟩ := (Recency.mem_since hbase.dated hlog k).1 hk
  have hfresh' : s.clock < time' + ttl := hfresh.trans (add_lt_add_left hlt ttl)
  have hle : (Recency.since s.successes k).card ≤ (Recency.since s.successes key).card :=
    Finset.card_le_card (Recency.since_subset hbase.dated hlog hlog' hlt)
  exact List.mem_toFinset.2 ((hkept k r time' hlog' hfresh').2 (hle.trans_lt hcard))

theorem card_stored (hbase : Base ttl maxSize s) :
    s.cache.store.keys.toFinset.card = s.cache.store.length := by
  rw [List.toFinset_card_of_nodup hbase.nodup, Dict.length_keys]

/-! ## The step lemma -/

theorem mem_keys_put {cache : ResultCache} (hnodup : cache.store.NodupKeys) (key : String)
    {result : DispatchResult} (hsuccess : result.success = true) (now : ℚ) (k : String) :
    k ∈ (cache.put key result now).store.keys ↔
      k = key ∨ k ∈ cache.store.keys ∧ evicted cache ≠ some k := by
  obtain ⟨-, hnone, hput⟩ | ⟨oldest, hevicted, hput⟩ :=
    put_cases cache hnodup key hsuccess now
  · rw [hput]
    simp [hnone, Dict.mem_keys_set]
  · rw [hput]
    simp [hevicted, Dict.mem_keys_set, Dict.mem_keys_erase, and_comm, eq_comm]

section Put

variable (hbase : Base ttl maxSize s) (hkept : Kept ttl maxSize s) {now : ℚ}
  (hlt : s.clock < now) {key : String} {result : DispatchResult}
  (hsuccess : result.success = true)

include hbase hkept hlt hsuccess

/-- An entry that a put leaves has had fewer than `maxSize` others put since. -/
theorem card_since_of_left {k : String} {r : DispatchResult} {time : ℚ}
    (hlog : s.successes.get k = some (r, time)) (hfresh : now < time + ttl) (hne : k ≠ key)
    (hk : k ∈ s.cache.store.keys) (hleft : evicted s.cache ≠ some k) :
    (insert key (Recency.since s.successes k)).card < maxSize := by
  have hbase' := base_put hbase hlt key hsuccess
  have hcard := (hkept k r time hlog (hlt.trans hfresh)).1 hk
  have hstored := since_subset_stored hbase hkept hlog (hlt.trans hfresh) hcard
  have hsub : insert k (insert key (Recency.since s.successes k)) ⊆
      (s.cache.put key result now).store.keys.toFinset := by
    intro j hj
    rw [List.mem_toFinset, mem_keys_put hbase.nodup key hsuccess]
    rcases Finset.mem_insert.1 hj with rfl | hj
    · exact .inr ⟨hk, hleft⟩
    rcases Finset.mem_insert.1 hj with rfl | hj
    · exact .inl rfl
    refine .inr ⟨List.mem_toFinset.1 (hstored hj), ?_⟩
    -- what is evicted is nearer to its expiry than `k`, and so not more recent
    intro hevicted
    obtain ⟨-, -, ⟨r', e⟩, hget, hleast⟩ := evicted_eq_some hbase.nodup hevicted
    obtain ⟨entry, hentry⟩ := Dict.mem_keys_iff.1 hk
    obtain ⟨time', htime', rfl⟩ := hbase.entry j r' e hget
    obtain ⟨time'', htime'', hexpiry⟩ := hbase.entry k entry.1 entry.2 hentry
    rw [hlog] at htime''
    cases htime''
    have hle := hleast k entry hentry
    obtain ⟨_, _, hlog', hlater⟩ := (Recency.mem_since hbase.dated hlog j).1 hj
    rw [htime'] at hlog'
    cases hlog'
    rw [hexpiry] at hle
    exact absurd hlater (not_lt.2 (le_of_add_le_add_right hle))
  have hnew : k ∉ insert key (Recency.since s.successes k) := by
    rw [Finset.mem_insert]
    rintro (h | h)
    · exact hne h
    · exact Recency.not_mem_since hbase.dated hlog h
  have hle := (Finset.card_le_card hsub).trans_eq (card_stored hbase')
  rw [Finset.card_insert_of_notMem hnew] at hle
  exact lt_of_lt_of_le (Nat.lt_succ_self _) (hle.trans hbase'.bounded)

/-- If the right keys are kept after a put, it has spared the others. -/
theorem spares_of_kept_put (h : Kept ttl maxSize
      ⟨s.cache.put key result now, (key, result, now) :: s.successes, now⟩)
    (hkey : key ∈ s.cache.store.keys) (hfull : s.cache.maxSize ≤ s.cache.store.length)
    {oldest : String} {entry : DispatchResult × ℚ}
    (holdest : ResultCache.oldestKey s.cache.store = some oldest)
    (hget : s.cache.store.get oldest = some entry) : oldest = key ∨ entry.2 ≤ now := by
  by_contra hnot
  obtain ⟨hne, hfresh⟩ := not_or.1 hnot
  have hevicted : evicted s.cache = some oldest := by rw [evicted, if_pos hfull, holdest]
  obtain ⟨r, e⟩ := entry
  obtain ⟨time, hlog, rfl⟩ := hbase.entry oldest r e hget
  have hcard := (hkept oldest r time hlog (hlt.trans (not_le.1 hfresh))).1
    (Dict.mem_keys_of_get hget)
  -- the key overwritten was already counted among the more recent ones
  have hmem : key ∈ Recency.since s.successes oldest := by
    obtain ⟨-, -, entry', hget', hleast⟩ := evicted_eq_some hbase.nodup hevicted
    rw [hget] at hget'
    cases hget'
    refine stored_subset_since hbase hlog hleast ?_
    exact Finset.mem_erase.2 ⟨Ne.symm hne, List.mem_toFinset.2 hkey⟩
  have hlog' : Dict.get ((key, result, now) :: s.successes) oldest = some (r, time) := by
    rw [Dict.get_cons, if_neg hne, hlog]
  have hgone := (h oldest r time hlog' (not_le.1 hfresh)).2 (by
    rwa [Recency.since_cons_of_ne hne, Finset.insert_eq_of_mem hmem])
  rcases (mem_keys_put hbase.nodup key hsuccess now oldest).1 hgone with h | h
  · exact hne h
  · exact h.2 hevicted

omit hkept hlt hsuccess in
/-- A put that spares the others does not evict a key with room for it: it would be a new
key, and all the others in the full store are more recent. -/
theorem not_evicted_of_spared (hspares : key ∈ s.cache.store.keys →
      s.cache.maxSize ≤ s.cache.store.length → ∀ oldest entry,
        ResultCache.oldestKey s.cache.store = some oldest →
          s.cache.store.get oldest = some entry → oldest = key ∨ entry.2 ≤ now)
    {k : String} {r : DispatchResult} {time : ℚ} (hlog : s.successes.get k = some (r, time))
    (hfresh : now < time + ttl) (hk : k ≠ key) (hstored : k ∈ s.cache.store.keys)
    (hcard : (insert key (Recency.since s.successes k)).card < maxSize) :
    evicted s.cache ≠ some k := by
  have hmax := hbase.maxSize_eq
  intro hevicted
  obtain ⟨hfull, holdest, ⟨r', e⟩, hget, hleast⟩ := evicted_eq_some hbase.nodup hevicted
  obtain ⟨time', htime', rfl⟩ := hbase.entry k r' e hget
  rw [hlog] at htime'
  cases htime'
  by_cases hkey : key ∈ s.cache.store.keys
  · rcases hspares hkey hfull k _ holdest hget with h | h
    · exact hk h
    · exact absurd hfresh (not_lt.2 h)
  · have hsub := Finset.insert_subset_insert key (stored_subset_since hbase hlog hleast)
    have hle := Finset.card_le_card hsub
    rw [Finset.card_insert_of_notMem (by simp [hkey]),
      Finset.card_erase_of_mem (List.mem_toFinset.2 hstored), card_stored hbase] at hle
    have hpos : 0 < s.cache.store.length := s.cache.maxSize_pos.trans_le hfull
    omega

/-- **A put.**  The right keys are still kept after it exactly when it has not made room
for a key that was stored, at the expense of an entry that has not expired. -/
theorem kept_put_iff :
    Kept ttl maxSize ⟨s.cache.put key result now, (key, result, now) :: s.successes, now⟩ ↔
      (key ∈ s.cache.store.keys → s.cache.maxSize ≤ s.cache.store.length →
        ∀ oldest entry, ResultCache.oldestKey s.cache.store = some oldest →
          s.cache.store.get oldest = some entry → oldest = key ∨ entry.2 ≤ now) := by
  constructor
  · intro h hkey hfull oldest entry holdest hget
    exact spares_of_kept_put hbase hkept hlt hsuccess h hkey hfull holdest hget
  · intro hspares k r time hlog hfresh
    rw [mem_keys_put hbase.nodup key hsuccess]
    by_cases hk : k = key
    · subst hk
      have hmax := hbase.maxSize_eq
      have hpos := s.cache.maxSize_pos
      exact iff_of_true (.inl rfl) (by rw [Recency.since_cons_self, Finset.card_empty]; omega)
    · dsimp only at hlog hfresh ⊢
      rw [Dict.get_cons, if_neg hk] at hlog
      rw [Recency.since_cons_of_ne hk]
      constructor
      · rintro (h | ⟨hstored, hleft⟩)
        · exact absurd h hk
        · exact card_since_of_left hbase hkept hlt hsuccess hlog hfresh hk hstored hleft
      · intro hcard
        have hcard' : (Recency.since s.successes k).card < maxSize :=
          (Finset.card_le_card (Finset.subset_insert _ _)).trans_lt hcard
        have hstored := (hkept k r time hlog (hlt.trans hfresh)).2 hcard'
        exact .inr ⟨hstored, not_evicted_of_spared hbase hspares hlog hfresh hk hstored hcard⟩

end Put

theorem kept_wait (hkept : Kept ttl maxSize s) {now : ℚ} (hlt : s.clock < now) :
    Kept ttl maxSize { s with clock := now } :=
  fun key result time hlog hfresh => hkept key result time hlog (hlt.trans hfresh)

/-- An expired entry is not missed. -/
theorem kept_erase (hbase : Base ttl maxSize s) (hkept : Kept ttl maxSize s) {now : ℚ}
    (hlt : s.clock < now) {key : String} {entry : DispatchResult × ℚ}
    (hget : s.cache.store.get key = some entry) (hexpired : entry.2 < now) :
    Kept ttl maxSize
      ⟨{ s.cache with store := s.cache.store.erase key }, s.successes, now⟩ := by
  intro k r time hlog hfresh
  have hne : k ≠ key := by
    rintro rfl
    obtain ⟨time', htime', he⟩ := hbase.entry k entry.1 entry.2 hget
    rw [show s.successes.get k = some (r, time) from hlog] at htime'
    cases htime'
    rw [he] at hexpired
    exact lt_asymm hexpired hfresh
  rw [← hkept k r time hlog (hlt.trans hfresh), Dict.mem_keys_erase]
  exact and_iff_right hne

/-- **A call.**  The right keys are still kept after it exactly when it spares the others. -/
theorem kept_step (hbase : Base ttl maxSize s) (hkept : Kept ttl maxSize s)
    (h : step s a = some t) : Kept ttl maxSize t ↔ Spares s a := by
  have hlt : s.clock < s.clock + a.delay := lt_add_of_pos_right _ a.delay_pos
  obtain ⟨key, result, hcall, hsuccess, rfl⟩ | ⟨hidle, hrest⟩ := step_cases h
  · rw [kept_put_iff hbase hkept hlt hsuccess]
    constructor
    · intro hput key' result' hcall' _
      rw [hcall] at hcall'
      cases hcall'
      exact hput
    · intro hspares
      exact hspares key result hcall hsuccess
  · refine iff_of_true ?_ fun key result hcall hsuccess => absurd hsuccess (hidle key result hcall)
    obtain rfl | ⟨key, entry, hget, hexpired, rfl⟩ := hrest
    · exact kept_wait hkept hlt
    · exact kept_erase hbase hkept hlt hget hexpired

theorem boundedTtlMap_start (ttl : ℚ) (maxSize : ℕ) (h : 0 < maxSize) (clock : ℚ) :
    BoundedTtlMap ttl maxSize (start ttl maxSize h clock) := by
  rw [boundedTtlMap_iff (base_start h clock)]
  intro key result time hlog
  cases hlog

/-- **The cache is a bounded map with expiry** in every state of a run exactly when no put
of the run evicts an entry that has not expired in order to overwrite another. -/
theorem throughout_boundedTtlMap_iff (ttl : ℚ) (maxSize : ℕ) (h : 0 < maxSize) (clock : ℚ)
    (calls : List Timed) :
    Run.Throughout step (BoundedTtlMap ttl maxSize) (start ttl maxSize h clock) calls ↔
      Run.Along step Spares (start ttl maxSize h clock) calls := by
  refine Run.throughout_iff_along (B := Base ttl maxSize) (fun s a t => base_step) ?_ ?_
    (base_start h clock) (boundedTtlMap_start ttl maxSize h clock)
  · intro s a t hbase hlaw ht
    rw [boundedTtlMap_iff hbase] at hlaw
    rw [boundedTtlMap_iff (base_step hbase ht), kept_step hbase hlaw ht]
  · intro s a _ hstuck
    unfold step at hstuck
    split at hstuck <;> cases hstuck

/-! ## A put that overwrites -/

/-- A successful result with this output. -/
def resultOf (output : String) : DispatchResult where
  success := true
  output := output

/-- One second after the last call. -/
def nextSecond (call : Call) : Timed where
  call := call
  delay := 1
  delay_pos := by decide +kernel

/-- The coder's result, the tester's, and the tester's again. -/
def testerTwice : List Timed :=
  [nextSecond (.put "coder:17:t1" (resultOf "built")),
    nextSecond (.put "tester:17:t1" (resultOf "failed")),
    nextSecond (.put "tester:17:t1" (resultOf "passed"))]

/-- As long as each key is put once, the cache keeps the law. -/
theorem boundedTtlMap_each_once :
    Run.Throughout step (BoundedTtlMap 3600 2) (start 3600 2 (by decide) 0)
      (testerTwice.take 2) := by
  refine (throughout_boundedTtlMap_iff 3600 2 (by decide) 0 (testerTwice.take 2)).2
    ⟨?_, ?_, trivial⟩ <;> intro key result hcall _ hkey <;> cases hcall
  · exact absurd hkey (by decide +kernel)
  · exact absurd hkey (by decide +kernel)

/-- A cache of two entries loses the coder's result to a put under the tester's key, which
was there already: nothing but the tester's key was put since. -/
theorem overwriting_put_evicts :
    ¬ Run.Throughout step (BoundedTtlMap 3600 2) (start 3600 2 (by decide) 0) testerTwice := by
  intro h
  have hget := (h testerTwice [] rfl _ rfl).get_eq "coder:17:t1" 4 (by decide +kernel)
  exact absurd hget (by decide +kernel)

end CacheLaw
end Dispatcher
end AgentSwarm
