import Mathlib.Algebra.Order.Ring.Rat
import AgentSwarm.Dispatcher.Base

/-!
# The result cache

Successful results by agent type and task, for `ttl` seconds, at most `maxSize`
of them.  A failed dispatch is answered from here when it can be.

* `ResultCache` — the cache.  Its size limit is positive: `put` of a full cache
  takes the minimum of the stored expiries, which does not exist for an empty
  one; the program builds it with the default of 256.
* `get`, `put`.
-/

namespace AgentSwarm
namespace Dispatcher

/-- A result cache. -/
structure ResultCache where
  ttl : ℚ
  maxSize : ℕ
  store : Dict String (DispatchResult × ℚ)
  maxSize_pos : 0 < maxSize

namespace ResultCache

/-- `_key`.  `hash` gives the decimal text of the hash of a string in this
process. -/
def key (hash : String → String) (agentType task taskId : String) : String :=
  agentType ++ ":" ++ hash task ++ ":" ++ taskId

/-- `get`: the result, and the cache, which drops an expired entry. -/
def get (cache : ResultCache) (key : String) (now : ℚ) : Option DispatchResult × ResultCache :=
  match cache.store.get key with
  | none => (none, cache)
  | some (result, expiresAt) =>
      if expiresAt < now then (none, { cache with store := cache.store.erase key })
      else (some result, cache)

/-- `min(self._store, key=…)`: the first key among those with the nearest expiry. -/
def oldestKey : Dict String (DispatchResult × ℚ) → Option String
  | [] => none
  | (k, _, e) :: store =>
      match oldestKey store with
      | none => some k
      | some k' =>
          match Dict.get store k' with
          | some (_, e') => if e ≤ e' then some k else some k'
          | none => some k

/-- `put`: a success is stored, in the place of the entry nearest to its expiry
when the cache is full. -/
def put (cache : ResultCache) (key : String) (result : DispatchResult) (now : ℚ) : ResultCache :=
  if result.success then
    let store :=
      if cache.maxSize ≤ cache.store.length then
        match oldestKey cache.store with
        | some oldest => cache.store.erase oldest
        | none => cache.store
      else cache.store
    { cache with store := store.set key (result, now + cache.ttl) }
  else cache

end ResultCache
end Dispatcher
end AgentSwarm
