import AgentSwarm.Lib.Run
import AgentSwarm.Lib.Split
import AgentSwarm.Dispatcher.DirectChat

/-!
# Whose result the cache returns

`ResultCache` makes room for a task id in its keys, so that equal prompts of
different tasks do not meet, and the dispatcher passes none.  So the cache answers
a request with the latest success for its agent type and text, whoever it was for.

* `SameWork`, `SameOwner` — the agent type and the text of two requests agree; the
  task and the tenant do.
* `Shared`, `step` — a dispatcher with the successes so far, and one more dispatch.
* `OwnAnswer` — what a degraded result says is what the last success of the
  request's own task and tenant said.
* `CachedApart` — this holds along a run, and so the dispatches of others do not
  show in it.
* `Unmixed` — the condition on a dispatch.
* `LastUnder` — the invariant: an entry is the latest success under its key.
* `cachedApart_of_unmixed` — **no result crosses** in a run that meets the
  condition.
-/

namespace AgentSwarm
namespace Dispatcher

/-- A request with its successful result. -/
abbrev Success := DispatchRequest × DispatchResult

/-- The same agent type and the same task text. -/
def SameWork (r q : DispatchRequest) : Prop := r.agentType = q.agentType ∧ r.task = q.task

instance (r q : DispatchRequest) : Decidable (SameWork r q) := inferInstanceAs (Decidable (_ ∧ _))

/-- The same task and the same tenant in the context. -/
def SameOwner (r q : DispatchRequest) : Prop :=
  Dict.get r.context "task_id" = Dict.get q.context "task_id" ∧
    Dict.get r.context "tenant_id" = Dict.get q.context "tenant_id"

/-- The part of a result that is cached. -/
def DispatchResult.content (result : DispatchResult) :
    String × List String × Option DispatchTarget :=
  (result.output, result.artifacts, result.target)

/-- A dispatcher, and the dispatches that have succeeded, not from the cache. -/
structure Shared where
  disp : Disp
  history : List Success

variable (env : Env) (backends : List Backend)

/-- A dispatcher with a new cache. -/
def newShared (config : DispatcherConfig) (ttl : ℚ) (maxSize : ℕ) (h : 0 < maxSize) : Shared where
  disp := { config := config, breakers := [], resultCache := some ⟨ttl, maxSize, [], h⟩, reads := 0 }
  history := []

/-- One more dispatch. -/
def step (s : Shared) (request : DispatchRequest) : Option Shared :=
  match dispatch env s.disp backends request with
  | (.error _, d) => some { s with disp := d }
  | (.ok result, d) =>
      some ⟨d, if result.success ∧ ¬ result.degraded then s.history ++ [(request, result)]
        else s.history⟩

/-! ## The property -/

open Classical in
/-- The successes of the request's own task and tenant for its agent type and text. -/
noncomputable def ownSuccesses (history : List Success) (request : DispatchRequest) :
    List Success :=
  (history.filter fun p => SameWork p.1 request).filter fun p => SameOwner p.1 request

/-- A degraded result has the content of the last success of the same task and
tenant. -/
def OwnAnswer (s : Shared) (request : DispatchRequest) (_ : Shared) : Prop :=
  ∀ result d', dispatch env s.disp backends request = (.ok result, d') → result.degraded = true →
    ∃ own, (ownSuccesses s.history request).getLast? = some own ∧
      result.content = own.2.content

/-! ## The condition -/

/-- Where the cache is asked: no candidate is left, or each one that was tried has
failed. -/
def fallback (d : Disp) (request : DispatchRequest) : Option Disp :=
  let (pairs, d) := select env d backends request
  if pairs = [] then some d
  else
    match tryAll env request d (pairs.take (min pairs.length (d.config.maxRetries + 1))) with
    | (.ok { winner := none, .. }, d) => some d
    | _ => none

/-- If the cache is asked and has an entry that has not expired, the latest success
for the request's agent type and text was one of its own task and tenant. -/
def Unmixed (s : Shared) (request : DispatchRequest) : Prop :=
  ∀ d, fallback env backends s.disp request = some d → ¬ Forgotten env d request d.reads →
    ∀ p, (s.history.filter fun p => SameWork p.1 request).getLast? = some p →
      SameOwner p.1 request

/-- The dispatches of a run are apart: each degraded result has the content of an
own success; and in two runs with the same own successes before a request, the
request gets the same content, if both answer it from the cache. -/
structure CachedApart (texts : Set String) (init : Shared) (calls : List DispatchRequest) :
    Prop where
  own : Run.Obeys (step env backends) (OwnAnswer env backends) init calls
  same : ∀ calls', (∀ request ∈ calls', request.task ∈ texts) →
    Run.Along (step env backends) (Unmixed env backends) init calls' →
    ∀ before after before' after' request, calls = before ++ request :: after →
      calls' = before' ++ request :: after' →
      ∀ s s', Run.exec (step env backends) init before = some s →
        Run.exec (step env backends) init before' = some s' →
        ownSuccesses s.history request = ownSuccesses s'.history request →
        ∀ result result' d d', dispatch env s.disp backends request = (.ok result, d) →
          dispatch env s'.disp backends request = (.ok result', d') →
          result.degraded = true → result'.degraded = true → result.content = result'.content

/-- The texts Python gives to hashes: decimal, and different for different texts of
`texts`. -/
structure HashTexts (texts : Set String) : Prop where
  injOn : Set.InjOn env.hash texts
  decimal : ∀ text, ':' ∉ (env.hash text).toList

/-! ## Keys -/

variable {env backends} {texts : Set String} {s t : Shared} {request : DispatchRequest}
  {d d₁ d₂ : Disp}

theorem key_toList (agentType text : String) :
    (ResultCache.key env.hash agentType text "").toList =
      (agentType.toList ++ ([':'] ++ (env.hash text).toList)) ++ [':'] := by
  have hcolon : (":" : String).toList = [':'] := rfl
  simp [ResultCache.key, String.toList_append, hcolon]

/-- The pieces of a text around its last colon. -/
theorem append_colon_inj {a a' b b' : List Char} (hb : ':' ∉ b) (hb' : ':' ∉ b')
    (h : a ++ ([':'] ++ b) = a' ++ ([':'] ++ b')) : a = a' ∧ b = b' := by
  have hpiece : ∀ a b : List Char, ':' ∉ b → Split.lastPiece [':'] (a ++ ([':'] ++ b)) = b := by
    intro a b hb
    rw [Split.lastPiece_append (by decide) (by decide), Split.lastPiece_of_not_infix]
    exact fun hin => hb (hin.subset List.mem_cons_self)
  have hbb : b = b' := by rw [← hpiece a b hb, h, hpiece a' b' hb']
  subst hbb
  exact ⟨List.append_cancel_right h, rfl⟩

/-- **Keys.**  Requests with one key have one agent type and one text. -/
theorem sameWork_of_cacheKey (hhash : HashTexts env texts) {r q : DispatchRequest}
    (hr : r.task ∈ texts) (hq : q.task ∈ texts) :
    cacheKey env r = cacheKey env q ↔ SameWork r q := by
  constructor
  · intro h
    have hlists := congrArg String.toList h
    simp only [cacheKey, key_toList] at hlists
    obtain ⟨htype, hhashes⟩ := append_colon_inj (hhash.decimal _) (hhash.decimal _)
      (List.append_cancel_right hlists)
    exact ⟨String.toList_inj.1 htype, hhash.injOn hr hq (String.toList_inj.1 hhashes)⟩
  · rintro ⟨htype, htask⟩
    rw [cacheKey, cacheKey, htype, htask]

/-! ## What a dispatch does to the cache -/

/-- The cache is asked as it was before the dispatch. -/
theorem fallback_resultCache (h : fallback env backends d request = some d₁) :
    d₁.resultCache = d.resultCache := by
  have hselect : (select env d backends request).2.resultCache = d.resultCache :=
    select_keeps (fun _ _ _ _ => rfl) d backends
  unfold fallback at h
  generalize select env d backends request = selected at h hselect
  obtain ⟨pairs, d₂⟩ := selected
  dsimp only at h hselect
  split at h
  · cases h
    exact hselect
  · have htries : (tryAll env request d₂ _).2.resultCache = d₂.resultCache :=
      tryAll_keeps (fun _ _ _ _ => rfl) d₂
        (pairs.take (min pairs.length (d₂.config.maxRetries + 1)))
    split at h
    · rename_i htry
      cases h
      rw [htry] at htries
      exact htries.trans hselect
    · cases h

/-- What the cache answers is a stored result, as a degraded success. -/
theorem cached_spec {cached : DispatchResult} (h : (d.cached env request).1 = some cached) :
    ∃ cache hit, d.resultCache = some cache ∧
      (cache.get (cacheKey env request) (env.clock d.reads)).1 = some hit ∧
      cached.content = hit.content ∧ cached.success = true ∧ cached.degraded = true := by
  unfold Disp.cached at h
  cases hcache : d.resultCache with
  | none => simp [hcache] at h
  | some cache =>
      simp only [hcache, Option.map_eq_some_iff] at h
      obtain ⟨hit, hget, rfl⟩ := h
      exact ⟨cache, hit, rfl, hget, rfl, rfl, rfl⟩

/-- A result is the cached one, or a failure. -/
def FromCache (env : Env) (d : Disp) (request : DispatchRequest) (result : DispatchResult) : Prop :=
  (result.degraded = true → ∃ cached, (d.cached env request).1 = some cached ∧
    result.content = cached.content) ∧ (result.success = true → result.degraded = true)

theorem noCandidates_fromCache (d : Disp) :
    FromCache env d request (noCandidates env d request).1 ∧
      (noCandidates env d request).2 = (d.cached env request).2 := by
  unfold noCandidates FromCache
  rcases hcached : d.cached env request with ⟨_ | cached, d₁⟩
  · exact ⟨⟨by simp, by simp⟩, rfl⟩
  · obtain ⟨_, _, _, _, _, _, hdegraded⟩ := cached_spec (congrArg Prod.fst hcached)
    exact ⟨⟨fun _ => ⟨cached, rfl, rfl⟩, fun _ => hdegraded⟩, rfl⟩

theorem allFailed_fromCache (d : Disp) (attempts : List DispatchAttempt) :
    FromCache env d request (allFailed env d request attempts).1 ∧
      (allFailed env d request attempts).2 = (d.cached env request).2 := by
  unfold allFailed FromCache
  rcases hcached : d.cached env request with ⟨_ | cached, d₁⟩
  · exact ⟨⟨by simp, by simp⟩, rfl⟩
  · obtain ⟨_, _, _, _, _, _, hdegraded⟩ := cached_spec (congrArg Prod.fst hcached)
    exact ⟨⟨fun _ => ⟨cached, rfl, rfl⟩, fun _ => hdegraded⟩, rfl⟩

/-- Where the cache is asked, its answer is the result. -/
theorem dispatch_of_fallback (h : fallback env backends d request = some d₁) :
    ∃ result, dispatch env d backends request = (.ok result, (d₁.cached env request).2) ∧
      FromCache env d₁ request result := by
  unfold fallback at h
  unfold dispatch
  generalize select env d backends request = selected at h ⊢
  obtain ⟨pairs, d₂⟩ := selected
  dsimp only at h ⊢
  split at h
  · cases h
    rename_i hpairs
    obtain ⟨hfrom, hcache⟩ := @noCandidates_fromCache env request d₁
    rw [if_pos hpairs]
    exact ⟨_, by rw [← hcache], hfrom⟩
  · rename_i hpairs
    rw [if_neg hpairs]
    split at h
    · rename_i attempts _ htry
      cases h
      obtain ⟨hfrom, hcache⟩ := @allFailed_fromCache env request d₁ attempts
      rw [htry]
      exact ⟨_, by rw [← hcache], hfrom⟩
    · cases h

/-- Elsewhere it raises, or a new success is put into the cache. -/
theorem dispatch_of_no_fallback (h : fallback env backends d request = none) :
    (∃ e d', dispatch env d backends request = (.error e, d') ∧
        d'.resultCache = d.resultCache) ∨
      ∃ (result : DispatchResult) (d' : Disp),
        dispatch env d backends request = (.ok result, d'.putCache env request result) ∧
        result.success = true ∧ result.degraded = false ∧ d'.resultCache = d.resultCache := by
  have hselect : (select env d backends request).2.resultCache = d.resultCache :=
    select_keeps (fun _ _ _ _ => rfl) d backends
  unfold fallback at h
  unfold dispatch
  generalize select env d backends request = selected at h hselect ⊢
  obtain ⟨pairs, d₂⟩ := selected
  dsimp only at h hselect ⊢
  split at h
  · cases h
  · rename_i hpairs
    rw [if_neg hpairs]
    have htries : (tryAll env request d₂ _).2.resultCache = d₂.resultCache :=
      tryAll_keeps (fun _ _ _ _ => rfl) d₂
        (pairs.take (min pairs.length (d₂.config.maxRetries + 1)))
    rcases htry : tryAll env request d₂
        (pairs.take (min pairs.length (d₂.config.maxRetries + 1))) with
      ⟨e | ⟨attempts, _ | ⟨target, attempt⟩⟩, d₃⟩ <;> simp only [htry] at h htries ⊢
    · exact .inl ⟨e, d₃, rfl, htries.trans hselect⟩
    · cases h
    · exact .inr ⟨_, d₃, rfl, rfl, rfl, htries.trans hselect⟩

/-! ## The invariant -/

/-- An entry of the cache is the latest success under its key. -/
def LastUnder (env : Env) (s : Shared) : Prop :=
  ∀ cache, s.disp.resultCache = some cache → ∀ key result expiresAt,
    cache.store.get key = some (result, expiresAt) →
      ∃ p, (s.history.filter fun p => cacheKey env p.1 = key).getLast? = some p ∧ p.2 = result

theorem lastUnder_newShared (config : DispatcherConfig) (ttl : ℚ) (maxSize : ℕ)
    (h : 0 < maxSize) : LastUnder env (newShared config ttl maxSize h) := by
  intro cache hcache key result expiresAt hget
  cases hcache
  cases hget

/-- `get` returns what is stored under the key. -/
theorem get_fst {cache : ResultCache} {key : String} {now : ℚ} {result : DispatchResult}
    (h : (cache.get key now).1 = some result) :
    ∃ expiresAt, cache.store.get key = some (result, expiresAt) := by
  unfold ResultCache.get at h
  split at h
  · cases h
  · rename_i hstore
    split at h
    · cases h
    · cases h
      exact ⟨_, hstore⟩

/-- `get` adds no entry. -/
theorem get_snd_store {cache : ResultCache} {key : String} {now : ℚ} {key' : String}
    {entry : DispatchResult × ℚ} (h : (cache.get key now).2.store.get key' = some entry) :
    cache.store.get key' = some entry := by
  unfold ResultCache.get at h
  split at h
  · exact h
  · split at h
    · rw [Dict.get_erase] at h
      split at h
      · cases h
      · exact h
    · exact h

/-- `put` of a success stores it under its key, and nothing else. -/
theorem put_store {cache : ResultCache} {key : String} {result : DispatchResult} {now : ℚ}
    {key' : String} {entry : DispatchResult × ℚ} (hsuccess : result.success = true)
    (h : (cache.put key result now).store.get key' = some entry) :
    if key' = key then entry.1 = result else cache.store.get key' = some entry := by
  unfold ResultCache.put at h
  simp only [hsuccess, if_true, Dict.get_set] at h
  split at h
  · rename_i hkey
    cases h
    rw [if_pos hkey]
  · rename_i hkey
    rw [if_neg hkey]
    split at h
    · split at h
      · rw [Dict.get_erase] at h
        split at h
        · cases h
        · exact h
      · exact h
    · exact h

/-- The cache and the successes after a dispatch: there is no cache, or nothing was
stored, or a new success. -/
theorem step_cases (h : step env backends s request = some t) :
    t.disp.resultCache = none ∨
      (∃ cache, s.disp.resultCache = some cache ∧ t.history = s.history ∧
        ∃ cache', t.disp.resultCache = some cache' ∧
          ∀ key entry, cache'.store.get key = some entry → cache.store.get key = some entry) ∨
      ∃ (cache : ResultCache) (result : DispatchResult) (now : ℚ), result.success = true ∧
        s.disp.resultCache = some cache ∧
        t.disp.resultCache = some (cache.put (cacheKey env request) result now) ∧
        t.history = s.history ++ [(request, result)] := by
  unfold step at h
  cases hfallback : fallback env backends s.disp request with
  | some d₁ =>
      obtain ⟨result, hrun, -, hdegraded⟩ := dispatch_of_fallback hfallback
      have hold : ¬ (result.success = true ∧ ¬ result.degraded = true) := by tauto
      simp only [hrun, if_neg hold, Option.some.injEq] at h
      subst h
      rw [← fallback_resultCache hfallback]
      cases hcache : d₁.resultCache with
      | none => exact .inl (by simp [Disp.cached, hcache])
      | some cache =>
          refine .inr (.inl ⟨cache, rfl, rfl, (cache.get (cacheKey env request)
            (env.clock d₁.reads)).2, ?_, fun _ _ => get_snd_store⟩)
          simp only [Disp.cached, hcache]
  | none =>
      rcases dispatch_of_no_fallback hfallback with
        ⟨e, d', hrun, hsame⟩ | ⟨result, d', hrun, hsuccess, hfresh, hsame⟩
      · simp only [hrun, Option.some.injEq] at h
        subst h
        cases hcache : s.disp.resultCache with
        | none => exact .inl (hsame.trans hcache)
        | some cache =>
            exact .inr (.inl ⟨cache, rfl, rfl, cache, hsame.trans hcache, fun _ _ => id⟩)
      · have hnew : result.success = true ∧ ¬ result.degraded = true := by simp [hsuccess, hfresh]
        simp only [hrun, if_pos hnew, Option.some.injEq] at h
        subst h
        rw [← hsame]
        cases hcache : d'.resultCache with
        | none => exact .inl (by simp [Disp.putCache, hcache])
        | some cache =>
            refine .inr (.inr ⟨cache, result, env.clock d'.reads, hsuccess, rfl, ?_, rfl⟩)
            simp only [Disp.putCache, hcache]

/-- **One dispatch.** -/
theorem lastUnder_step (hinv : LastUnder env s) (h : step env backends s request = some t) :
    LastUnder env t := by
  intro cache hcache key result expiresAt hget
  rcases step_cases h with hnone | ⟨cache', hold, hhistory, cache'', hnew, hsub⟩ |
    ⟨cache', result', now, hsuccess, hold, hnew, hhistory⟩
  · rw [hnone] at hcache
    cases hcache
  · rw [hnew, Option.some.injEq] at hcache
    subst hcache
    rw [hhistory]
    exact hinv cache' hold key result expiresAt (hsub _ _ hget)
  · rw [hnew, Option.some.injEq] at hcache
    subst hcache
    have hentry := put_store hsuccess hget
    rw [hhistory, List.filter_append]
    by_cases hkey : key = cacheKey env request
    · rw [if_pos hkey] at hentry
      exact ⟨(request, result'), by simp [hkey], hentry.symm⟩
    · rw [if_neg hkey] at hentry
      obtain ⟨p, hp, hresult⟩ := hinv cache' hold key result expiresAt hentry
      exact ⟨p, by simpa [Ne.symm hkey] using hp, hresult⟩

/-- The texts of the successes are those of the requests. -/
def Within (texts : Set String) (s : Shared) : Prop := ∀ p ∈ s.history, p.1.task ∈ texts

theorem within_step (hinv : Within texts s) (htask : request.task ∈ texts)
    (h : step env backends s request = some t) : Within texts t := by
  unfold step at h
  split at h <;> cases h
  · exact hinv
  · intro p hp
    dsimp only at hp
    split at hp
    · rcases List.mem_append.1 hp with hold | hnew
      · exact hinv p hold
      · rw [List.mem_singleton] at hnew
        rw [hnew]
        exact htask
    · exact hinv p hp

/-- The last element that has `P` is the last of those that have it. -/
theorem getLast?_filter_of_pos {α : Type*} {P : α → Bool} {xs : List α} {x : α}
    (h : xs.getLast? = some x) (hx : P x = true) : (xs.filter P).getLast? = some x := by
  obtain ⟨ys, rfl⟩ := List.getLast?_eq_some_iff.1 h
  simp [hx]

/-- **A degraded result.**  It has the content of an own success. -/
theorem ownAnswer_step (hhash : HashTexts env texts) (hlast : LastUnder env s)
    (hwithin : Within texts s) (htask : request.task ∈ texts)
    (hok : Unmixed env backends s request) : OwnAnswer env backends s request t := by
  intro result d' hrun hdegraded
  cases hfallback : fallback env backends s.disp request with
  | none =>
      rcases dispatch_of_no_fallback hfallback with
        ⟨e, d'', hrun', -⟩ | ⟨result', d'', hrun', -, hfresh, -⟩ <;> rw [hrun'] at hrun
      · cases hrun
      · cases hrun
        rw [hfresh] at hdegraded
        cases hdegraded
  | some d₁ =>
      obtain ⟨result', hrun', hcontent, -⟩ := dispatch_of_fallback hfallback
      rw [hrun', Prod.mk.injEq, Except.ok.injEq] at hrun
      obtain ⟨rfl, -⟩ := hrun
      obtain ⟨cached, hcached, hsame⟩ := hcontent hdegraded
      obtain ⟨cache, hit, hcache, hget, hhit, -, -⟩ := cached_spec hcached
      obtain ⟨expiresAt, hstore⟩ := get_fst hget
      rw [fallback_resultCache hfallback] at hcache
      obtain ⟨p, hp, rfl⟩ := hlast cache hcache _ _ _ hstore
      -- the entry is the latest success for the agent type and the text
      have hwork : (s.history.filter fun p => cacheKey env p.1 = cacheKey env request) =
          s.history.filter fun p => SameWork p.1 request := by
        refine List.filter_congr fun q hq => ?_
        rw [decide_eq_decide]
        exact sameWork_of_cacheKey hhash (hwithin q hq) htask
      rw [hwork] at hp
      have hlive : ¬ Forgotten env d₁ request d₁.reads := by
        intro hforgotten
        rw [← cached_eq_none_iff, hcached] at hforgotten
        cases hforgotten
      have howner := hok d₁ hfallback hlive p hp
      exact ⟨p, getLast?_filter_of_pos hp (by simpa using howner), hsame.trans hhit⟩

/-! ## Whole runs -/

theorem obeys_ownAnswer (hhash : HashTexts env texts) {init : Shared}
    (hlast : LastUnder env init) (hwithin : Within texts init) {calls : List DispatchRequest}
    (htexts : ∀ request ∈ calls, request.task ∈ texts)
    (hok : Run.Along (step env backends) (Unmixed env backends) init calls) :
    Run.Obeys (step env backends) (OwnAnswer env backends) init calls := by
  refine Run.obeys_of_invariant (I := fun s => LastUnder env s ∧ Within texts s) ?_ ?_
    ⟨hlast, hwithin⟩ (hok.and (Run.along_of_mem _ htexts))
  · rintro s request t ⟨hlast, hwithin⟩ ⟨-, htask⟩ hstep
    exact ⟨lastUnder_step hlast hstep, within_step hwithin htask hstep⟩
  · rintro s request t ⟨hlast, hwithin⟩ ⟨hunmixed, htask⟩ -
    exact ownAnswer_step hhash hlast hwithin htask hunmixed

theorem exists_step (s : Shared) (request : DispatchRequest) :
    ∃ t, step env backends s request = some t := by
  unfold step
  split <;> exact ⟨_, rfl⟩

/-- **No result crosses.**  If, whenever the cache is asked and has an entry that
has not expired, the latest success for the agent type and the text was one of the
same task and tenant, then no degraded result of the run is another's. -/
theorem cachedApart_of_unmixed (env : Env) (backends : List Backend) (config : DispatcherConfig)
    (ttl : ℚ) (maxSize : ℕ) (hsize : 0 < maxSize) (texts : Set String)
    (hhash : HashTexts env texts) (calls : List DispatchRequest)
    (htexts : ∀ request ∈ calls, request.task ∈ texts)
    (hok : Run.Along (step env backends) (Unmixed env backends)
      (newShared config ttl maxSize hsize) calls) :
    CachedApart env backends texts (newShared config ttl maxSize hsize) calls := by
  have hlast := @lastUnder_newShared env config ttl maxSize hsize
  have hwithin : Within texts (newShared config ttl maxSize hsize) := by simp [Within, newShared]
  have hobeys := obeys_ownAnswer hhash hlast hwithin htexts hok
  refine ⟨hobeys, ?_⟩
  intro calls' htexts' hok' before after before' after' request hcalls hcalls' s s' hs hs' hown
    result result' d d' hrun hrun' hdegraded hdegraded'
  have hobeys' := obeys_ownAnswer hhash hlast hwithin htexts' hok'
  obtain ⟨t, ht⟩ := @exists_step env backends s request
  obtain ⟨t', ht'⟩ := @exists_step env backends s' request
  obtain ⟨own, hmem, hcontent⟩ :=
    hobeys before request after hcalls s t hs ht result d hrun hdegraded
  obtain ⟨own', hmem', hcontent'⟩ :=
    hobeys' before' request after' hcalls' s' t' hs' ht' result' d' hrun' hdegraded'
  rw [hown, hmem', Option.some.injEq] at hmem
  rw [hcontent, hcontent', hmem]

/-! ## A prompt that two tenants send -/

/-- A worker that answers once, and then no more. -/
def onceBackend : Backend where
  candidates _ agentType _ := .ok [{ kind := .docker, agentType := agentType }]
  healthCheck _ _ := .ok true
  invoke moment target _ :=
    .returns { target := target, success := moment == 2, output := "of the first" }

/-- A request of a task of a tenant. -/
def requestOf (taskId tenantId : String) : DispatchRequest where
  agentType := "frontend"
  task := "build"
  context := [("task_id", .str taskId), ("tenant_id", .str tenantId)]

/-- A process in which the hash of the prompt is 4839201. -/
def hashEnv : Env := { stillEnv with hash := fun _ => "4839201" }

/-- A process in which two prompts have different hashes. -/
def hashesEnv : Env :=
  { stillEnv with hash := fun text => if text = "build" then "4839201" else "-7150443" }

theorem hashTexts_hashesEnv : HashTexts hashesEnv {"build", "review"} where
  injOn := by
    rintro text (rfl | rfl) text' (rfl | rfl) h
    · rfl
    · simp [hashesEnv] at h
    · simp [hashesEnv] at h
    · rfl
  decimal text := by
    dsimp only [hashesEnv]
    split <;> decide

/-- The prompt of the second tenant. -/
def reviewRequest : DispatchRequest := { requestOf "t2" "globex" with task := "review" }

/-- Two tenants.  The second one's dispatch fails and finds nothing in the cache, and the first
one's task, asked again, gets its own result. -/
theorem cachedApart_two_tenants :
    CachedApart hashesEnv [onceBackend] {"build", "review"} (newShared {} 3600 256 (by decide))
      [requestOf "t1" "acme", reviewRequest, requestOf "t1" "acme"] := by
  refine cachedApart_of_unmixed _ _ _ _ _ _ _ hashTexts_hashesEnv _ ?_
    (.cons ?_ rfl (.cons ?_ rfl (.cons ?_ rfl trivial)))
  · simp [requestOf, reviewRequest]
  · intro d _ _ p hp
    cases hp
  · intro d _ _ p hp
    cases hp
  · intro d _ _ p hp
    cases hp
    exact ⟨rfl, rfl⟩

/-- The dispatcher after the first tenant's request. -/
def afterFirst : Shared :=
  ((step hashEnv [onceBackend] (newShared {} 3600 256 (by decide)) (requestOf "t1" "acme")).getD
    (newShared {} 3600 256 (by decide)))

theorem degraded_of_second : ((dispatch hashEnv afterFirst.disp [onceBackend]
    (requestOf "t2" "globex")).1.toOption.map DispatchResult.degraded) = some true := by
  decide +kernel

/-- **A result crosses.**  The second tenant's dispatch fails, and gets the result
of the first one's task. -/
theorem result_crosses_tenants :
    ¬ CachedApart hashEnv [onceBackend] {"build"} (newShared {} 3600 256 (by decide))
      [requestOf "t1" "acme", requestOf "t2" "globex"] := by
  intro h
  have hdegraded := degraded_of_second
  rcases hrun : dispatch hashEnv afterFirst.disp [onceBackend] (requestOf "t2" "globex") with
    ⟨e | result, d⟩ <;> rw [hrun] at hdegraded
  · cases hdegraded
  · obtain ⟨t, ht⟩ := @exists_step hashEnv [onceBackend] afterFirst (requestOf "t2" "globex")
    obtain ⟨own, hlast, -⟩ := h.own [requestOf "t1" "acme"] (requestOf "t2" "globex") [] rfl
      afterFirst t rfl ht result d hrun (Option.some.inj hdegraded)
    have hmem := List.mem_of_getLast? hlast
    unfold ownSuccesses at hmem
    obtain ⟨hmem, howner⟩ := List.mem_filter.1 hmem
    have hfirst : own ∈ [_] := (List.mem_filter.1 hmem).1
    rw [List.mem_singleton] at hfirst
    subst hfirst
    simp [SameOwner, requestOf, Dict.get] at howner

end Dispatcher
end AgentSwarm
