import AgentSwarm.Dispatcher.FaultContainment

/-!
# The failover law

What `_do_dispatch` does with the candidates, when no backend raises out of
`invoke`: they are tried in backend order, at most `max_retries + 1` of them, up
to the first that succeeds, and the result cache answers when none does.

* `offered`, `candidatesOf` — the candidates, in closed form: concatenated over
  the backends, and filtered by circuit and health.
* `Trial`, `Trials` — what trying one candidate, and a list of them, should
  leave.
* `callsOf` — the calls of `invoke` that the loop makes; `tryOne_congr` shows
  that no other call can matter.
* `FailsOver` — the law, clause by clause.
* `dispatch_failsOver` — **main result**: every dispatch obeys it.
-/

namespace AgentSwarm
namespace Dispatcher

variable (env : Env) (request : DispatchRequest)

/-! ## The candidates -/

/-- What a backend offers for the request: nothing when `candidates` raises. -/
def offered (moment : ℕ) (backend : Backend) : List Candidate :=
  match backend.candidates moment request.agentType request.agentId with
  | .error _ => []
  | .ok cands => cands.map (·, backend)

/-- The dispatcher as each candidate finds it when the circuits of those before
it have been looked at. -/
def checkpoints : Disp → List Candidate → List Disp
  | _, [] => []
  | d, c :: cs => d :: checkpoints (d.checkState env c.1).2 cs

/-- The dispatcher when the circuits of all candidates have been looked at. -/
def checkedAll (d : Disp) (cs : List Candidate) : Disp :=
  cs.foldl (fun d c => (d.checkState env c.1).2) d

/-- The candidate is left: its circuit is not open and its health check, made
right after, returns true. -/
def passes (c : Candidate) (d : Disp) : Bool :=
  match d.checkState env c.1 with
  | (.opened, _) => false
  | (_, d) =>
      match c.2.healthCheck d.reads c.1 with
      | .ok ok => ok
      | .error _ => false

/-- The candidates in backend order; with the health check on, those that pass. -/
def candidatesOf (d : Disp) (backends : List Backend) : List Candidate :=
  let cs := backends.flatMap (offered request d.reads)
  if d.config.healthPrecheck then
    ((cs.zip (checkpoints env d cs)).filter fun p => passes env p.1 p.2).map Prod.fst
  else cs

/-- The dispatcher when the candidates have been selected. -/
def selected (d : Disp) (backends : List Backend) : Disp :=
  if d.config.healthPrecheck then
    checkedAll env d (backends.flatMap (offered request d.reads))
  else d

/-- `_resolve` concatenates what the backends offer. -/
theorem resolve_eq (moment : ℕ) (backends : List Backend) :
    resolve moment request backends = backends.flatMap (offered request moment) := by
  induction backends with
  | nil => rfl
  | cons backend backends ih =>
      rw [resolve, List.flatMap_cons, ih, offered]
      cases backend.candidates moment request.agentType request.agentId <;> rfl

/-- `_filter_healthy` keeps the candidates that pass, each at its turn. -/
theorem filterHealthy_eq (d : Disp) (cs : List Candidate) :
    filterHealthy env d cs =
      (((cs.zip (checkpoints env d cs)).filter fun p => passes env p.1 p.2).map Prod.fst,
        checkedAll env d cs) := by
  induction cs generalizing d with
  | nil => rfl
  | cons c cs ih =>
      obtain ⟨target, backend⟩ := c
      have hrest : checkedAll env d ((target, backend) :: cs) =
          checkedAll env (d.checkState env target).2 cs := rfl
      rw [checkpoints, List.zip_cons_cons, hrest, filterHealthy]
      rcases hstate : d.checkState env target with ⟨state, d₁⟩
      cases state
      case opened =>
        have hpasses : passes env (target, backend) d = false := by simp [passes, hstate]
        simp [hpasses, ih]
      all_goals
        rcases hhealth : backend.healthCheck d₁.reads target with e | ok
        · have hpasses : passes env (target, backend) d = false := by
            simp [passes, hstate, hhealth]
          simp [hpasses, hhealth, ih]
        · have hpasses : passes env (target, backend) d = ok := by simp [passes, hstate, hhealth]
          cases ok <;> simp [hpasses, hhealth, ih]

theorem select_eq (d : Disp) (backends : List Backend) :
    select env d backends request =
      (candidatesOf env request d backends, selected env request d backends) := by
  unfold select candidatesOf selected
  rw [resolve_eq]
  cases d.config.healthPrecheck
  · rfl
  · exact filterHealthy_eq env d _

/-! ## Trying candidates -/

/-- A call of `invoke`: the candidate, and the moment of the call. -/
structure Call where
  candidate : Candidate
  moment : ℕ

/-- What trying one candidate should leave: the attempt, the calls of `invoke`,
and the dispatcher with the outcome recorded on the breaker of the target.
Under an open circuit there is no call, and nothing is recorded. -/
inductive Trial (d : Disp) (c : Candidate) : DispatchAttempt → List Call → Disp → Prop
  | circuitOpen {d₁ : Disp} (hopen : d.checkState env c.1 = (.opened, d₁)) :
      Trial d c { target := c.1, success := false, error := some "Circuit open" } [] d₁
  | returned {state : CircuitState} {d₁ : Disp} {attempt : DispatchAttempt}
      (hstate : d.checkState env c.1 = (state, d₁)) (hactive : state ≠ .opened)
      (hinvoke : (c.2.invoke d₁.reads c.1 request).waitFor = .ok attempt) :
      Trial d c attempt [{ candidate := c, moment := d₁.reads }]
        (d₁.record env c.1 attempt.success)
  | timedOut {state : CircuitState} {d₁ : Disp}
      (hstate : d.checkState env c.1 = (state, d₁)) (hactive : state ≠ .opened)
      (hinvoke : c.2.invoke d₁.reads c.1 request = .outlives .cancelled) :
      Trial d c
        { target := c.1, success := false
          error := some ("Dispatch timed out after "
            ++ env.floatStr (request.timeout.getD d₁.config.dispatchTimeout) ++ "s") }
        [{ candidate := c, moment := d₁.reads }] (d₁.record env c.1 false)

/-- The candidates are tried one after the other, each once. -/
inductive Trials : Disp → List Candidate → List DispatchAttempt → List Call → Disp → Prop
  | nil {d : Disp} : Trials d [] [] [] d
  | cons {d d₁ d₂ : Disp} {c : Candidate} {cs : List Candidate} {attempt : DispatchAttempt}
      {attempts : List DispatchAttempt} {call calls : List Call}
      (hone : Trial env request d c attempt call d₁) (hrest : Trials d₁ cs attempts calls d₂) :
      Trials d (c :: cs) (attempt :: attempts) (call ++ calls) d₂

/-- The call that `_try_one` makes: none when it finds the circuit open. -/
def callOf (d : Disp) (c : Candidate) : List Call :=
  match d.checkState env c.1 with
  | (.opened, _) => []
  | (_, d) => [{ candidate := c, moment := d.reads }]

/-- The calls that the loop over the candidates makes. -/
def callsOf : Disp → List Candidate → List Call
  | _, [] => []
  | d, c :: cs =>
      callOf env d c ++
        match tryOne env request d c.1 c.2 with
        | (.error _, _) => []
        | (.ok attempt, d) => if attempt.success then [] else callsOf d cs

/-- The invoke returns an attempt, or its time runs out: it does not raise. -/
def Invoke.Answers : Invoke → Prop
  | .raises _ => False
  | .outlives (.raises _) => False
  | _ => True

variable {env request}

theorem callOf_of_opened {d d₁ : Disp} {c : Candidate}
    (h : d.checkState env c.1 = (.opened, d₁)) : callOf env d c = [] := by
  rw [callOf, h]

theorem callOf_of_active {d d₁ : Disp} {c : Candidate} {state : CircuitState}
    (h : d.checkState env c.1 = (state, d₁)) (hs : state ≠ .opened) :
    callOf env d c = [{ candidate := c, moment := d₁.reads }] := by
  cases state
  case opened => exact absurd rfl hs
  all_goals rw [callOf, h]

/-- `_try_one` depends on `invoke` through the call of `callOf` only. -/
theorem tryOne_congr {d : Disp} {target : DispatchTarget} {backend backend' : Backend}
    (h : ∀ call ∈ callOf env d (target, backend),
      backend.invoke call.moment target request = backend'.invoke call.moment target request) :
    tryOne env request d target backend = tryOne env request d target backend' := by
  rcases hstate : d.checkState env target with ⟨state, d₁⟩
  by_cases hopen : state = .opened
  · subst hopen
    rw [tryOne_of_opened hstate, tryOne_of_opened hstate]
  · have hcall : callOf env d (target, backend) = [⟨(target, backend), d₁.reads⟩] :=
      callOf_of_active hstate hopen
    have hsame := h ⟨(target, backend), d₁.reads⟩ (by simp [hcall])
    rw [tryOne_of_active request backend hstate hopen,
      tryOne_of_active request backend' hstate hopen, hsame]

variable (env request) in
/-- A candidate whose invoke answers is tried as it should be. -/
theorem tryOne_trial (d : Disp) (c : Candidate)
    (hanswers : ∀ moment, (c.2.invoke moment c.1 request).Answers) :
    ∃ attempt d', tryOne env request d c.1 c.2 = (.ok attempt, d') ∧
      Trial env request d c attempt (callOf env d c) d' := by
  obtain ⟨target, backend⟩ := c
  rcases hstate : d.checkState env target with ⟨state, d₁⟩
  by_cases hopen : state = .opened
  · subst hopen
    refine ⟨_, d₁, tryOne_of_opened hstate, ?_⟩
    rw [callOf_of_opened hstate]
    exact .circuitOpen hstate
  · rw [callOf_of_active hstate hopen]
    have hone := tryOne_of_active request backend hstate hopen
    have hans := hanswers d₁.reads
    dsimp only at hone hans ⊢
    rcases hinvoke : backend.invoke d₁.reads target request with a | e | (_ | e | a)
    case raises => simp [hinvoke, Invoke.Answers] at hans
    case outlives.raises => simp [hinvoke, Invoke.Answers] at hans
    case outlives.cancelled =>
      rw [hinvoke] at hone
      exact ⟨_, _, hone, .timedOut hstate hopen hinvoke⟩
    case returns =>
      rw [hinvoke] at hone
      exact ⟨_, _, hone, .returned hstate hopen (by rw [hinvoke]; rfl)⟩
    case outlives.returns =>
      rw [hinvoke] at hone
      exact ⟨_, _, hone, .returned hstate hopen (by rw [hinvoke]; rfl)⟩

/-- A trial calls `invoke` at most once, and on its own candidate. -/
theorem Trial.sublist {d d' : Disp} {c : Candidate} {attempt : DispatchAttempt} {calls : List Call}
    (h : Trial env request d c attempt calls d') : (calls.map Call.candidate).Sublist [c] := by
  cases h <;> simp

theorem Trials.sublist {d d' : Disp} {cs : List Candidate} {attempts : List DispatchAttempt}
    {calls : List Call} (h : Trials env request d cs attempts calls d') :
    (calls.map Call.candidate).Sublist cs := by
  induction h with
  | nil => exact .slnil
  | cons hone _ ih =>
      rw [List.map_append]
      exact hone.sublist.append ih

/-! ## The loop -/

/-- What the loop leaves: the attempts end with the first success, whose
candidate is the winner, or there is no success and every candidate was tried. -/
def Tries.Ends (tries : Tries) (cs : List Candidate) : Prop :=
  match tries.winner with
  | none => tries.attempts.length = cs.length ∧ ∀ a ∈ tries.attempts, a.success = false
  | some (target, attempt) =>
      ∃ failed backend, tries.attempts = failed ++ [attempt] ∧ (∀ a ∈ failed, a.success = false) ∧
        attempt.success = true ∧ cs[failed.length]? = some (target, backend)

theorem Tries.Ends.length_le {tries : Tries} {cs : List Candidate} (h : tries.Ends cs) :
    tries.attempts.length ≤ cs.length := by
  obtain ⟨attempts, _ | ⟨target, won⟩⟩ := tries
  · exact h.1.le
  · obtain ⟨failed, backend, rfl, -, -, hget⟩ := h
    have hlt : failed.length < cs.length := (List.getElem?_eq_some_iff.1 hget).1
    rw [List.length_append, List.length_singleton]
    exact hlt

/-- Only the last attempt is a success. -/
theorem Tries.Ends.stops {tries : Tries} {cs : List Candidate} (h : tries.Ends cs) {i : ℕ}
    {attempt : DispatchAttempt} (hi : tries.attempts[i]? = some attempt)
    (hsuccess : attempt.success = true) : i + 1 = tries.attempts.length := by
  obtain ⟨attempts, _ | ⟨target, won⟩⟩ := tries
  · have hfail := h.2 attempt (List.mem_of_getElem? hi)
    rw [hsuccess] at hfail
    cases hfail
  · obtain ⟨failed, backend, rfl, hall, -, -⟩ := h
    have hlt := (List.getElem?_eq_some_iff.1 hi).1
    simp only [List.length_append, List.length_singleton] at hlt ⊢
    by_contra hne
    have hlt' : i < failed.length := by omega
    rw [List.getElem?_append_left hlt'] at hi
    have hfail := hall attempt (List.mem_of_getElem? hi)
    rw [hsuccess] at hfail
    cases hfail

theorem Tries.Ends.cons {tries : Tries} {c : Candidate} {cs : List Candidate}
    {attempt : DispatchAttempt} (h : tries.Ends cs) (hfail : attempt.success = false) :
    (tries.cons attempt).Ends (c :: cs) := by
  obtain ⟨attempts, _ | ⟨target, won⟩⟩ := tries
  · obtain ⟨hlength, hall⟩ := h
    exact ⟨by simpa [Tries.cons] using hlength, by simpa [Tries.cons, hfail] using hall⟩
  · obtain ⟨failed, backend, rfl, hall, hwon, hget⟩ := h
    exact ⟨attempt :: failed, backend, rfl, by simpa [hfail] using hall, hwon, by simpa using hget⟩

variable (env request) in
/-- **The loop.**  When every invoke answers, the candidates up to the first
success are tried as they should be. -/
theorem tryAll_trials (d : Disp) (cs : List Candidate)
    (hanswers : ∀ c ∈ cs, ∀ moment, (c.2.invoke moment c.1 request).Answers) :
    ∃ tries d', tryAll env request d cs = (.ok tries, d') ∧ tries.Ends cs ∧
      Trials env request d (cs.take tries.attempts.length) tries.attempts
        (callsOf env request d cs) d' := by
  induction cs generalizing d with
  | nil => exact ⟨{}, d, rfl, ⟨rfl, by simp⟩, .nil⟩
  | cons c cs ih =>
      obtain ⟨attempt, d₁, hone, htrial⟩ := tryOne_trial env request d c
        (hanswers c List.mem_cons_self)
      obtain ⟨target, backend⟩ := c
      dsimp only at hone
      rw [tryAll, callsOf, hone]
      dsimp only
      by_cases hsuccess : attempt.success = true
      · rw [if_pos hsuccess, if_pos hsuccess]
        refine ⟨_, d₁, rfl, ⟨[], backend, rfl, by simp, hsuccess, rfl⟩, ?_⟩
        simpa using Trials.cons htrial .nil
      · have hfail : attempt.success = false := by simpa using hsuccess
        rw [if_neg hsuccess, if_neg hsuccess]
        obtain ⟨tries, d₂, hrest, hends, htrials⟩ := ih d₁
          (fun c hc => hanswers c (List.mem_cons_of_mem _ hc))
        rw [hrest]
        exact ⟨tries.cons attempt, d₂, rfl, hends.cons hfail, .cons htrial htrials⟩

/-! ## The cache -/

variable (env request) in
/-- The cache holds a result for the request that has not expired at `now`. -/
def HoldsLive (resultCache : Option ResultCache) (now : ℚ) : Prop :=
  ∃ cache result expiresAt, resultCache = some cache ∧
    cache.store.get (cacheKey env request) = some (result, expiresAt) ∧ now ≤ expiresAt

variable (env request) in
/-- `_cached` finds a result exactly when the cache holds a live one, and marks
it as degraded. -/
theorem cached_live (d : Disp) :
    match (d.cached env request).1 with
    | none => ¬HoldsLive env request d.resultCache (env.clock d.reads)
    | some cached => HoldsLive env request d.resultCache (env.clock d.reads) ∧
        cached.success = true ∧ cached.degraded = true := by
  unfold Disp.cached HoldsLive
  cases d.resultCache with
  | none => simp
  | some cache =>
      simp only [ResultCache.get, Option.some.injEq]
      rcases hget : cache.store.get (cacheKey env request) with _ | ⟨result, expiresAt⟩
      · simp [hget]
      · by_cases hexpired : expiresAt < env.clock d.reads
        · simp [hexpired, hget]
        · simp [hexpired, hget, not_lt.1 hexpired]

variable (env request) in
/-- Without a success the result is a degraded one from the cache, or none. -/
theorem allFailed_degraded (d : Disp) (attempts : List DispatchAttempt) :
    ((allFailed env d request attempts).1.success = true →
        (allFailed env d request attempts).1.degraded = true) ∧
      ((allFailed env d request attempts).1.success = true ↔
        HoldsLive env request d.resultCache (env.clock d.reads)) := by
  have hspec := cached_live env request d
  unfold allFailed
  generalize d.cached env request = hit at hspec ⊢
  rcases hit with ⟨_ | cached, d₁⟩
  · simpa using hspec
  · obtain ⟨hlive, hsuccess, hdegraded⟩ := hspec
    simp [hlive, hsuccess, hdegraded]

variable (env request) in
theorem noCandidates_degraded (d : Disp) :
    ((noCandidates env d request).1.success = true →
        (noCandidates env d request).1.degraded = true) ∧
      ((noCandidates env d request).1.success = true ↔
        HoldsLive env request d.resultCache (env.clock d.reads)) := by
  have hspec := cached_live env request d
  unfold noCandidates
  generalize d.cached env request = hit at hspec ⊢
  rcases hit with ⟨_ | cached, d₁⟩
  · simpa using hspec
  · obtain ⟨hlive, hsuccess, hdegraded⟩ := hspec
    simp [hlive, hsuccess, hdegraded]

/-! ## The whole dispatch -/

variable (env request) in
/-- The calls of `invoke` that a dispatch makes. -/
def calls (d : Disp) (backends : List Backend) : List Call :=
  callsOf env request (selected env request d backends)
    ((candidatesOf env request d backends).take (d.config.maxRetries + 1))

variable (env request) in
/-- **The failover law** for a dispatch that returned `result` and left `d'`;
`tried` is the dispatcher when the last candidate had been tried. -/
structure FailsOver (d : Disp) (backends : List Backend) (result : DispatchResult)
    (d' tried : Disp) : Prop where
  /-- The attempts are the outcomes of the first candidates. -/
  trials : Trials env request (selected env request d backends)
    ((candidatesOf env request d backends).take result.attempts.length) result.attempts
    (calls env request d backends) tried
  /-- No candidate is invoked twice. -/
  once : ((calls env request d backends).map Call.candidate).Sublist
    ((candidatesOf env request d backends).take result.attempts.length)
  /-- There are at most `max_retries + 1` of them … -/
  budget : result.attempts.length ≤
    min (candidatesOf env request d backends).length (d.config.maxRetries + 1)
  /-- … the first success is the last of them … -/
  stops : ∀ (i : ℕ) (attempt : DispatchAttempt), result.attempts[i]? = some attempt →
    attempt.success = true → i + 1 = result.attempts.length
  /-- … and without a success none is left out. -/
  exhausts : (∀ attempt ∈ result.attempts, attempt.success = false) →
    result.attempts.length =
      min (candidatesOf env request d backends).length (d.config.maxRetries + 1)
  /-- The breakers are those the trials left. -/
  recorded : d'.breakers = tried.breakers
  /-- The result is a success of its own exactly when an attempt is. -/
  success : result.success = true ∧ result.degraded = false ↔
    ∃ attempt ∈ result.attempts, attempt.success = true
  /-- It has the target and the output of the attempt that succeeded. -/
  winner : ∀ (i : ℕ) (c : Candidate) (attempt : DispatchAttempt),
    (candidatesOf env request d backends)[i]? = some c → result.attempts[i]? = some attempt →
      attempt.success = true → result.target = some c.1 ∧ result.output = attempt.output
  /-- Otherwise it is degraded exactly when the cache holds a live result. -/
  fallback : (∀ attempt ∈ result.attempts, attempt.success = false) →
    (result.success = true ∧ result.degraded = true ↔
      HoldsLive env request d.resultCache (env.clock tried.reads))

theorem selected_config (d : Disp) (backends : List Backend) :
    (selected env request d backends).config = d.config := by
  have hsame : (select env d backends request).2.config = d.config := select_config d backends
  rwa [select_eq] at hsame

variable (env request) in
/-- Up to the end of the loop the cache is the one the dispatch started with. -/
theorem tryAll_resultCache (d : Disp) (backends : List Backend) (cs : List Candidate) :
    (tryAll env request (selected env request d backends) cs).2.resultCache = d.resultCache := by
  have hloop : (tryAll env request (selected env request d backends) cs).2.resultCache =
      (selected env request d backends).resultCache :=
    tryAll_keeps (fun _ _ _ _ => rfl) _ cs
  have hselect : (select env d backends request).2.resultCache = d.resultCache :=
    select_keeps (fun _ _ _ _ => rfl) d backends
  rw [select_eq] at hselect
  rw [hloop, hselect]

/-- The law, from what the loop leaves and what `dispatch` makes of it. -/
theorem failsOver_of_ends {d d' tried : Disp} {backends : List Backend} {result : DispatchResult}
    {tries : Tries}
    (hends : tries.Ends ((candidatesOf env request d backends).take (d.config.maxRetries + 1)))
    (htrials : Trials env request (selected env request d backends)
      (((candidatesOf env request d backends).take (d.config.maxRetries + 1)).take
        tries.attempts.length) tries.attempts (calls env request d backends) tried)
    (hattempts : result.attempts = tries.attempts) (hrecorded : d'.breakers = tried.breakers)
    (hresult : match tries.winner with
      | none => (result.success = true → result.degraded = true) ∧
          (result.success = true ↔ HoldsLive env request d.resultCache (env.clock tried.reads))
      | some (target, attempt) => result.success = true ∧ result.degraded = false ∧
          result.target = some target ∧ result.output = attempt.output) :
    FailsOver env request d backends result d' tried := by
  have hle := hends.length_le
  rw [List.length_take] at hle
  have htake : ((candidatesOf env request d backends).take (d.config.maxRetries + 1)).take
      tries.attempts.length = (candidatesOf env request d backends).take tries.attempts.length := by
    rw [List.take_take, Nat.min_eq_left (by omega)]
  rw [htake] at htrials
  rw [← hattempts] at htrials hle
  have hstops : ∀ (i : ℕ) (attempt : DispatchAttempt), result.attempts[i]? = some attempt →
      attempt.success = true → i + 1 = result.attempts.length := by
    intro i attempt hi hsuccess
    rw [hattempts] at hi ⊢
    exact hends.stops hi hsuccess
  obtain ⟨attempts, _ | ⟨target, won⟩⟩ := tries
  · obtain ⟨hlength, hall⟩ := hends
    obtain ⟨hdegraded, hlive⟩ := hresult
    dsimp only at hattempts hlength hall
    subst hattempts
    refine ⟨htrials, htrials.sublist, by omega, hstops, ?_, hrecorded, ?_, ?_, ?_⟩
    · intro _
      rw [hlength, List.length_take, Nat.min_comm]
    · constructor
      · rintro ⟨hsuccess, hnot⟩
        rw [hdegraded hsuccess] at hnot
        cases hnot
      · rintro ⟨attempt, hmem, hsuccess⟩
        rw [hall attempt hmem] at hsuccess
        cases hsuccess
    · intro i c attempt _ hi hsuccess
      rw [hall attempt (List.mem_of_getElem? hi)] at hsuccess
      cases hsuccess
    · intro _
      rw [← hlive]
      exact ⟨fun h => h.1, fun h => ⟨h, hdegraded h⟩⟩
  · obtain ⟨failed, backend, hfailed, hall, hwon, hget⟩ := hends
    obtain ⟨hsuccess, hnot, htarget, houtput⟩ := hresult
    dsimp only at hattempts hfailed
    subst hattempts
    have hmem : won ∈ result.attempts := by simp [hfailed]
    refine ⟨htrials, htrials.sublist, by omega, hstops, ?_, hrecorded, ?_, ?_, ?_⟩
    · intro hnone
      rw [hnone won hmem] at hwon
      cases hwon
    · exact iff_of_true ⟨hsuccess, hnot⟩ ⟨won, hmem, hwon⟩
    · intro i c attempt hc hi hattempt
      have hlast := hstops i attempt hi hattempt
      rw [hfailed, List.length_append, List.length_singleton] at hlast
      obtain rfl : i = failed.length := by omega
      obtain rfl : won = attempt := by simpa [hfailed] using hi
      have hc' :
          (candidatesOf env request d backends)[failed.length]? = some (target, backend) := by
        have hlt := (List.getElem?_eq_some_iff.1 hget).1
        rw [List.length_take] at hlt
        rwa [List.getElem?_take_of_lt (by omega)] at hget
      rw [hc] at hc'
      cases hc'
      exact ⟨htarget, houtput⟩
    · intro hnone
      rw [hnone won hmem] at hwon
      cases hwon

/-- A candidate belongs to one of the backends. -/
theorem backend_mem_of_candidatesOf {d : Disp} {backends : List Backend} {c : Candidate}
    (h : c ∈ candidatesOf env request d backends) : c.2 ∈ backends := by
  have hmem : c ∈ backends.flatMap (offered request d.reads) := by
    unfold candidatesOf at h
    split at h
    · obtain ⟨p, hp, rfl⟩ := List.mem_map.1 h
      exact (List.of_mem_zip (List.mem_filter.1 hp).1).1
    · exact h
  obtain ⟨backend, hbackend, hc⟩ := List.mem_flatMap.1 hmem
  unfold offered at hc
  split at hc
  · cases hc
  · obtain ⟨target, -, rfl⟩ := List.mem_map.1 hc
    exact hbackend

/-- **Failover.**  When every invoke returns an attempt or runs out of time, a
dispatch returns and obeys the failover law. -/
theorem dispatch_failsOver (env : Env) (request : DispatchRequest) (d : Disp)
    (backends : List Backend)
    (hanswers : ∀ backend ∈ backends, ∀ moment target,
      (backend.invoke moment target request).Answers) :
    ∃ result d' tried, dispatch env d backends request = (.ok result, d') ∧
      FailsOver env request d backends result d' tried := by
  obtain ⟨tries, tried, hloop, hends, htrials⟩ := tryAll_trials env request
    (selected env request d backends)
    ((candidatesOf env request d backends).take (d.config.maxRetries + 1))
    (fun c hc m => hanswers c.2 (backend_mem_of_candidatesOf (List.mem_of_mem_take hc)) m c.1)
  have hcache := tryAll_resultCache env request d backends
    ((candidatesOf env request d backends).take (d.config.maxRetries + 1))
  rw [hloop] at hcache
  dsimp only at hcache
  by_cases hnone : candidatesOf env request d backends = []
  · -- without candidates the loop does not run
    rw [hnone] at hloop
    obtain ⟨rfl, rfl⟩ : {} = tries ∧ selected env request d backends = tried := by
      simpa [tryAll] using hloop
    have hdegraded := noCandidates_degraded env request (selected env request d backends)
    have hspec := @noCandidates_spec env request (selected env request d backends)
    rw [hcache] at hdegraded
    refine ⟨_, _, selected env request d backends, ?_,
      failsOver_of_ends hends htrials hspec.1 hspec.2 hdegraded⟩
    simp only [dispatch, select_eq, hnone, if_true]
  · have htake : (candidatesOf env request d backends).take
        (min (candidatesOf env request d backends).length (d.config.maxRetries + 1)) =
        (candidatesOf env request d backends).take (d.config.maxRetries + 1) := by
      rw [Nat.min_comm, ← List.take_take, List.take_length]
    obtain ⟨attempts, _ | ⟨target, won⟩⟩ := tries
    · have hdegraded := allFailed_degraded env request tried attempts
      have hspec := @allFailed_spec env request tried attempts
      rw [hcache] at hdegraded
      refine ⟨(allFailed env tried request attempts).1, (allFailed env tried request attempts).2,
        tried, ?_, failsOver_of_ends hends htrials hspec.1 hspec.2 hdegraded⟩
      simp only [dispatch, select_eq, if_neg hnone, selected_config, htake, hloop]
    · let result : DispatchResult := {
        success := true, output := won.output, target := some target, attempts := attempts }
      refine ⟨result, tried.putCache env request result, tried, ?_,
        failsOver_of_ends hends htrials rfl (putCache_breakers _ _) ⟨rfl, rfl, rfl, rfl⟩⟩
      simp only [dispatch, select_eq, if_neg hnone, selected_config, htake, hloop, result]

/-- The first of two candidates runs out of time, and the second answers. -/
theorem dispatch_failsOver_second :
    ∃ result d' tried,
      dispatch stillEnv { config := {}, breakers := [], resultCache := none, reads := 0 }
        [oneTarget .docker (.outlives .cancelled),
          oneTarget .external (.returns {
            target := { kind := .external, agentType := "frontend" }, success := true })]
        { agentType := "frontend", task := "build" } = (.ok result, d') ∧
      FailsOver stillEnv { agentType := "frontend", task := "build" }
        { config := {}, breakers := [], resultCache := none, reads := 0 }
        [oneTarget .docker (.outlives .cancelled),
          oneTarget .external (.returns {
            target := { kind := .external, agentType := "frontend" }, success := true })]
        result d' tried := by
  refine dispatch_failsOver _ _ _ _ ?_
  intro backend hbackend moment target
  simp only [List.mem_cons, List.not_mem_nil, or_false] at hbackend
  obtain rfl | rfl := hbackend <;> trivial

end Dispatcher
end AgentSwarm
