import AgentSwarm.Dispatcher.Failover
import AgentSwarm.Resilience.Callers

/-!
# An outage

An agent goes down: whatever is sent to it fails.  Its breaker is to keep the
dispatcher from waiting for it over and over, and to let it back in when it is up.

* `Spaced`, `RarelyCalled` — calls that are far apart, and how many of them there can be.
* `Spent`, `Regained` — what calls that all fail, or all succeed, have done to a breaker.
* `Job`, `afterAll`, `callsIn` — dispatches made one after the other, and the calls of
  `invoke` they make.
* `Kept`, `afterAll_kept` — all that a dispatch does to a breaker is to check it and to record
  outcomes; what these preserve, a run of dispatches preserves.
* `calls_spaced` — **an agent that is down is called rarely.**
* `let_back_in` — **an agent that is up again is let back in.**

The clock of `Env` runs on between the dispatches as it likes.
-/

namespace AgentSwarm
namespace CircuitBreaker

variable {b : CircuitBreaker} {now start opened : ℚ} {times : List ℚ} {n : ℕ}

/-! ## Times that are far apart -/

/-- No two of the times are less than the timeout apart. -/
def Spaced (timeout : ℕ) (times : List ℚ) : Prop :=
  times.Pairwise fun s t => s + (timeout : ℚ) ≤ t

/-- There is not room for many of them. -/
theorem Spaced.length_le {timeout : ℕ} (h : Spaced timeout times)
    (hwithin : ∀ t ∈ times, start ≤ t ∧ t ≤ now) (hle : start ≤ now) :
    (times.length : ℚ) * timeout ≤ now - start + timeout := by
  have hpositive : (0 : ℚ) ≤ timeout := Nat.cast_nonneg timeout
  induction times generalizing start with
  | nil =>
      rw [List.length_nil, Nat.cast_zero, zero_mul]
      linarith
  | cons t times ih =>
      obtain ⟨hgap, hrest⟩ := List.pairwise_cons.1 h
      obtain ⟨hfrom, hto⟩ := hwithin t List.mem_cons_self
      cases times with
      | nil =>
          rw [List.length_singleton, Nat.cast_one, one_mul]
          linarith
      | cons u times =>
          have hnext : t + timeout ≤ now :=
            (hgap u List.mem_cons_self).trans
              (hwithin u (List.mem_cons_of_mem _ List.mem_cons_self)).2
          have hlength := ih hrest
            (fun v hv => ⟨hgap v hv, (hwithin v (List.mem_cons_of_mem _ hv)).2⟩) hnext
          rw [List.length_cons, Nat.cast_succ, add_mul, one_mul]
          linarith

/-! ## A breaker whose every call fails -/

/-- What the calls since `start`, made at `times` and all failed, have done to the breaker.
The calls at which it opens or reopens are those from the `failureThreshold`-th on. -/
structure Spent (failureThreshold timeout : ℕ) (start : ℚ) (b : CircuitBreaker) (now : ℚ)
    (times : List ℚ) : Prop where
  thresholds : b.failureThreshold = failureThreshold ∧ b.timeout = timeout
  began : start ≤ now
  past : ∀ t ∈ times, start ≤ t ∧ t ≤ now
  spaced : Spaced timeout (times.drop (failureThreshold - 1))
  /-- The latest outcomes of a closed breaker are these failures. -/
  closed : b.state = .closed → (times = [] ∨ times.length < failureThreshold) ∧
    List.replicate times.length false <:+ b.results.map Prod.snd
  opened : b.state = .opened → ∀ t ∈ times, t ≤ b.openedAt
  halfOpen : b.state = .halfOpen → ∀ t ∈ times, t + timeout ≤ now

theorem Spent.refl (b : CircuitBreaker) (now : ℚ) :
    Spent b.failureThreshold b.timeout now b now [] := by
  refine ⟨⟨rfl, rfl⟩, le_rfl, by simp, by simp [Spaced], fun _ => ⟨.inl rfl, ?_⟩, by simp, by simp⟩
  exact List.nil_suffix

variable {failureThreshold timeout : ℕ}

/-- Time passes. -/
theorem Spent.later (h : Spent failureThreshold timeout start b now times) {later : ℚ}
    (hlater : now ≤ later) : Spent failureThreshold timeout start b later times :=
  { h with
    began := h.began.trans hlater
    past := fun t ht => ⟨(h.past t ht).1, (h.past t ht).2.trans hlater⟩
    halfOpen := fun hstate t ht => (h.halfOpen hstate t ht).trans hlater }

theorem Spent.check (h : Spent failureThreshold timeout start b now times) :
    Spent failureThreshold timeout start (b.checkState now).2 now times := by
  have hmoved := checkState_moved (b := b) (c := .state now) rfl
  generalize (b.checkState now).2 = b' at hmoved ⊢
  cases hmoved with
  | halfOpen hc hopened hdue =>
      cases hc
      refine { h with closed := nofun, opened := nofun, halfOpen := fun _ t ht => ?_ }
      have hbefore := h.opened hopened t ht
      rw [h.thresholds.2] at hdue
      linarith
  | stays hc hnot => exact h
  | success hc hstate => cases hc
  | probe hc hstate hmore => cases hc
  | recover hc hstate henough => cases hc
  | failure hc hstate hfew => cases hc
  | trip hc hstate => cases hc
  | reset hc => cases hc

/-- A window keeps the failures it has room for. -/
theorem replicate_suffix_push (hsuffix : List.replicate n false <:+ b.results.map Prod.snd)
    (hroom : n < b.windowSize) (now : ℚ) :
    List.replicate (n + 1) false <:+ (b.push false now).results.map Prod.snd := by
  rw [push_results (by omega), Window.slide, Window.map_rtake, List.map_append]
  have hlonger : List.replicate (n + 1) false <:+
      b.results.map Prod.snd ++ [(now, false)].map Prod.snd := by
    obtain ⟨before, hbefore⟩ := hsuffix
    exact ⟨before, by rw [List.replicate_succ', ← List.append_assoc, hbefore]; rfl⟩
  refine List.suffix_of_suffix_length_le hlonger (List.drop_suffix _ _) ?_
  have hle := hlonger.length_le
  rw [List.length_replicate] at hle
  simp only [List.length_replicate, List.rtake, List.length_drop]
  omega

theorem le_countRecentFailures (hsuffix : List.replicate n false <:+ b.results.map Prod.snd) :
    n ≤ b.countRecentFailures := by
  have hle : (List.replicate n false).countP (fun ok => !ok) ≤
      (b.results.map Prod.snd).countP (fun ok => !ok) := hsuffix.sublist.countP_le
  rw [List.countP_map, List.countP_replicate] at hle
  simpa [countRecentFailures, Function.comp_def] using hle

/-- **One more failure.** -/
theorem Spent.failure (h : Spent failureThreshold timeout start b now times)
    (hactive : b.state ≠ .opened) (hopened : now ≤ opened) :
    Spent failureThreshold timeout start (b.recordFailure now opened) opened (times ++ [now]) := by
  have hpast : ∀ t ∈ times ++ [now], start ≤ t ∧ t ≤ opened := by
    intro t ht
    rcases List.mem_append.1 ht with ht | ht
    · exact ⟨(h.past t ht).1, (h.past t ht).2.trans hopened⟩
    · obtain rfl := List.mem_singleton.1 ht
      exact ⟨h.began, hopened⟩
  -- a closed breaker has had too few calls for the gap to matter, and a half-open one
  -- has waited for its timeout
  have hspaced : Spaced timeout ((times ++ [now]).drop (failureThreshold - 1)) := by
    cases hstate : b.state with
    | opened => exact absurd hstate hactive
    | closed =>
        have hshort : ((times ++ [now]).drop (failureThreshold - 1)).length ≤ 1 := by
          rcases (h.closed hstate).1 with rfl | hless
          · simp
          · simp only [List.length_drop, List.length_append, List.length_singleton]
            omega
        generalize (times ++ [now]).drop (failureThreshold - 1) = l at hshort
        rcases l with _ | ⟨t, _ | ⟨u, l⟩⟩
        · exact List.Pairwise.nil
        · exact List.pairwise_singleton _ t
        · simp only [List.length_cons] at hshort
          omega
    | halfOpen =>
        rw [List.drop_append]
        refine List.pairwise_append.2 ⟨h.spaced, ?_, ?_⟩
        · exact (List.pairwise_singleton _ _).sublist (List.drop_sublist _ _)
        · intro s hs t ht
          obtain rfl := List.mem_singleton.1 (List.mem_of_mem_drop ht)
          exact h.halfOpen hstate s (List.mem_of_mem_drop hs)
  have hmoved := after_moved b (.recordFailure now opened)
  have hafter : b.after (.recordFailure now opened) = b.recordFailure now opened := rfl
  rw [hafter] at hmoved
  generalize b.recordFailure now opened = b' at hmoved ⊢
  cases hmoved with
  | failure hc hstate hfew =>
      have hclosed : b.state = .closed := by
        cases hs : b.state with
        | closed => rfl
        | opened => exact absurd hs hactive
        | halfOpen => exact absurd hs hstate
      have hcount := hfew hclosed
      obtain ⟨hless, hsuffix⟩ := h.closed hclosed
      rw [h.thresholds.1] at hcount
      have hroom : times.length < b.windowSize := by
        have hwindow : b.windowSize = failureThreshold + b.successThreshold := by
          rw [windowSize, h.thresholds.1]
        rcases hless with rfl | hless
        · rw [List.length_nil]
          omega
        · omega
      have hmore := replicate_suffix_push hsuffix hroom
      refine ⟨h.thresholds, h.began.trans hopened, hpast, hspaced, fun _ => ?_, ?_, ?_⟩
      · rw [List.length_append, List.length_singleton]
        exact ⟨.inr ((le_countRecentFailures (hmore _)).trans_lt hcount), hmore _⟩
      · exact fun hs => absurd hs hactive
      · exact fun hs => absurd hs hstate
  | trip hc hwhy =>
      exact ⟨h.thresholds, h.began.trans hopened, hpast, hspaced, by simp,
        fun _ t ht => (hpast t ht).2, by simp⟩
  | success hc hstate => cases hc
  | probe hc hstate hmore => cases hc
  | recover hc hstate henough => cases hc
  | halfOpen hc hstate hdue => cases hc
  | stays hc hnot => cases hc
  | reset hc => cases hc

/-- Calls made at `times` between `start` and `stop` have cost little. -/
structure RarelyCalled (b : CircuitBreaker) (start stop : ℚ) (times : List ℚ) : Prop where
  /-- From the `failure_threshold`-th on, each call waits for the timeout. -/
  spaced : Spaced b.timeout (times.drop (b.failureThreshold - 1))
  /-- There are `failure_threshold` calls, and one for every timeout that passes. -/
  few : (times.length : ℚ) * b.timeout ≤
    stop - start + (max 1 b.failureThreshold : ℕ) * b.timeout

theorem Spent.rarelyCalled {b' : CircuitBreaker}
    (h : Spent b.failureThreshold b.timeout start b' now times) : RarelyCalled b start now times := by
  refine ⟨h.spaced, ?_⟩
  have hlate := h.spaced.length_le (fun t ht => h.past t (List.mem_of_mem_drop ht)) h.began
  have hearly : (times.length : ℚ) ≤
      (times.drop (b.failureThreshold - 1)).length + (max 1 b.failureThreshold - 1 : ℕ) := by
    rw [← Nat.cast_add, Nat.cast_le, List.length_drop]
    omega
  have hmax : ((max 1 b.failureThreshold - 1 : ℕ) : ℚ) + 1 = (max 1 b.failureThreshold : ℕ) := by
    rw [← Nat.cast_succ]
    congr 1
    omega
  have hscaled := mul_le_mul_of_nonneg_right hearly (Nat.cast_nonneg (α := ℚ) b.timeout)
  rw [← hmax, add_mul, one_mul]
  rw [add_mul] at hscaled
  linarith

/-! ## A breaker whose every call succeeds -/

/-- What `n` calls, all of them successful, have done to a breaker that lets them through. -/
structure Regained (successThreshold : ℕ) (b : CircuitBreaker) (now : ℚ) (n : ℕ) : Prop where
  threshold : b.successThreshold = successThreshold
  opened : b.state = .opened → n = 0 ∧ b.timeout ≤ now - b.openedAt
  halfOpen : b.state = .halfOpen →
    n ≤ b.halfOpenSuccesses ∧ (n = 0 ∨ b.halfOpenSuccesses < successThreshold)

variable {successThreshold : ℕ}

theorem Regained.later (h : Regained successThreshold b now n) {later : ℚ} (hlater : now ≤ later) :
    Regained successThreshold b later n :=
  { h with opened := fun hstate => ⟨(h.opened hstate).1, by linarith [(h.opened hstate).2]⟩ }

theorem Regained.check (h : Regained successThreshold b now n) :
    Regained successThreshold (b.checkState now).2 now n := by
  have hmoved := checkState_moved (b := b) (c := .state now) rfl
  generalize (b.checkState now).2 = b' at hmoved ⊢
  cases hmoved with
  | halfOpen hc hopened hdue =>
      obtain ⟨rfl, -⟩ := h.opened hopened
      exact ⟨h.threshold, nofun, fun _ => ⟨Nat.zero_le _, .inl rfl⟩⟩
  | stays hc hnot => exact h
  | success hc hstate => cases hc
  | probe hc hstate hmore => cases hc
  | recover hc hstate henough => cases hc
  | failure hc hstate hfew => cases hc
  | trip hc hstate => cases hc
  | reset hc => cases hc

/-- After `n` calls the breaker lets the next one through; enough of them have closed it. -/
structure LetIn (successThreshold : ℕ) (b : CircuitBreaker) (now : ℚ) (n : ℕ) : Prop where
  admits : (b.checkState now).1 ≠ .opened
  closes : n ≠ 0 → successThreshold ≤ n → b.state = .closed

theorem Regained.admits (h : Regained successThreshold b now n) :
    (b.checkState now).1 ≠ .opened := by
  rw [checkState]
  dsimp only
  split
  · intro hopened
    cases hopened
  · rename_i hnot
    exact fun hopened => hnot ⟨hopened, (h.opened hopened).2⟩

/-- **One more success.** -/
theorem Regained.success (h : Regained successThreshold b now n) (hactive : b.state ≠ .opened) :
    Regained successThreshold (b.recordSuccess now) now (n + 1) := by
  have hmoved := after_moved b (.recordSuccess now)
  have hafter : b.after (.recordSuccess now) = b.recordSuccess now := rfl
  rw [hafter] at hmoved
  generalize b.recordSuccess now = b' at hmoved ⊢
  cases hmoved with
  | success hc hstate =>
      exact ⟨h.threshold, fun hs => absurd hs hactive, fun hs => absurd hs hstate⟩
  | probe hc hstate hmore =>
      refine ⟨h.threshold, fun hs => absurd hs hactive, fun _ => ⟨?_, .inr ?_⟩⟩
      · exact Nat.succ_le_succ (h.halfOpen hstate).1
      · rwa [h.threshold] at hmore
  | recover hc hstate henough => exact ⟨h.threshold, nofun, nofun⟩
  | failure hc hstate hfew => cases hc
  | trip hc hstate => cases hc
  | halfOpen hc hstate hdue => cases hc
  | stays hc hnot => cases hc
  | reset hc => cases hc

theorem Regained.closes (h : Regained successThreshold b now n) (hsome : n ≠ 0)
    (henough : successThreshold ≤ n) : b.state = .closed := by
  cases hstate : b.state with
  | closed => rfl
  | opened => exact absurd (h.opened hstate).1 hsome
  | halfOpen =>
      obtain ⟨hless, hzero | hmore⟩ := h.halfOpen hstate
      · exact absurd hzero hsome
      · omega

theorem Regained.letIn (h : Regained successThreshold b now n) :
    LetIn successThreshold b now n := ⟨h.admits, h.closes⟩

end CircuitBreaker

namespace Dispatcher
namespace Outage

open CircuitBreaker (tried tryOne_records RarelyCalled Spent LetIn Regained)

/-- A request, and the backends that the dispatcher has when it comes. -/
structure Job where
  request : DispatchRequest
  backends : List Backend

variable (env : Env)

/-- The dispatcher after some dispatches. -/
def afterAll : Disp → List Job → Disp
  | d, [] => d
  | d, job :: jobs => afterAll (dispatch env d job.backends job.request).2 jobs

/-- The calls of `invoke` that the dispatches make. -/
def callsIn : Disp → List Job → List Call
  | _, [] => []
  | d, job :: jobs =>
      calls env job.request d job.backends ++
        callsIn (dispatch env d job.backends job.request).2 jobs

/-- The breaker under a key, a new one if there is none yet. -/
def breakerFor (d : Disp) (key : BreakerKey) : CircuitBreaker := (d.breakers.get key).getD {}

/-- Those of the calls that are made to the targets of one breaker. -/
def callsTo (key : BreakerKey) (calls : List Call) : List Call :=
  calls.filter fun call => breakerKey call.candidate.1 = key

/-- Every call to the targets of the breaker ends with the given outcome. -/
def Always (key : BreakerKey) (outcome : Bool) (jobs : List Job) : Prop :=
  ∀ job ∈ jobs, ∀ backend ∈ job.backends, ∀ target, breakerKey target = key →
    ∀ moment, tried (backend.invoke moment target job.request) = some outcome

/-! ## What a dispatch does to a breaker -/

/-- A relation of the calls made so far and the dispatcher that lasts: when a circuit is
looked at, when a call is made and its outcome recorded, and when anything else happens. -/
structure Kept (I : List Call → Disp → Prop) (jobs : List Job) : Prop where
  check : ∀ {L d}, I L d → ∀ target, I L (d.checkState env target).2
  call : ∀ {L d d₁ state}, I L d → ∀ job ∈ jobs, ∀ c : Candidate, c.2 ∈ job.backends →
    d.checkState env c.1 = (state, d₁) → state ≠ .opened →
      I (L ++ [{ candidate := c, moment := d₁.reads }])
        (match tried (c.2.invoke d₁.reads c.1 job.request) with
          | none => d₁
          | some success => d₁.record env c.1 success)
  later : ∀ {L d d'}, I L d → d'.breakers = d.breakers → d.reads ≤ d'.reads → I L d'

variable {env} {I : List Call → Disp → Prop} {jobs : List Job} {job : Job} {L : List Call}
  {d : Disp}

theorem tryOne_kept (h : Kept env I jobs) (hI : I L d) (hjob : job ∈ jobs) (c : Candidate)
    (hc : c.2 ∈ job.backends) :
    I (L ++ callOf env d c) (tryOne env job.request d c.1 c.2).2 := by
  rcases hstate : d.checkState env c.1 with ⟨state, d₁⟩
  by_cases hopen : state = .opened
  · subst hopen
    rw [callOf_of_opened hstate, tryOne_of_opened hstate, List.append_nil]
    have hchecked := h.check hI c.1
    rwa [hstate] at hchecked
  · rw [callOf_of_active hstate hopen, tryOne_records, hstate]
    have hcalled := h.call hI job hjob c hc hstate hopen
    cases state
    case opened => exact absurd rfl hopen
    all_goals exact hcalled

theorem tryAll_kept (h : Kept env I jobs) (hI : I L d) (hjob : job ∈ jobs) {cs : List Candidate}
    (hcs : ∀ c ∈ cs, c.2 ∈ job.backends) :
    I (L ++ callsOf env job.request d cs) (tryAll env job.request d cs).2 := by
  induction cs generalizing L d with
  | nil =>
      rw [callsOf, List.append_nil]
      exact hI
  | cons c cs ih =>
      have hone := tryOne_kept h hI hjob c (hcs c List.mem_cons_self)
      rw [callsOf, tryAll, ← List.append_assoc]
      rcases htry : tryOne env job.request d c.1 c.2 with ⟨e | attempt, d₁⟩
      · rw [htry] at hone
        dsimp only
        rwa [List.append_nil]
      · rw [htry] at hone
        dsimp only
        split
        · rwa [List.append_nil]
        · have hrest := ih hone fun c hc => hcs c (List.mem_cons_of_mem _ hc)
          rcases hall : tryAll env job.request d₁ cs with ⟨e | tries, d₂⟩ <;>
            rwa [hall] at hrest

theorem checkedAll_kept (h : Kept env I jobs) (hI : I L d) (cs : List Candidate) :
    I L (checkedAll env d cs) := by
  induction cs generalizing d with
  | nil => exact hI
  | cons c cs ih => exact ih (h.check hI c.1)

theorem selected_kept (h : Kept env I jobs) (hI : I L d) (request : DispatchRequest)
    (backends : List Backend) : I L (selected env request d backends) := by
  unfold selected
  split
  · exact checkedAll_kept h hI _
  · exact hI

/-! A look into the result cache reads the clock, and leaves the breakers alone. -/

variable (env) in
theorem reads_le_cached (request : DispatchRequest) (d : Disp) :
    d.reads ≤ (d.cached env request).2.reads := by
  unfold Disp.cached
  split
  · exact le_rfl
  · exact Nat.le_succ _

theorem reads_le_putCache (request : DispatchRequest) (d : Disp) (result : DispatchResult) :
    d.reads ≤ (d.putCache env request result).reads := by
  unfold Disp.putCache
  split
  · exact le_rfl
  · exact Nat.le_succ _

theorem reads_le_noCandidates (request : DispatchRequest) (d : Disp) :
    d.reads ≤ (noCandidates env d request).2.reads := by
  have hle := reads_le_cached env request d
  unfold noCandidates
  generalize d.cached env request = hit at hle ⊢
  rcases hit with ⟨_ | cached, d₁⟩ <;> exact hle

theorem reads_le_allFailed (request : DispatchRequest) (d : Disp)
    (attempts : List DispatchAttempt) :
    d.reads ≤ (allFailed env d request attempts).2.reads := by
  have hle := reads_le_cached env request d
  unfold allFailed
  generalize d.cached env request = hit at hle ⊢
  rcases hit with ⟨_ | cached, d₁⟩ <;> exact hle

/-- **One dispatch.** -/
theorem dispatch_kept (h : Kept env I jobs) (hI : I L d) (hjob : job ∈ jobs) :
    I (L ++ calls env job.request d job.backends)
      (dispatch env d job.backends job.request).2 := by
  have hselected := selected_kept h hI job.request job.backends
  have hbackends : ∀ c ∈ (candidatesOf env job.request d job.backends).take (d.config.maxRetries + 1),
      c.2 ∈ job.backends :=
    fun c hc => backend_mem_of_candidatesOf (List.mem_of_mem_take hc)
  have hloop := tryAll_kept h hselected hjob hbackends
  unfold dispatch calls
  rw [select_eq]
  dsimp only
  split
  · rename_i hnone
    rw [hnone, List.take_nil] at hloop ⊢
    rw [callsOf, List.append_nil] at hloop ⊢
    exact h.later hselected (noCandidates_spec _).2 (reads_le_noCandidates _ _)
  · rw [selected_config, Nat.min_comm, ← List.take_take, List.take_length]
    rcases hall : tryAll env job.request (selected env job.request d job.backends)
      ((candidatesOf env job.request d job.backends).take (d.config.maxRetries + 1))
      with ⟨e | ⟨attempts, _ | ⟨target, attempt⟩⟩, d₁⟩ <;> rw [hall] at hloop
    · exact hloop
    · exact h.later hloop (allFailed_spec d₁ attempts).2 (reads_le_allFailed _ _ _)
    · exact h.later hloop (putCache_breakers d₁ _) (reads_le_putCache _ _ _)

/-- **A run of dispatches.** -/
theorem afterAll_kept (h : Kept env I jobs) (hI : I L d) :
    I (L ++ callsIn env d jobs) (afterAll env d jobs) := by
  suffices hall : ∀ js, (∀ j ∈ js, j ∈ jobs) → ∀ {L d}, I L d →
      I (L ++ callsIn env d js) (afterAll env d js) from hall jobs (fun _ hj => hj) hI
  intro js
  induction js with
  | nil =>
      intro _ L d hI
      rwa [callsIn, List.append_nil, afterAll]
  | cons j js ih =>
      intro hjs L d hI
      rw [callsIn, afterAll, ← List.append_assoc]
      exact ih (fun j' hj' => hjs j' (List.mem_cons_of_mem _ hj'))
        (dispatch_kept h hI (hjs j List.mem_cons_self))

/-! ## The breaker of a target -/

variable {key : BreakerKey}

theorem breakerFor_setBreaker (d : Disp) (target : DispatchTarget) (breaker : CircuitBreaker)
    (reads : ℕ) :
    breakerFor (d.setBreaker target breaker reads) key =
      if breakerKey target = key then breaker else breakerFor d key := by
  unfold breakerFor Disp.setBreaker
  rw [Dict.get_set]
  by_cases h : breakerKey target = key
  · simp [h]
  · simp [h, Ne.symm h]

theorem checkState_reads (d : Disp) (target : DispatchTarget) :
    (d.checkState env target).2.reads = d.reads + 1 := rfl

theorem breakerFor_checkState (d : Disp) (target : DispatchTarget) :
    breakerFor (d.checkState env target).2 key =
      if breakerKey target = key then
        ((breakerFor d (breakerKey target)).checkState (env.clock d.reads)).2
      else breakerFor d key :=
  breakerFor_setBreaker _ _ _ _

variable (env) in
/-- The state that a check finds is the one it leaves. -/
theorem checkState_eq_state (d : Disp) (target : DispatchTarget) :
    (d.checkState env target).1 =
      (breakerFor (d.checkState env target).2 (breakerKey target)).state := by
  rw [breakerFor_checkState, if_pos rfl]
  rfl

/-- Recording an outcome takes one reading of the clock, or two. -/
theorem record_reads (d : Disp) (target : DispatchTarget) (success : Bool) :
    d.reads + 1 ≤ (d.record env target success).reads := by
  cases success
  · exact Nat.le_succ _
  · exact le_rfl

theorem breakerFor_record (d : Disp) (target : DispatchTarget) (success : Bool) :
    breakerFor (d.record env target success) key =
      if breakerKey target = key then
        (breakerFor d (breakerKey target)).record (some success) (env.clock d.reads)
          (env.clock (d.reads + 1))
      else breakerFor d key := by
  cases success <;> exact breakerFor_setBreaker _ _ _ _

/-- The calls to a breaker, with one more. -/
theorem callsTo_concat (L : List Call) (call : Call) :
    callsTo key (L ++ [call]) =
      if breakerKey call.candidate.1 = key then callsTo key L ++ [call] else callsTo key L := by
  unfold callsTo
  rw [List.filter_append, List.filter_singleton]
  split <;> simp_all

/-- When the calls to a breaker were made. -/
def timesOf (env : Env) (key : BreakerKey) (calls : List Call) : List ℚ :=
  (callsTo key calls).map fun call => env.clock call.moment

/-- **A relation to one breaker lasts** when its checks, its outcomes and time preserve it. -/
theorem kept_of_breaker (hclock : Monotone env.clock) {outcome : Bool}
    (halways : Always key outcome jobs) {P : CircuitBreaker → ℚ → List ℚ → Prop}
    (hcheck : ∀ {b now times}, P b now times → P (b.checkState now).2 now times)
    (hlater : ∀ {b now times later}, P b now times → now ≤ later → P b later times)
    (hcall : ∀ {b now times opened}, P b now times → b.state ≠ .opened → now ≤ opened →
      P (b.record (some outcome) now opened) opened (times ++ [now])) :
    Kept env (fun L d => P (breakerFor d key) (env.clock d.reads) (timesOf env key L)) jobs := by
  have hnext : ∀ n, env.clock n ≤ env.clock (n + 1) := fun n => hclock n.le_succ
  have hlook : ∀ {L : List Call} {d : Disp},
      P (breakerFor d key) (env.clock d.reads) (timesOf env key L) → ∀ target,
      P (breakerFor (d.checkState env target).2 key) (env.clock (d.checkState env target).2.reads)
        (timesOf env key L) := by
    intro L d hP target
    rw [checkState_reads, breakerFor_checkState]
    split
    · rename_i hkey
      subst hkey
      exact hlater (hcheck hP) (hnext _)
    · exact hlater hP (hnext _)
  refine ⟨hlook, ?_, ?_⟩
  · intro L d d₁ state hP job hjob c hc hstate hactive
    have hlooked := hlook hP c.1
    have hfound := checkState_eq_state env d c.1
    rw [hstate] at hlooked hfound
    by_cases hkey : breakerKey c.1 = key
    · rw [halways job hjob c.2 hc c.1 hkey]
      have hmine : timesOf env key (L ++ [{ candidate := c, moment := d₁.reads }]) =
          timesOf env key L ++ [env.clock d₁.reads] := by
        rw [timesOf, callsTo_concat, if_pos hkey, List.map_append, timesOf]
        rfl
      have hopened : (breakerFor d₁ key).state ≠ .opened := by
        rw [← hkey, ← hfound]
        exact hactive
      dsimp only
      rw [hmine, breakerFor_record, if_pos hkey, hkey]
      exact hlater (hcall hlooked hopened (hnext _)) (hclock (record_reads _ _ _))
    · have hothers : timesOf env key (L ++ [{ candidate := c, moment := d₁.reads }]) =
          timesOf env key L := by
        rw [timesOf, callsTo_concat, if_neg hkey, timesOf]
      rw [hothers]
      cases tried (c.2.invoke d₁.reads c.1 job.request) with
      | none => exact hlooked
      | some success =>
          dsimp only
          rw [breakerFor_record, if_neg hkey]
          exact hlater hlooked (hclock ((Nat.le_succ _).trans (record_reads _ _ _)))
  · intro L d d' hP hbreakers hreads
    have hsame : breakerFor d' key = breakerFor d key := by rw [breakerFor, hbreakers, breakerFor]
    rw [hsame]
    exact hlater hP (hclock hreads)

/-! ## The outage -/

/-- **An agent that is down is called rarely**, whatever is dispatched meanwhile, to it and
to others, and whatever its breaker has seen before. -/
theorem calls_spaced (env : Env) (hclock : Monotone env.clock) (key : BreakerKey) (jobs : List Job)
    (hdown : Always key false jobs) (d : Disp) :
    RarelyCalled (breakerFor d key) (env.clock d.reads) (env.clock (afterAll env d jobs).reads)
      (timesOf env key (callsIn env d jobs)) := by
  have hkept := kept_of_breaker hclock hdown
    (P := Spent (breakerFor d key).failureThreshold (breakerFor d key).timeout (env.clock d.reads))
    (fun h => h.check) (fun h => h.later) (fun h => h.failure)
  exact (afterAll_kept hkept (L := []) (Spent.refl _ _)).rarelyCalled

/-- A clock that reads one second later each time. -/
def secondsEnv : Env := ⟨fun n => n, fun _ => "300.0", fun s => s⟩

/-- Requests for the frontend agent, which has one container. -/
def frontendJobs (invoke : Invoke) (n : ℕ) : List Job :=
  List.replicate n {
    request := { agentType := "frontend", task := "build" }
    backends := [oneTarget .docker invoke] }

theorem always_frontendJobs {invoke : Invoke} {outcome : Bool} (h : tried invoke = some outcome)
    (n : ℕ) : Always (.docker, "frontend") outcome (frontendJobs invoke n) := by
  intro job hjob backend hbackend target _ moment
  obtain rfl := List.eq_of_mem_replicate hjob
  obtain rfl := List.mem_singleton.1 hbackend
  exact h

/-- Forty requests for an agent that never answers: five calls before the breaker opens, and
a sixth half a minute later. -/
theorem frontend_rarelyCalled :
    RarelyCalled {} 0
        (afterAll secondsEnv { config := {}, breakers := [], resultCache := none, reads := 0 }
          (frontendJobs (.outlives .cancelled) 40)).reads
        (timesOf secondsEnv (.docker, "frontend")
          (callsIn secondsEnv { config := {}, breakers := [], resultCache := none, reads := 0 }
            (frontendJobs (.outlives .cancelled) 40))) ∧
      (callsIn secondsEnv { config := {}, breakers := [], resultCache := none, reads := 0 }
        (frontendJobs (.outlives .cancelled) 40)).length = 6 :=
  ⟨calls_spaced secondsEnv Nat.mono_cast (.docker, "frontend") (frontendJobs (.outlives .cancelled) 40)
    (always_frontendJobs rfl 40) { config := {}, breakers := [], resultCache := none, reads := 0 },
    by decide +kernel⟩

/-- **An agent that is up again is let back in.**  Once the timeout of its breaker is over, no
dispatch finds it open, and `success_threshold` calls close it. -/
theorem let_back_in (env : Env) (hclock : Monotone env.clock) (key : BreakerKey) (jobs : List Job)
    (hup : Always key true jobs) (d : Disp)
    (hdue : (breakerFor d key).state = .opened →
      (breakerFor d key).timeout ≤ env.clock d.reads - (breakerFor d key).openedAt) :
    LetIn (breakerFor d key).successThreshold (breakerFor (afterAll env d jobs) key)
      (env.clock (afterAll env d jobs).reads) (timesOf env key (callsIn env d jobs)).length := by
  have hkept := kept_of_breaker hclock hup
    (P := fun b now times => Regained (breakerFor d key).successThreshold b now times.length)
    (fun h => h.check) (fun h => h.later) fun h hactive hopened => by
      rw [List.length_append, List.length_singleton]
      exact (h.success hactive).later hopened
  have hstart : Regained (breakerFor d key).successThreshold (breakerFor d key)
      (env.clock d.reads) 0 := ⟨rfl, fun hopened => ⟨rfl, hdue hopened⟩, fun _ => ⟨Nat.zero_le _, .inl rfl⟩⟩
  exact (afterAll_kept hkept (L := []) hstart).letIn

/-- A dispatcher whose breaker for the frontend agent opened half a minute ago. -/
def afterOutage : Disp where
  config := {}
  breakers := [((.docker, "frontend"), { state := .opened })]
  resultCache := none
  reads := 30

/-- The agent answers again: three calls close its breaker. -/
theorem frontend_letIn :
    (breakerFor (afterAll secondsEnv afterOutage (frontendJobs (.returns {
        target := { kind := .docker, agentType := "frontend" }, success := true }) 3))
      (.docker, "frontend")).state = .closed :=
  (let_back_in secondsEnv Nat.mono_cast (.docker, "frontend") (frontendJobs (.returns {
      target := { kind := .docker, agentType := "frontend" }, success := true }) 3)
    (always_frontendJobs rfl 3) afterOutage (fun _ => by decide +kernel)).closes
    (by decide +kernel) (by decide +kernel)

end Outage
end Dispatcher
end AgentSwarm
