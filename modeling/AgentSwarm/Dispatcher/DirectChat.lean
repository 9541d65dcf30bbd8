import AgentSwarm.Dispatcher.Backends
import AgentSwarm.Dispatcher.FaultContainment

/-!
# Direct chat

A direct chat names its agent, and should reach that agent only.  The backend of
the pool does not look at the name: unless its circuit is open it offers a worker,
and the worker is tried first.  And a failed dispatch is answered from the cache,
which does not know the agent either.

* `ReachesOnly`, `DirectOnly` — what is asked of a result, and of a dispatch.
* `OnlyAgentLeft` — the worker is dropped by the health check, and the agent
  succeeds or the cache has nothing for the request.
* `CheckoutRaises` — the worker is tried, and an exception leaves the dispatch.
* `directOnly_iff` — a direct chat **reaches its agent only** in exactly these
  cases.
-/

namespace AgentSwarm
namespace Dispatcher

variable (env : Env) (world : World)

/-! ## The property -/

/-- What a direct chat asks of its result: the attempts are at the agent, and a
success is one of them, with the output the agent has given. -/
structure ReachesOnly (agentId : AgentId) (request : DispatchRequest) (result : DispatchResult) :
    Prop where
  attempts : ∀ attempt ∈ result.attempts, attempt.target.agentId = some agentId.text
  answered : result.success = true → ∃ attempt ∈ result.attempts, attempt.success = true ∧
    attempt.output = result.output ∧ ∃ moment, Answers world moment agentId.text request result.output

/-- The result of the dispatch, if there is one, reaches the agent only. -/
def DirectOnly (d : Disp) (agentId : AgentId) (request : DispatchRequest) : Prop :=
  ∀ result d', dispatch env d (production world) request = (.ok result, d') →
    ReachesOnly world agentId request result

/-! ## The condition -/

/-- The record that the registry returns for the agent. -/
def registered (moment : ℕ) (agentId : AgentId) : Option AgentRecord :=
  match world.getAgent moment agentId.text with
  | .ok agent => agent
  | .error _ => none

/-- The state of the target's circuit at a reading of the clock. -/
def circuit (d : Disp) (target : DispatchTarget) (reading : ℕ) : CircuitState :=
  ((d.getBreaker target).checkState (env.clock reading)).1

/-- The cache has nothing for the request at a reading of the clock. -/
def Forgotten (d : Disp) (request : DispatchRequest) (reading : ℕ) : Prop :=
  ∀ cache, d.resultCache = some cache →
    (cache.get (cacheKey env request) (env.clock reading)).1 = none

/-- The health check is on and drops the worker, whose circuit is open.  If the
agent is left, it succeeds or the cache has nothing for the request; if not, the
cache has nothing. -/
def OnlyAgentLeft (d : Disp) (agentId : AgentId) (request : DispatchRequest) : Prop :=
  d.config.healthPrecheck = true ∧
    circuit env d (dockerTarget request.agentType) d.reads = .opened ∧
    match registered world d.reads agentId with
    | none => Forgotten env d request (d.reads + 1)
    | some agent =>
        let target := externalTarget request.agentType agentId.text agent
        if circuit env d target (d.reads + 1) ≠ .opened ∧
            externalHealthCheck world (d.reads + 2) target = true then
          (externalInvoke world (d.reads + 3) target request).succeeds = true ∨
            Forgotten env d request (d.reads + 5)
        else Forgotten env d request (d.reads + 2)

/-- The clock readings made before the first candidate is tried. -/
def readingsBefore (d : Disp) (agentId : AgentId) : ℕ :=
  if d.config.healthPrecheck then
    match registered world d.reads agentId with
    | none => 1
    | some _ => 2
  else 0

/-- The circuit of the worker is not open, and its `checkout` raises. -/
def CheckoutRaises (d : Disp) (agentId : AgentId) (request : DispatchRequest) : Prop :=
  circuit env d (dockerTarget request.agentType) d.reads ≠ .opened ∧
    ∃ e, world.worker (d.reads + readingsBefore world d agentId + 1)
      (dockerTarget request.agentType) request = .raises e

/-! ## Readings of one breaker -/

variable {env world}
variable {request : DispatchRequest} {agentId : AgentId} {d d₁ : Disp} {target : DispatchTarget}

/-- A circuit that is not open stays as it is. -/
theorem checkState_of_not_opened {b : CircuitBreaker} {now now' : ℚ}
    (h : (b.checkState now).1 ≠ .opened) :
    ((b.checkState now).2.checkState now').1 ≠ .opened := by
  have hstate : (b.checkState now).2.state ≠ .opened := h
  have hstays : ∀ b' : CircuitBreaker, b'.state ≠ .opened → (b'.checkState now').1 = b'.state := by
    intro b' hb'
    simp [CircuitBreaker.checkState, hb']
  rw [hstays _ hstate]
  exact hstate

theorem circuit_after_self (h : circuit env d target d.reads ≠ .opened) (reading : ℕ) :
    circuit env (d.checkState env target).2 target reading ≠ .opened := by
  have hbreaker : (d.checkState env target).2.getBreaker target =
      ((d.getBreaker target).checkState (env.clock d.reads)).2 := by
    simp [Disp.checkState, Disp.setBreaker, Disp.getBreaker]
  unfold circuit
  rw [hbreaker]
  exact checkState_of_not_opened h

theorem circuit_after_other {target' : DispatchTarget} (h : target.kind ≠ target'.kind)
    (reading : ℕ) :
    circuit env (d.checkState env target').2 target reading = circuit env d target reading := by
  have hkey : breakerKey target ≠ breakerKey target' := fun heq => h (congrArg Prod.fst heq)
  have hbreaker : (d.checkState env target').2.getBreaker target = d.getBreaker target := by
    simp [Disp.checkState, Disp.setBreaker, Disp.getBreaker, Dict.get_set_of_ne _ _ hkey]
  unfold circuit
  rw [hbreaker]

/-! ## The first candidate of a dispatch -/

/-- No exception leaves an invoke of the backend. -/
def Backend.Quiet (backend : Backend) : Prop :=
  ∀ moment target request e, backend.invoke moment target request ≠ .raises e ∧
    backend.invoke moment target request ≠ .outlives (.raises e)

theorem externalBackend_quiet : (externalBackend world).Quiet :=
  fun moment target request e => externalInvoke_ne_raises world moment target request e

theorem tryOne_of_quiet {backend : Backend} (h : backend.Quiet) (d : Disp)
    (target : DispatchTarget) :
    ∃ attempt d', tryOne env request d target backend = (.ok attempt, d') := by
  rcases hstate : d.checkState env target with ⟨state, d₁⟩
  by_cases hopen : state = .opened
  · subst hopen
    exact ⟨_, _, tryOne_of_opened hstate⟩
  · rw [tryOne_of_active request backend hstate hopen]
    have hquiet := h d₁.reads target request
    generalize backend.invoke d₁.reads target request = invoke at hquiet ⊢
    rcases invoke with a | e | (_ | e | a)
    case raises => exact absurd rfl (hquiet e).1
    case outlives.raises => exact absurd rfl (hquiet e).2
    all_goals exact ⟨_, _, rfl⟩

theorem tryAll_of_quiet {cs : List Candidate} (h : ∀ c ∈ cs, c.2.Quiet) (d : Disp) :
    ∃ tries d', tryAll env request d cs = (.ok tries, d') := by
  induction cs generalizing d with
  | nil => exact ⟨_, _, rfl⟩
  | cons c cs ih =>
      obtain ⟨target, backend⟩ := c
      obtain ⟨attempt, d₁, hone⟩ := @tryOne_of_quiet env request backend
        (h (target, backend) List.mem_cons_self) d target
      obtain ⟨tries, d₂, hrest⟩ := ih (fun c hc => h c (List.mem_cons_of_mem _ hc)) d₁
      rw [tryAll, hone]
      by_cases hsuccess : attempt.success = true
      · simp only [hsuccess, if_true]
        exact ⟨_, _, rfl⟩
      · simp only [hsuccess, hrest]
        exact ⟨_, _, rfl⟩

variable {backends : List Backend} {backend : Backend} {rest : List Candidate}
  {attempt : DispatchAttempt} {d₂ : Disp}

/-- The attempt at the first candidate is in the result. -/
theorem dispatch_of_first (hselect : select env d backends request = ((target, backend) :: rest, d₁))
    (hone : tryOne env request d₁ target backend = (.ok attempt, d₂))
    (hrest : ∀ c ∈ rest, c.2.Quiet) :
    ∃ result d', dispatch env d backends request = (.ok result, d') ∧
      attempt ∈ result.attempts := by
  have hloop := dispatch_of_tryAll hselect (List.cons_ne_nil _ _)
  have hquiet : ∀ c ∈ rest.take d.config.maxRetries, c.2.Quiet :=
    fun c hc => hrest c (List.mem_of_mem_take hc)
  obtain ⟨tries, d₃, htail⟩ := @tryAll_of_quiet env request _ hquiet d₂
  rw [List.take_succ_cons, tryAll, hone] at hloop
  by_cases hsuccess : attempt.success = true
  · simp only [hsuccess, if_true] at hloop
    obtain ⟨result, d', hrun, hattempts, -⟩ := hloop
    exact ⟨result, d', hrun, by simp [hattempts]⟩
  · simp only [hsuccess, Bool.false_eq_true, if_false, htail] at hloop
    obtain ⟨result, d', hrun, hattempts, -⟩ := hloop
    exact ⟨result, d', hrun, by simp [hattempts, Tries.cons]⟩

/-- An exception at the first candidate leaves the dispatch. -/
theorem dispatch_of_first_error {e : Exn}
    (hselect : select env d backends request = ((target, backend) :: rest, d₁))
    (hone : tryOne env request d₁ target backend = (.error e, d₂)) :
    dispatch env d backends request = (.error e, d₂) := by
  have hloop := dispatch_of_tryAll hselect (List.cons_ne_nil _ _)
  rw [List.take_succ_cons, tryAll, hone] at hloop
  exact hloop

/-! ## A worker is tried first -/

/-- The worker's attempt, if its `checkout` does not raise. -/
theorem tryOne_worker (h : ¬ (circuit env d (dockerTarget request.agentType) d.reads ≠ .opened ∧
      ∃ e, world.worker (d.reads + 1) (dockerTarget request.agentType) request = .raises e)) :
    ∃ attempt d', tryOne env request d (dockerTarget request.agentType) (dockerBackend world) =
        (.ok attempt, d') ∧ attempt.target = dockerTarget request.agentType := by
  rcases hstate : d.checkState env (dockerTarget request.agentType) with ⟨state, d₁⟩
  have hcircuit : circuit env d (dockerTarget request.agentType) d.reads = state :=
    congrArg Prod.fst hstate
  have hreads : d₁.reads = d.reads + 1 := (congrArg (Disp.reads ∘ Prod.snd) hstate).symm
  by_cases hopen : state = .opened
  · subst hopen
    exact ⟨_, _, tryOne_of_opened hstate, rfl⟩
  · rw [tryOne_of_active request (dockerBackend world) hstate hopen]
    simp only [dockerBackend, dockerInvoke, hreads]
    rcases hworker : world.worker (d.reads + 1) (dockerTarget request.agentType) request with
      e | _ | ⟨_ | task, error⟩ | _
    case raises =>
      refine absurd ⟨?_, e, hworker⟩ h
      rw [hcircuit]
      exact hopen
    all_goals exact ⟨_, _, rfl, rfl⟩

/-- A dispatch that tries the worker first reaches the agent only if it raises. -/
theorem directOnly_iff_of_worker
    (hselect : select env d (production world) request =
      ((dockerTarget request.agentType, dockerBackend world) :: rest, d₁))
    (hrest : ∀ c ∈ rest, c.2 = externalBackend world) :
    DirectOnly env world d agentId request ↔
      circuit env d₁ (dockerTarget request.agentType) d₁.reads ≠ .opened ∧
        ∃ e, world.worker (d₁.reads + 1) (dockerTarget request.agentType) request = .raises e := by
  constructor
  · intro hdirect
    by_contra h
    obtain ⟨attempt, d₂, hone, htarget⟩ := tryOne_worker h
    obtain ⟨result, d', hrun, hmem⟩ := dispatch_of_first hselect hone fun c hc =>
      (hrest c hc).symm ▸ externalBackend_quiet
    have hagent := (hdirect result d' hrun).attempts attempt hmem
    rw [htarget] at hagent
    cases hagent
  · rintro ⟨hcircuit, e, hraises⟩ result d' hrun
    rcases hstate : d₁.checkState env (dockerTarget request.agentType) with ⟨state, d₂⟩
    have hopen : state ≠ .opened := by
      rwa [← show circuit env d₁ (dockerTarget request.agentType) d₁.reads = state from
        congrArg Prod.fst hstate]
    have hreads : d₂.reads = d₁.reads + 1 := (congrArg (Disp.reads ∘ Prod.snd) hstate).symm
    have hinvoke : (dockerBackend world).invoke d₂.reads (dockerTarget request.agentType) request =
        .raises e := by
      simp only [dockerBackend, dockerInvoke, hreads, hraises]
    have hone := tryOne_of_active request (dockerBackend world) hstate hopen
    rw [hinvoke] at hone
    rw [dispatch_of_first_error hselect hone] at hrun
    cases hrun

/-! ## No candidate, or the agent alone -/

/-- Whether the cache has the request depends on the stored entries and the clock
only. -/
theorem forgotten_congr (h : d₁.resultCache = d.resultCache) (reading : ℕ) :
    Forgotten env d₁ request reading ↔ Forgotten env d request reading := by
  simp only [Forgotten, h]

theorem cached_eq_none_iff :
    (d.cached env request).1 = none ↔ Forgotten env d request d.reads := by
  unfold Disp.cached Forgotten
  cases hcache : d.resultCache with
  | none => simp
  | some cache => simp

/-- A cached result is a success. -/
theorem cached_success {cached : DispatchResult} (h : (d.cached env request).1 = some cached) :
    cached.success = true := by
  unfold Disp.cached at h
  split at h
  · cases h
  · obtain ⟨hit, -, rfl⟩ := Option.map_eq_some_iff.1 h
    rfl

/-- With no candidate left the result is the cached one, or a failure. -/
theorem directOnly_iff_of_none (hselect : select env d (production world) request = ([], d₁)) :
    DirectOnly env world d agentId request ↔ Forgotten env d₁ request d₁.reads := by
  have hdispatch : dispatch env d (production world) request =
      (.ok (noCandidates env d₁ request).1, (noCandidates env d₁ request).2) := by
    simp only [dispatch, hselect, if_true]
  have hattempts := (@noCandidates_spec env request d₁).1
  rw [← cached_eq_none_iff]
  rcases hcached : d₁.cached env request with ⟨_ | cached, d₂⟩
  · refine iff_of_true ?_ rfl
    rintro result d' hrun
    simp only [hdispatch, noCandidates, hcached, Prod.mk.injEq, Except.ok.injEq] at hrun
    obtain ⟨rfl, -⟩ := hrun
    exact ⟨by simp, by simp⟩
  · refine iff_of_false ?_ (by simp)
    intro hdirect
    have hsuccess : (noCandidates env d₁ request).1.success = true := by
      simp only [noCandidates, hcached]
      exact cached_success (congrArg Prod.fst hcached)
    obtain ⟨attempt, hmem, -⟩ := (hdirect _ _ hdispatch).answered hsuccess
    rw [hattempts] at hmem
    cases hmem

/-- An attempt that the adapter's backend returns is about the agent, and a success
has the agent's output. -/
theorem answers_of_externalInvoke {moment : ℕ} (hagent : target.agentId = some agentId.text)
    (h : externalInvoke world moment target request = .returns attempt ∨
      externalInvoke world moment target request = .outlives (.returns attempt)) :
    attempt.target = target ∧
      (attempt.success = true → Answers world moment agentId.text request attempt.output) := by
  unfold externalInvoke adapterOf at h
  simp only [hagent, Option.bind_some] at h
  cases hadapter : world.adapters moment agentId.text with
  | none =>
      simp only [hadapter] at h
      rcases h with h | h <;> cases h
      simp
  | some adapter =>
      simp only [hadapter, AdapterCall.invoke] at h
      rcases hcall : adapter.invoke moment request with result | text | (_ | text | result) <;>
        simp only [hcall] at h <;> rcases h with h | h <;> cases h
      case some.returns.inl.refl =>
        exact ⟨rfl, fun hsuccess => ⟨adapter, result, hadapter, hsuccess, rfl, .inl hcall⟩⟩
      case some.outlives.returns.inr.refl =>
        exact ⟨rfl, fun hsuccess => ⟨adapter, result, hadapter, hsuccess, rfl, .inr hcall⟩⟩
      all_goals exact ⟨rfl, fun hsuccess => by cases hsuccess⟩

/-- The agent is tried: what comes of it. -/
theorem tryOne_agent (hagent : target.agentId = some agentId.text)
    (hcircuit : circuit env d target d.reads ≠ .opened) :
    ∃ attempt d', tryOne env request d target (externalBackend world) = (.ok attempt, d') ∧
      attempt.target = target ∧ d'.resultCache = d.resultCache ∧
      attempt.success = (externalInvoke world (d.reads + 1) target request).succeeds ∧
      (attempt.success = true → Answers world (d.reads + 1) agentId.text request attempt.output) ∧
      (attempt.success = false → d'.reads = d.reads + 3) := by
  rcases hstate : d.checkState env target with ⟨state, d₁⟩
  have hopen : state ≠ .opened := by
    rwa [← show circuit env d target d.reads = state from congrArg Prod.fst hstate]
  have hreads : d₁.reads = d.reads + 1 := (congrArg (Disp.reads ∘ Prod.snd) hstate).symm
  have hcache : d₁.resultCache = d.resultCache :=
    (congrArg (Disp.resultCache ∘ Prod.snd) hstate).symm
  have hrecord : ∀ success, (d₁.record env target success).resultCache = d.resultCache ∧
      (success = false → (d₁.record env target success).reads = d.reads + 3) := by
    intro success
    cases success <;>
      simp [Disp.record, Disp.recordFailure, Disp.recordSuccess, Disp.setBreaker, hcache, hreads]
  rw [tryOne_of_active request (externalBackend world) hstate hopen]
  have hanswers : ∀ attempt, _ → _ := fun attempt =>
    @answers_of_externalInvoke world request agentId target attempt (d.reads + 1) hagent
  have hquiet := externalInvoke_ne_raises world (d.reads + 1) target request
  simp only [externalBackend, hreads]
  generalize externalInvoke world (d.reads + 1) target request = invoke at hanswers hquiet ⊢
  rcases invoke with attempt | e | (_ | e | attempt)
  case raises => exact absurd rfl (hquiet e).1
  case outlives.raises => exact absurd rfl (hquiet e).2
  case outlives.cancelled =>
    exact ⟨_, _, rfl, rfl, (hrecord false).1, rfl, by simp, fun _ => (hrecord false).2 rfl⟩
  case returns =>
    obtain ⟨htarget, hanswered⟩ := hanswers attempt (.inl rfl)
    exact ⟨_, _, rfl, htarget, (hrecord _).1, rfl, hanswered, (hrecord _).2⟩
  case outlives.returns =>
    obtain ⟨htarget, hanswered⟩ := hanswers attempt (.inr rfl)
    exact ⟨_, _, rfl, htarget, (hrecord _).1, rfl, hanswered, (hrecord _).2⟩

/-- A dispatch with one candidate. -/
theorem dispatch_of_single (hselect : select env d backends request = ([(target, backend)], d₁))
    (hone : tryOne env request d₁ target backend = (.ok attempt, d₂)) :
    ∃ d', dispatch env d backends request = (.ok (if attempt.success then
        { success := true, output := attempt.output, target := some target, attempts := [attempt] }
      else (allFailed env d₂ request [attempt]).1), d') := by
  have htake : [(target, backend)].take
      (min [(target, backend)].length (d₁.config.maxRetries + 1)) = [(target, backend)] := by simp
  by_cases hsuccess : attempt.success = true
  · simp only [dispatch, hselect, htake, tryAll, hone, hsuccess]
    exact ⟨_, rfl⟩
  · simp only [dispatch, hselect, htake, tryAll, hone, hsuccess]
    exact ⟨_, rfl⟩

/-- With the agent alone, the result is its output, the cached result, or a
failure. -/
theorem directOnly_iff_of_agent (hagent : target.agentId = some agentId.text)
    (hselect : select env d (production world) request = ([(target, externalBackend world)], d₁))
    (hcircuit : circuit env d₁ target d₁.reads ≠ .opened) :
    DirectOnly env world d agentId request ↔
      (externalInvoke world (d₁.reads + 1) target request).succeeds = true ∨
        Forgotten env d₁ request (d₁.reads + 3) := by
  obtain ⟨attempt, d₂, hone, htarget, hcache, hsucceeds, hanswered, hreads⟩ :=
    @tryOne_agent env world request agentId d₁ target hagent hcircuit
  obtain ⟨d', hdispatch⟩ := dispatch_of_single hselect hone
  have hagent' : attempt.target.agentId = some agentId.text := by rw [htarget, hagent]
  rw [← hsucceeds]
  cases hsuccess : attempt.success with
  | true =>
      refine iff_of_true ?_ (.inl rfl)
      rintro result d'' hrun
      simp only [hdispatch, hsuccess, if_true, Prod.mk.injEq, Except.ok.injEq] at hrun
      obtain ⟨rfl, -⟩ := hrun
      exact ⟨by simpa using hagent', fun _ => ⟨attempt, by simp, hsuccess, rfl, _,
        hanswered hsuccess⟩⟩
  | false =>
      simp only [hsuccess, Bool.false_eq_true, if_false] at hdispatch
      rw [← forgotten_congr hcache, ← hreads hsuccess, ← cached_eq_none_iff]
      simp only [Bool.false_eq_true, false_or]
      rcases hcached : d₂.cached env request with ⟨_ | cached, d₃⟩
      · refine iff_of_true ?_ rfl
        rintro result d'' hrun
        simp only [hdispatch, allFailed, hcached, Prod.mk.injEq, Except.ok.injEq] at hrun
        obtain ⟨rfl, -⟩ := hrun
        exact ⟨by simpa using hagent', by simp⟩
      · refine iff_of_false ?_ (by simp)
        intro hdirect
        have hdegraded : (allFailed env d₂ request [attempt]).1.success = true := by
          simp only [allFailed, hcached]
          exact cached_success (congrArg Prod.fst hcached)
        obtain ⟨attempt', hmem, hsuccess', -⟩ := (hdirect _ _ hdispatch).answered hdegraded
        rw [(allFailed_spec d₂ [attempt]).1, List.mem_singleton] at hmem
        rw [hmem, hsuccess] at hsuccess'
        cases hsuccess'

/-! ## The candidates of a direct chat -/

variable (world) in
/-- What the agent's backend offers for a direct chat. -/
def agentPairs (moment : ℕ) (agentId : AgentId) (request : DispatchRequest) : List Candidate :=
  match registered world moment agentId with
  | none => []
  | some agent => [(externalTarget request.agentType agentId.text agent, externalBackend world)]

/-- A direct chat has the worker as its first candidate. -/
theorem resolve_production (hrequest : request.agentId = some agentId.text) (moment : ℕ) :
    resolve moment request (production world) =
      (dockerTarget request.agentType, dockerBackend world) ::
        agentPairs world moment agentId request := by
  rcases hget : world.getAgent moment agentId.text with e | (_ | agent) <;>
    simp [resolve, production, dockerBackend, externalBackend, externalCandidates, agentPairs,
      registered, hrequest, hget, agentId.nonempty]

theorem filterHealthy_of_opened {pairs : List Candidate}
    (h : circuit env d target d.reads = .opened) :
    filterHealthy env d ((target, backend) :: pairs) =
      filterHealthy env (d.checkState env target).2 pairs := by
  rcases hstate : d.checkState env target with ⟨state, d₁⟩
  obtain rfl : state = .opened := (congrArg Prod.fst hstate).symm.trans h
  rw [filterHealthy, hstate]

theorem filterHealthy_of_active {pairs : List Candidate} {healthy : Bool}
    (h : circuit env d target d.reads ≠ .opened)
    (hhealthy : backend.healthCheck (d.reads + 1) target = .ok healthy) :
    filterHealthy env d ((target, backend) :: pairs) =
      ((if healthy then [(target, backend)] else []) ++
        (filterHealthy env (d.checkState env target).2 pairs).1,
        (filterHealthy env (d.checkState env target).2 pairs).2) := by
  rcases hstate : d.checkState env target with ⟨state, d₁⟩
  have hopen : state ≠ .opened := by
    rwa [← show circuit env d target d.reads = state from congrArg Prod.fst hstate]
  have hreads : d₁.reads = d.reads + 1 := (congrArg (Disp.reads ∘ Prod.snd) hstate).symm
  rw [filterHealthy, hstate]
  cases state
  case opened => exact absurd rfl hopen
  all_goals
    dsimp only
    rw [hreads, hhealthy]
    cases healthy <;> simp

/-- The agent stays a candidate if its circuit is not open and it is healthy. -/
theorem filterHealthy_agent (target : DispatchTarget) (d : Disp) :
    filterHealthy env d [(target, externalBackend world)] =
      (if circuit env d target d.reads ≠ .opened ∧
          externalHealthCheck world (d.reads + 1) target = true then
        [(target, externalBackend world)] else [], (d.checkState env target).2) := by
  by_cases hopen : circuit env d target d.reads = .opened
  · rw [filterHealthy_of_opened hopen]
    simp [filterHealthy, hopen]
  · rw [filterHealthy_of_active hopen rfl]
    simp [filterHealthy, hopen]

/-- The agent's candidate, filtered: it may be dropped, and its circuit has been
read. -/
theorem filterHealthy_agentPairs (moment : ℕ) (d : Disp) :
    (∀ c ∈ (filterHealthy env d (agentPairs world moment agentId request)).1,
        c.2 = externalBackend world) ∧
      (∀ reading, circuit env (filterHealthy env d (agentPairs world moment agentId request)).2
        (dockerTarget request.agentType) reading =
          circuit env d (dockerTarget request.agentType) reading) ∧
      (filterHealthy env d (agentPairs world moment agentId request)).2.reads =
        d.reads + match registered world moment agentId with | none => 0 | some _ => 1 := by
  unfold agentPairs
  cases registered world moment agentId with
  | none => simp [filterHealthy]
  | some agent =>
      dsimp only
      rw [filterHealthy_agent]
      refine ⟨?_, fun reading => circuit_after_other (by simp [dockerTarget, externalTarget]) _, rfl⟩
      intro c hc
      split at hc <;> simp_all

/-! ## Every direct chat -/

@[simp] theorem checkState_reads : (d.checkState env target).2.reads = d.reads + 1 := rfl

/-- The health check drops the worker. -/
theorem directOnly_iff_of_dropped (hrequest : request.agentId = some agentId.text)
    (hprecheck : d.config.healthPrecheck = true)
    (hopen : circuit env d (dockerTarget request.agentType) d.reads = .opened) :
    DirectOnly env world d agentId request ↔ OnlyAgentLeft env world d agentId request := by
  have hselect : select env d (production world) request =
      filterHealthy env (d.checkState env (dockerTarget request.agentType)).2
        (agentPairs world d.reads agentId request) := by
    simp only [select, resolve_production hrequest, hprecheck, if_true]
    exact filterHealthy_of_opened hopen
  unfold agentPairs at hselect
  simp only [OnlyAgentLeft, hprecheck, hopen, true_and]
  cases hagent : registered world d.reads agentId with
  | none =>
      simp only [hagent, filterHealthy] at hselect
      rw [directOnly_iff_of_none hselect]
      exact forgotten_congr rfl _
  | some agent =>
      have hother (reading : ℕ) : circuit env (d.checkState env (dockerTarget request.agentType)).2
          (externalTarget request.agentType agentId.text agent) reading =
            circuit env d (externalTarget request.agentType agentId.text agent) reading :=
        circuit_after_other (by simp [dockerTarget, externalTarget]) reading
      simp only [hagent, filterHealthy_agent, checkState_reads, hother] at hselect
      dsimp only
      split
      · rename_i hleft
        rw [if_pos hleft] at hselect
        rw [directOnly_iff_of_agent rfl hselect]
        · exact or_congr Iff.rfl (forgotten_congr rfl _)
        · refine circuit_after_self ?_ _
          rw [hother]
          exact hleft.1
      · rename_i hleft
        rw [if_neg hleft] at hselect
        rw [directOnly_iff_of_none hselect]
        exact forgotten_congr rfl _

/-- The health check keeps the worker. -/
theorem directOnly_iff_of_kept (hrequest : request.agentId = some agentId.text)
    (hprecheck : d.config.healthPrecheck = true)
    (hopen : circuit env d (dockerTarget request.agentType) d.reads ≠ .opened) :
    DirectOnly env world d agentId request ↔ CheckoutRaises env world d agentId request := by
  have hselect : select env d (production world) request = filterHealthy env d
      ((dockerTarget request.agentType, dockerBackend world) ::
        agentPairs world d.reads agentId request) := by
    simp only [select, resolve_production hrequest, hprecheck, if_true]
  rw [filterHealthy_of_active hopen rfl] at hselect
  obtain ⟨hrest, hcircuit, hreads⟩ := @filterHealthy_agentPairs env world request agentId d.reads
    (d.checkState env (dockerTarget request.agentType)).2
  have hnow (reading : ℕ) : circuit env (d.checkState env (dockerTarget request.agentType)).2
      (dockerTarget request.agentType) reading ≠ .opened := circuit_after_self hopen reading
  rw [directOnly_iff_of_worker hselect hrest, hcircuit, hreads]
  simp only [CheckoutRaises, hopen, hnow, ne_eq, not_false_eq_true, true_and, readingsBefore,
    hprecheck, if_true, checkState_reads]
  cases registered world d.reads agentId <;> rfl

/-- The dispatch of a request that names an agent. -/
theorem directOnly_iff_of_agentId (hrequest : request.agentId = some agentId.text) :
    DirectOnly env world d agentId request ↔
      OnlyAgentLeft env world d agentId request ∨ CheckoutRaises env world d agentId request := by
  by_cases hprecheck : d.config.healthPrecheck = true
  · by_cases hopen : circuit env d (dockerTarget request.agentType) d.reads = .opened
    · have hraises : ¬ CheckoutRaises env world d agentId request := fun h => h.1 hopen
      rw [directOnly_iff_of_dropped hrequest hprecheck hopen, or_iff_left hraises]
    · have hleft : ¬ OnlyAgentLeft env world d agentId request := fun h => hopen h.2.1
      rw [directOnly_iff_of_kept hrequest hprecheck hopen, or_iff_right hleft]
  · have hselect : select env d (production world) request =
        ((dockerTarget request.agentType, dockerBackend world) ::
          agentPairs world d.reads agentId request, d) := by
      simp only [select, resolve_production hrequest, hprecheck]
      rfl
    have hleft : ¬ OnlyAgentLeft env world d agentId request := fun h => hprecheck h.1
    have hrest : ∀ c ∈ agentPairs world d.reads agentId request, c.2 = externalBackend world := by
      unfold agentPairs
      intro c hc
      split at hc <;> simp_all
    rw [directOnly_iff_of_worker hselect hrest, or_iff_right hleft]
    simp [CheckoutRaises, readingsBefore, hprecheck]

/-- **Direct chat.**  The result of a direct chat reaches its agent only, if and
only if the health check drops the worker of the pool, and then the agent succeeds
or the cache has nothing for the request; or the worker is tried and its `checkout`
raises, so that there is no result. -/
theorem directOnly_iff (env : Env) (world : World) (d : Disp) (card : AgentCard)
    (agentId : AgentId) (task taskId workDir : String) :
    DirectOnly env world d agentId (directChat card agentId task taskId workDir) ↔
      OnlyAgentLeft env world d agentId (directChat card agentId task taskId workDir) ∨
        CheckoutRaises env world d agentId (directChat card agentId task taskId workDir) :=
  directOnly_iff_of_agentId rfl

/-! ## An agent that is down -/

/-- The agent `down` is registered and its adapter raises; the pool has a worker. -/
def downWorld : World where
  getAgent _ id := .ok (if id = "down" then some ⟨some "down", some "http://down:9001"⟩ else none)
  findBySkill _ _ := .ok []
  adapters _ id := if id = "down" then some ⟨fun _ _ => .raises "boom", fun _ => .ok true⟩ else none
  worker _ _ _ := .ended (some ⟨"t1", "completed", some "written by a worker"⟩) none

/-- **A worker answers for the agent.**  The chat with an agent that is down
succeeds with the output of a container. -/
theorem worker_answers_direct_chat :
    ¬ DirectOnly stillEnv downWorld
      { config := {}, breakers := [], resultCache := none, reads := 0 } ⟨"down", by decide⟩
      (directChat ⟨["x"], some "Down Agent"⟩ ⟨"down", by decide⟩ "hi" "3f2a91bc" "/work") := by
  intro h
  have hreaches := (h _ _ rfl).attempts _ List.mem_cons_self
  cases hreaches

end Dispatcher
end AgentSwarm
