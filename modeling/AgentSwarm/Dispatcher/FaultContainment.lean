import AgentSwarm.Dispatcher.Dispatcher

/-!
# Fault containment

A backend that raises or hangs should cost the dispatcher one failed attempt and
one failure on the target's breaker, and the next candidate should be tried.
`_try_one` awaits the invoke task a second time in each of its `except`
branches; a task that ended with an exception raises it again there, and the
exception leaves `dispatch` before any failure is recorded.

* `Contains`, `ContainsAll` — what containment asks of one candidate and of the
  loop over them.
* `FaultContained` — `dispatch` returns, and its attempts and breakers are those
  containment asks for.
* `started` — the invokes that are started, one after the other, until one
  succeeds.
* `faultContained_iff` — a dispatch is contained exactly when every started
  invoke is: it does not raise, nor does it raise or return a success when it is
  cancelled at its timeout.
-/

namespace AgentSwarm
namespace Dispatcher

variable (env : Env) (request : DispatchRequest)

/-! ## What containment asks for -/

/-- What one candidate should leave.  An open circuit is a failed attempt and
records nothing; a returned attempt is taken as it is and its outcome recorded;
an invoke that raised or timed out is one failed attempt and one recorded
failure. -/
def Contains (d : Disp) (c : Candidate) (attempt : DispatchAttempt) (d' : Disp) : Prop :=
  match d.checkState env c.1 with
  | (.opened, d) => attempt.success = false ∧ d' = d
  | (_, d) =>
      match c.2.invoke d.reads c.1 request with
      | .returns a => attempt = a ∧ d' = d.record env c.1 a.success
      | .raises _ => attempt.success = false ∧ d' = d.recordFailure env c.1
      | .outlives _ => attempt.success = false ∧ d' = d.recordFailure env c.1

/-- What the candidates should leave that are tried in order up to the first
success. -/
def ContainsAll : Disp → List Candidate → List DispatchAttempt → Disp → Prop
  | d, [], attempts, d' => attempts = [] ∧ d' = d
  | d, c :: cs, attempts, d'' =>
      ∃ attempt rest d', attempts = attempt :: rest ∧ Contains env request d c attempt d' ∧
        if attempt.success then rest = [] ∧ d'' = d' else ContainsAll d' cs rest d''

/-- The dispatch returns a result.  Its attempts and the breakers it leaves are
those that containment asks of the first `max_retries + 1` candidates. -/
def FaultContained (d : Disp) (backends : List Backend) : Prop :=
  ∃ result d' d'', dispatch env d backends request = (.ok result, d') ∧
    ContainsAll env request (select env d backends request).2
      ((select env d backends request).1.take (d.config.maxRetries + 1)) result.attempts d'' ∧
    d'.breakers = d''.breakers

/-! ## The condition -/

/-- The invoke ends with a successful attempt. -/
def Invoke.succeeds : Invoke → Bool
  | .returns attempt => attempt.success
  | .outlives (.returns attempt) => attempt.success
  | _ => false

/-- The invoke neither raises, nor raises or succeeds after its timeout. -/
def Invoke.Contained : Invoke → Prop
  | .returns _ => True
  | .raises _ => False
  | .outlives .cancelled => True
  | .outlives (.raises _) => False
  | .outlives (.returns attempt) => attempt.success = false

/-- The invokes that are started: a target with an open circuit has none, one
that does not succeed is a failure of its target, and the next one follows. -/
def started : Disp → List Candidate → List Invoke
  | _, [] => []
  | d, (target, backend) :: cs =>
      match d.checkState env target with
      | (.opened, d) => started d cs
      | (_, d) =>
          let invoke := backend.invoke d.reads target request
          invoke :: if invoke.succeeds then [] else started (d.recordFailure env target) cs

/-! ## One candidate -/

variable {env request}
variable {d d₁ : Disp} {state : CircuitState} {target : DispatchTarget} {backend : Backend}
  {attempt : DispatchAttempt} {cs : List Candidate}

/-- `_try_one` on a target whose circuit is open. -/
theorem tryOne_of_opened (h : d.checkState env target = (.opened, d₁)) :
    tryOne env request d target backend =
      (.ok { target := target, success := false, error := some "Circuit open" }, d₁) := by
  rw [tryOne, h]

variable (request backend) in
/-- `_try_one` on any other target: what it makes of each behaviour of the
invoke. -/
theorem tryOne_of_active (h : d.checkState env target = (state, d₁)) (hs : state ≠ .opened) :
    tryOne env request d target backend =
      match backend.invoke d₁.reads target request with
      | .returns attempt => (.ok attempt, d₁.record env target attempt.success)
      | .raises e => (.error e, d₁)
      | .outlives .cancelled =>
          (.ok { target := target, success := false
                 error := some ("Dispatch timed out after "
                   ++ env.floatStr (request.timeout.getD d₁.config.dispatchTimeout) ++ "s") },
            d₁.recordFailure env target)
      | .outlives (.raises e) => (.error e, d₁)
      | .outlives (.returns attempt) => (.ok attempt, d₁.record env target attempt.success) := by
  rw [tryOne, h]
  cases state
  case opened => exact absurd rfl hs
  all_goals
    dsimp only
    rcases backend.invoke d₁.reads target request with attempt | e | (_ | e | attempt)
    case raises => cases e <;> rfl
    case outlives.raises => cases e <;> rfl
    all_goals rfl

theorem contains_of_opened (h : d.checkState env target = (.opened, d₁)) (d' : Disp) :
    Contains env request d (target, backend) attempt d' ↔ attempt.success = false ∧ d' = d₁ := by
  simp only [Contains, h]

variable (request backend) in
theorem contains_of_active (h : d.checkState env target = (state, d₁)) (hs : state ≠ .opened)
    (d' : Disp) :
    Contains env request d (target, backend) attempt d' ↔
      match backend.invoke d₁.reads target request with
      | .returns a => attempt = a ∧ d' = d₁.record env target a.success
      | .raises _ => attempt.success = false ∧ d' = d₁.recordFailure env target
      | .outlives _ => attempt.success = false ∧ d' = d₁.recordFailure env target := by
  cases state
  case opened => exact absurd rfl hs
  all_goals simp only [Contains, h]

theorem started_of_opened (h : d.checkState env target = (.opened, d₁)) :
    started env request d ((target, backend) :: cs) = started env request d₁ cs := by
  rw [started, h]

theorem started_of_active (h : d.checkState env target = (state, d₁)) (hs : state ≠ .opened) :
    started env request d ((target, backend) :: cs) =
      backend.invoke d₁.reads target request ::
        if (backend.invoke d₁.reads target request).succeeds then []
        else started env request (d₁.recordFailure env target) cs := by
  cases state
  case opened => exact absurd rfl hs
  all_goals rw [started, h]

/-! ## The loop -/

variable (env request) in
/-- The loop over `cs` from `d` ends, with the attempts and the breakers that
containment asks for. -/
def LoopContained (d : Disp) (cs : List Candidate) : Prop :=
  ∃ tries d' d'', tryAll env request d cs = (.ok tries, d') ∧
    ContainsAll env request d cs tries.attempts d'' ∧ d'.breakers = d''.breakers

/-- An exception that leaves `_try_one` leaves the loop. -/
theorem not_loopContained_of_error {e : Exn}
    (hone : tryOne env request d target backend = (.error e, d₁)) :
    ¬ LoopContained env request d ((target, backend) :: cs) := by
  rintro ⟨tries, d', d'', htry, -⟩
  rw [tryAll, hone] at htry
  simp at htry

/-- After a failed attempt that is contained, the rest of the loop has to be. -/
theorem loopContained_cons_of_failed
    (hone : tryOne env request d target backend = (.ok attempt, d₁))
    (hfail : attempt.success = false)
    (hcontains : ∀ d', Contains env request d (target, backend) attempt d' ↔ d' = d₁) :
    LoopContained env request d ((target, backend) :: cs) ↔ LoopContained env request d₁ cs := by
  have htryAll : tryAll env request d ((target, backend) :: cs) =
      ((tryAll env request d₁ cs).1.map (·.cons attempt), (tryAll env request d₁ cs).2) := by
    rw [tryAll, hone]
    rcases hrest : tryAll env request d₁ cs with ⟨e | tries, d'⟩ <;>
      simp [hfail, hrest, Except.map]
  constructor
  · rintro ⟨tries, d', d'', htry, hall, hbreakers⟩
    rw [htryAll] at htry
    rcases hrest : tryAll env request d₁ cs with ⟨e | tries', d₂⟩
    · simp [hrest, Except.map] at htry
    · simp only [hrest, Except.map, Prod.mk.injEq, Except.ok.injEq] at htry
      obtain ⟨rfl, rfl⟩ := htry
      obtain ⟨a, rest, d₃, hcons, hone', hgo⟩ := hall
      obtain ⟨rfl, rfl⟩ := List.cons.inj hcons
      rw [hcontains] at hone'
      subst hone'
      simp only [hfail, Bool.false_eq_true, if_false] at hgo
      exact ⟨tries', d₂, d'', hrest, hgo, hbreakers⟩
  · rintro ⟨tries, d', d'', htry, hall, hbreakers⟩
    refine ⟨tries.cons attempt, d', d'', ?_, ?_, hbreakers⟩
    · simp only [htryAll, htry, Except.map]
    · refine ⟨attempt, tries.attempts, d₁, rfl, (hcontains d₁).2 rfl, ?_⟩
      simpa only [hfail, Bool.false_eq_true, if_false] using hall

/-- After a successful attempt the loop is over. -/
theorem loopContained_cons_of_success
    (hone : tryOne env request d target backend = (.ok attempt, d₁))
    (hsuccess : attempt.success = true) :
    LoopContained env request d ((target, backend) :: cs) ↔
      ∃ d', Contains env request d (target, backend) attempt d' ∧ d₁.breakers = d'.breakers := by
  have htryAll : tryAll env request d ((target, backend) :: cs) =
      (.ok { attempts := [attempt], winner := some (target, attempt) }, d₁) := by
    rw [tryAll, hone]
    simp only [hsuccess, if_true]
  constructor
  · rintro ⟨tries, d', d'', htry, hall, hbreakers⟩
    rw [htryAll] at htry
    obtain ⟨rfl, rfl⟩ : _ = tries ∧ d₁ = d' := by simpa using htry
    obtain ⟨a, rest, d₃, hcons, hone', hgo⟩ := hall
    obtain ⟨rfl, rfl⟩ := List.cons.inj hcons
    simp only [hsuccess, if_true, true_and] at hgo
    subst hgo
    exact ⟨d'', hone', hbreakers⟩
  · rintro ⟨d', hcontains, hbreakers⟩
    exact ⟨_, d₁, d', htryAll, ⟨attempt, [], d', rfl, hcontains, by simp [hsuccess]⟩, hbreakers⟩

/-- **The loop.**  It is contained exactly when every invoke it starts is. -/
theorem loopContained_iff (d : Disp) (cs : List Candidate) :
    LoopContained env request d cs ↔ ∀ invoke ∈ started env request d cs, invoke.Contained := by
  induction cs generalizing d with
  | nil =>
      simp only [started, List.not_mem_nil, false_implies, implies_true, iff_true]
      exact ⟨{}, d, d, rfl, ⟨rfl, rfl⟩, rfl⟩
  | cons c cs ih =>
      obtain ⟨target, backend⟩ := c
      rcases hstate : d.checkState env target with ⟨state, d₁⟩
      by_cases hopen : state = .opened
      · subst hopen
        rw [loopContained_cons_of_failed (tryOne_of_opened hstate) rfl
          (by simp [contains_of_opened hstate]), started_of_opened hstate, ih]
      · have hone := tryOne_of_active request backend hstate hopen
        have hcontains (a : DispatchAttempt) (d' : Disp) :
            Contains env request d (target, backend) a d' ↔ _ :=
          contains_of_active request backend hstate hopen d'
        rw [started_of_active hstate hopen]
        generalize backend.invoke d₁.reads target request = invoke at hone hcontains ⊢
        rcases invoke with a | e | (_ | e | a)
        case raises =>
            simpa [Invoke.Contained] using not_loopContained_of_error hone
        case outlives.raises =>
            simpa [Invoke.Contained] using not_loopContained_of_error hone
        case outlives.cancelled =>
            rw [loopContained_cons_of_failed hone rfl (by simp [hcontains]), ih]
            simp [Invoke.Contained, Invoke.succeeds]
        case returns =>
            by_cases ha : a.success = true
            · rw [loopContained_cons_of_success hone ha]
              simp [hcontains, Invoke.Contained, Invoke.succeeds, ha]
            · have hfail : a.success = false := by simpa using ha
              rw [loopContained_cons_of_failed hone hfail (by simp [hcontains]), ih]
              simp [Invoke.Contained, Invoke.succeeds, Disp.record, hfail]
        case outlives.returns =>
            by_cases ha : a.success = true
            · rw [loopContained_cons_of_success hone ha]
              simp [hcontains, Invoke.Contained, Invoke.succeeds, ha]
            · have hfail : a.success = false := by simpa using ha
              rw [loopContained_cons_of_failed hone hfail
                (by simp [hcontains, Disp.record, hfail]), ih]
              simp [Invoke.Contained, Invoke.succeeds, Disp.record, hfail]

/-! ## The whole dispatch -/

section Keeps

variable {α : Type} {f : Disp → α}
  (hf : ∀ d target breaker reads, f (Disp.setBreaker d target breaker reads) = f d)
include hf

theorem record_keeps (d : Disp) (target : DispatchTarget) (success : Bool) :
    f (d.record env target success) = f d := by
  cases success <;> exact hf _ _ _ _

/-- The health check changes breakers only. -/
theorem filterHealthy_keeps (d : Disp) (pairs : List Candidate) :
    f (filterHealthy env d pairs).2 = f d := by
  induction pairs generalizing d with
  | nil => rfl
  | cons c pairs ih =>
      obtain ⟨target, backend⟩ := c
      have hcheck : f (d.checkState env target).2 = f d := hf _ _ _ _
      rw [filterHealthy]
      generalize d.checkState env target = checked at hcheck ⊢
      obtain ⟨state, d₁⟩ := checked
      cases state
      case opened => exact (ih d₁).trans hcheck
      all_goals
        dsimp only
        rcases backend.healthCheck d₁.reads target with e | (_ | _) <;> exact (ih d₁).trans hcheck

/-- Trying a candidate changes breakers only. -/
theorem tryOne_keeps (d : Disp) (target : DispatchTarget) (backend : Backend) :
    f (tryOne env request d target backend).2 = f d := by
  have hcheck : f (d.checkState env target).2 = f d := hf _ _ _ _
  rcases hstate : d.checkState env target with ⟨state, d₁⟩
  rw [hstate] at hcheck
  by_cases hopen : state = .opened
  · subst hopen
    rw [tryOne_of_opened hstate]
    exact hcheck
  · rw [tryOne_of_active request backend hstate hopen]
    rcases backend.invoke d₁.reads target request with a | e | (_ | e | a)
    case outlives.cancelled => exact (record_keeps hf d₁ target false).trans hcheck
    case returns => exact (record_keeps hf d₁ target _).trans hcheck
    case outlives.returns => exact (record_keeps hf d₁ target _).trans hcheck
    all_goals exact hcheck

/-- The loop over the candidates changes breakers only. -/
theorem tryAll_keeps (d : Disp) (cs : List Candidate) : f (tryAll env request d cs).2 = f d := by
  induction cs generalizing d with
  | nil => rfl
  | cons c cs ih =>
      obtain ⟨target, backend⟩ := c
      have hone : f (tryOne env request d target backend).2 = f d := tryOne_keeps hf d target backend
      rw [tryAll]
      generalize tryOne env request d target backend = tried at hone ⊢
      obtain ⟨e | attempt, d₁⟩ := tried
      · exact hone
      · by_cases hsuccess : attempt.success = true
        · simpa only [hsuccess, if_true] using hone
        · have hrest := ih d₁
          simp only [hsuccess]
          generalize tryAll env request d₁ cs = tries at hrest ⊢
          obtain ⟨e | tries, d₂⟩ := tries <;> exact hrest.trans hone

theorem select_keeps (d : Disp) (backends : List Backend) :
    f (select env d backends request).2 = f d := by
  unfold select
  split
  · exact filterHealthy_keeps hf d _
  · rfl

end Keeps

theorem select_config (d : Disp) (backends : List Backend) :
    (select env d backends request).2.config = d.config :=
  select_keeps (fun _ _ _ _ => rfl) d backends

@[simp] theorem cached_breakers (d : Disp) : (d.cached env request).2.breakers = d.breakers := by
  unfold Disp.cached
  split <;> rfl

@[simp] theorem putCache_breakers (d : Disp) (result : DispatchResult) :
    (d.putCache env request result).breakers = d.breakers := by
  unfold Disp.putCache
  split <;> rfl

theorem cached_attempts {d : Disp} {cached : DispatchResult}
    (h : (d.cached env request).1 = some cached) : cached.attempts = [] := by
  unfold Disp.cached at h
  split at h
  · simp at h
  · obtain ⟨hit, -, rfl⟩ := Option.map_eq_some_iff.1 h
    rfl

/-- Without candidates the result has no attempts. -/
theorem noCandidates_spec (d : Disp) :
    (noCandidates env d request).1.attempts = [] ∧
      (noCandidates env d request).2.breakers = d.breakers := by
  have hattempts (cached : DispatchResult) (h : (d.cached env request).1 = some cached) :
      cached.attempts = [] := cached_attempts h
  have hbreakers : (d.cached env request).2.breakers = d.breakers := cached_breakers d
  unfold noCandidates
  generalize d.cached env request = hit at hattempts hbreakers ⊢
  rcases hit with ⟨_ | cached, d₁⟩
  · exact ⟨rfl, hbreakers⟩
  · exact ⟨hattempts cached rfl, hbreakers⟩

/-- Degraded or not, the result carries the attempts. -/
theorem allFailed_spec (d : Disp) (attempts : List DispatchAttempt) :
    (allFailed env d request attempts).1.attempts = attempts ∧
      (allFailed env d request attempts).2.breakers = d.breakers := by
  have hbreakers : (d.cached env request).2.breakers = d.breakers := cached_breakers d
  unfold allFailed
  generalize d.cached env request = hit at hbreakers ⊢
  rcases hit with ⟨_ | cached, d₁⟩
  · exact ⟨rfl, hbreakers⟩
  · exact ⟨rfl, hbreakers⟩

/-- What `dispatch` makes of the loop: an exception leaves it, and otherwise the
result carries the attempts of the loop, with the breakers it left. -/
theorem dispatch_of_tryAll {d d₁ : Disp} {backends : List Backend} {pairs : List Candidate}
    (hselect : select env d backends request = (pairs, d₁)) (hpairs : pairs ≠ []) :
    match tryAll env request d₁ (pairs.take (d.config.maxRetries + 1)) with
    | (.error e, d₂) => dispatch env d backends request = (.error e, d₂)
    | (.ok tries, d₂) => ∃ result d₃, dispatch env d backends request = (.ok result, d₃) ∧
        result.attempts = tries.attempts ∧ d₃.breakers = d₂.breakers := by
  have hconfig : d₁.config = d.config := by
    have hsame : (select env d backends request).2.config = d.config := select_config d backends
    rwa [hselect] at hsame
  have htake : pairs.take (min pairs.length (d.config.maxRetries + 1)) =
      pairs.take (d.config.maxRetries + 1) := by
    rw [Nat.min_comm, ← List.take_take, List.take_length]
  simp only [dispatch, hselect, if_neg hpairs, hconfig, htake]
  rcases tryAll env request d₁ (pairs.take (d.config.maxRetries + 1)) with
    ⟨e | ⟨attempts, _ | ⟨target, attempt⟩⟩, d₂⟩
  · rfl
  · exact ⟨_, _, rfl, allFailed_spec d₂ attempts⟩
  · exact ⟨_, _, rfl, rfl, putCache_breakers d₂ _⟩

/-- **Containment.**  A dispatch is contained exactly when no invoke it starts
raises, nor raises or returns a success when it is cancelled at its timeout. -/
theorem faultContained_iff (env : Env) (request : DispatchRequest) (d : Disp)
    (backends : List Backend) :
    FaultContained env request d backends ↔
      ∀ invoke ∈ started env request (select env d backends request).2
        ((select env d backends request).1.take (d.config.maxRetries + 1)), invoke.Contained := by
  rw [← loopContained_iff, FaultContained, LoopContained]
  rcases hselect : select env d backends request with ⟨pairs, d₁⟩
  by_cases hpairs : pairs = []
  · subst hpairs
    obtain ⟨hattempts, hbreakers⟩ : (noCandidates env d₁ request).1.attempts = [] ∧
        (noCandidates env d₁ request).2.breakers = d₁.breakers := noCandidates_spec d₁
    refine iff_of_true ⟨_, _, d₁, ?_, ⟨hattempts, rfl⟩, hbreakers⟩ ⟨{}, d₁, d₁, rfl, ⟨rfl, rfl⟩, rfl⟩
    simp only [dispatch, hselect, if_true]
  · have hdispatch := dispatch_of_tryAll hselect hpairs
    rcases htry : tryAll env request d₁ (pairs.take (d.config.maxRetries + 1)) with ⟨e | tries, d₂⟩
    · simp only [htry] at hdispatch
      simp [hdispatch]
    · simp only [htry] at hdispatch
      obtain ⟨result, d₃, hrun, hattempts, hbreakers⟩ := hdispatch
      constructor
      · rintro ⟨result', d', d'', hrun', hall, hsame⟩
        obtain ⟨rfl, rfl⟩ : result = result' ∧ d₃ = d' := by simpa [hrun] using hrun'
        exact ⟨tries, d₂, d'', rfl, hattempts ▸ hall, hbreakers.symm.trans hsame⟩
      · rintro ⟨tries', d', d'', htry', hall, hsame⟩
        obtain ⟨rfl, rfl⟩ : tries = tries' ∧ d₂ = d' := by simpa using htry'
        exact ⟨result, d₃, d'', hrun, hattempts.symm ▸ hall, hbreakers.trans hsame⟩

/-! ## A worker that refuses its connection -/

/-- A backend with one target, whose every invoke ends as given. -/
def oneTarget (kind : TargetKind) (invoke : Invoke) : Backend where
  candidates := fun _ agentType _ => .ok [{ kind := kind, agentType := agentType }]
  healthCheck := fun _ _ => .ok true
  invoke := fun _ _ _ => invoke

/-- A clock that stands still. -/
def stillEnv : Env := ⟨fun _ => 0, fun _ => "300.0", fun s => s⟩

/-- **One raising backend loses the dispatch.**  The pool's `checkout` raises in
the first backend; the second would have answered, but `dispatch` raises. -/
theorem raising_backend_not_contained :
    ¬ FaultContained stillEnv { agentType := "frontend", task := "build" }
      { config := {}, breakers := [], resultCache := none, reads := 0 }
      [oneTarget .docker (.raises (.other "docker daemon not reachable")),
       oneTarget .external (.returns {
          target := { kind := .external, agentType := "frontend" }, success := true })] := by
  rintro ⟨result, d', d'', hrun, -⟩
  have hraised := congrArg Prod.fst hrun
  cases hraised

end Dispatcher
end AgentSwarm
