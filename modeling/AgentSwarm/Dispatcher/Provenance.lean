import AgentSwarm.Dispatcher.Answers
import AgentSwarm.Dispatcher.Failover

/-!
# Where the output of a dispatch comes from

A dispatch looks at many candidates, fails over, and may fall back on its cache.  When it
succeeds with a container of the pool, its output has come all the way from an LLM.

* `Course` — an invoke with its worker, from the start of the worker to the attempt.
* `Served` — every call of a container takes such a course.
* `tryAll_winner`, `dispatch_winner` — a success that is not degraded is the attempt of a
  candidate.
* `dispatch_from_llm` — **the output is what an LLM has returned** that was given the task of
  the request.
-/

namespace AgentSwarm
namespace Dispatcher

/-- An invoke for a request.  Its message is the message `r` of the worker. -/
structure Course (request : DispatchRequest) where
  blocking : ℕ → Bool
  r : ℕ
  /-- What the worker has done before. -/
  before : List Worker.Event
  worker : Worker.Server
  events : List Handover.Event
  last : Handover.Sys
  started : Run.exec (Worker.step blocking) Worker.init before = some worker
  runs : Run.exec (Handover.step blocking r) (Handover.start worker) events = some last
  fresh : Run.Along (Handover.step blocking r) Handover.Fresh (Handover.start worker) events
  /-- The message blocks when there is no progress callback. -/
  mode : blocking r = !request.streaming
  /-- Its text is the task. -/
  asks : ∀ taskId text, .worker (.insert r taskId text) ∈ events → text = request.task

/-- The LLM of the worker was given the task of the request, and has returned the text. -/
def Course.Answered {request : DispatchRequest} (course : Course request) (text : String) : Prop :=
  ∃ taskId now, .worker (.insert course.r taskId request.task) ∈ course.events ∧
    .worker (.returns course.r text now) ∈ course.events

theorem Course.honest {request : DispatchRequest} (course : Course request) :
    Handover.Honest course.r course.events course.last :=
  Handover.honest_run course.started course.runs course.fresh

/-- Every call of a container that comes to its end has taken its course. -/
def Served (world : World) : Prop :=
  ∀ moment target request a2aTask error,
    world.worker moment target request = .ended a2aTask error →
      ∃ course : Course request, Handover.met course.last error = .ended a2aTask error

variable {env : Env} {request : DispatchRequest} {d d' : Disp} {target : DispatchTarget}
  {backend : Backend} {attempt : DispatchAttempt} {world : World}

/-! ## The attempt of a candidate -/

/-- A successful attempt is what the invoke has come to. -/
theorem tryOne_success (h : (tryOne env request d target backend).1 = .ok attempt)
    (hsuccess : attempt.success = true) :
    ∃ moment, (backend.invoke moment target request).waitFor = .ok attempt := by
  rcases hstate : d.checkState env target with ⟨state, d₁⟩
  by_cases hopen : state = .opened
  · subst hopen
    rw [tryOne_of_opened hstate] at h
    cases h
    cases hsuccess
  · refine ⟨d₁.reads, ?_⟩
    rw [tryOne_of_active request backend hstate hopen] at h
    rcases hinvoke : backend.invoke d₁.reads target request with a | e | (_ | e | a) <;>
      rw [hinvoke] at h <;> cases h
    · rfl
    · cases hsuccess
    · rfl

theorem tryAll_winner {cs : List Candidate} {tries : Tries}
    (h : (tryAll env request d cs).1 = .ok tries) (hwinner : tries.winner = some (target, attempt)) :
    attempt.success = true ∧ ∃ backend moment, (target, backend) ∈ cs ∧
      (backend.invoke moment target request).waitFor = .ok attempt := by
  induction cs generalizing d tries with
  | nil =>
      cases h
      cases hwinner
  | cons c cs ih =>
      obtain ⟨target', backend⟩ := c
      rw [tryAll] at h
      rcases hone : tryOne env request d target' backend with ⟨e | a, d₁⟩
      · rw [hone] at h
        cases h
      · rw [hone] at h
        dsimp only at h
        split at h
        · rename_i hsuccess
          cases h
          cases hwinner
          obtain ⟨moment, hinvoke⟩ := tryOne_success (congrArg Prod.fst hone) hsuccess
          exact ⟨hsuccess, backend, moment, List.mem_cons_self, hinvoke⟩
        · rcases hrest : tryAll env request d₁ cs with ⟨e | tries', d₂⟩
          · rw [hrest] at h
            cases h
          · rw [hrest] at h
            cases h
            obtain ⟨hsuccess, backend', moment, hmem, hinvoke⟩ :=
              ih (congrArg Prod.fst hrest) hwinner
            exact ⟨hsuccess, backend', moment, List.mem_cons_of_mem _ hmem, hinvoke⟩

/-- **A success that is not degraded** is that of a candidate. -/
theorem dispatch_winner {backends : List Backend} {result : DispatchResult}
    (h : dispatch env d backends request = (.ok result, d')) (hsuccess : result.success = true)
    (hown : result.degraded = false) :
    ∃ target backend moment attempt, (target, backend) ∈ candidatesOf env request d backends ∧
      (backend.invoke moment target request).waitFor = .ok attempt ∧ attempt.success = true ∧
      result.target = some target ∧ result.output = attempt.output := by
  unfold dispatch at h
  rw [select_eq] at h
  dsimp only at h
  split at h
  · cases h
    rw [(noCandidates_degraded env request _).1 hsuccess] at hown
    cases hown
  · rcases hall : tryAll env request (selected env request d backends)
      ((candidatesOf env request d backends).take
        (min (candidatesOf env request d backends).length
          ((selected env request d backends).config.maxRetries + 1)))
      with ⟨e | ⟨attempts, _ | ⟨target, attempt⟩⟩, d₁⟩ <;> rw [hall] at h
    · cases h
    · cases h
      rw [(allFailed_degraded env request _ _).1 hsuccess] at hown
      cases hown
    · cases h
      obtain ⟨hsucceeds, backend, moment, hmem, hinvoke⟩ :=
        tryAll_winner (congrArg Prod.fst hall) rfl
      exact ⟨target, backend, moment, attempt, List.mem_of_mem_take hmem, hinvoke, hsucceeds,
        rfl, rfl⟩

/-! ## The containers of the pool -/

/-- A candidate is one of those its backend has offered. -/
theorem offered_of_candidatesOf {backends : List Backend}
    (h : (target, backend) ∈ candidatesOf env request d backends) :
    backend ∈ backends ∧ ∃ targets,
      backend.candidates d.reads request.agentType request.agentId = .ok targets ∧
        target ∈ targets := by
  have hmem : (target, backend) ∈ backends.flatMap (offered request d.reads) := by
    unfold candidatesOf at h
    split at h
    · obtain ⟨p, hp, hc⟩ := List.mem_map.1 h
      rw [← hc]
      exact (List.of_mem_zip (List.mem_filter.1 hp).1).1
    · exact h
  obtain ⟨backend', hbackend, hc⟩ := List.mem_flatMap.1 hmem
  unfold offered at hc
  split at hc
  · cases hc
  · rename_i targets htargets
    obtain ⟨target', htarget, heq⟩ := List.mem_map.1 hc
    cases heq
    exact ⟨hbackend, targets, htargets, htarget⟩

theorem externalCandidates_kind {moment : ℕ} {agentType : String} {agentId : Option String}
    (h : target ∈ externalCandidates world moment agentType agentId) : target.kind = .external := by
  have hfound : ∀ agents : List AgentRecord,
      target ∈ agents.filterMap (foundTarget agentType) → target.kind = .external := by
    intro agents hmem
    obtain ⟨agent, -, hagent⟩ := List.mem_filterMap.1 hmem
    unfold foundTarget at hagent
    split at hagent
    · cases hagent
    · split at hagent <;> cases hagent
      rfl
  have hskill : target ∈ externalCandidates.bySkill world moment agentType →
      target.kind = .external := by
    unfold externalCandidates.bySkill
    split
    · exact hfound _
    · nofun
  unfold externalCandidates at h
  split at h
  · exact hskill h
  · split at h
    · exact hskill h
    · split at h
      · obtain rfl := List.mem_singleton.1 h
        rfl
      · cases h

/-- A container's success has its course behind it. -/
theorem answered_of_dockerInvoke (hserved : Served world) {moment : ℕ}
    (h : (dockerInvoke world moment target request).waitFor = .ok attempt)
    (hsuccess : attempt.success = true) :
    ∃ course : Course request, course.Answered attempt.output := by
  cases hcall : world.worker moment target request with
  | raises e =>
      rw [dockerInvoke, hcall] at h
      cases h
  | noContainer =>
      rw [dockerInvoke, hcall] at h
      cases h
      cases hsuccess
  | outlives =>
      rw [dockerInvoke, hcall] at h
      cases h
  | ended a2aTask error =>
      obtain ⟨course, hmet⟩ := hserved moment target request a2aTask error hcall
      obtain ⟨attempt', hreturns, htrue⟩ := course.honest.trueAnswer (@False.elim _)
        (hcall.trans hmet.symm)
      rw [hreturns] at h
      cases h
      obtain ⟨taskId, text, result, now, hsent, hreturned, houtput⟩ := htrue.success hsuccess
      rw [course.asks taskId text hsent] at hsent
      rw [houtput]
      exact ⟨course, taskId, now, hsent, hreturned⟩

/-- **The output of a dispatch comes from an LLM** that was given the task of the request, when
the dispatch succeeds with a container of the pool. -/
theorem dispatch_from_llm (env : Env) (world : World) (hserved : Served world)
    (request : DispatchRequest) (d d' : Disp) (result : DispatchResult)
    (h : dispatch env d (production world) request = (.ok result, d'))
    (hsuccess : result.success = true) (hown : result.degraded = false)
    (hdocker : ∀ target, result.target = some target → target.kind = .docker) :
    ∃ course : Course request, course.Answered result.output := by
  obtain ⟨target, backend, moment, attempt, hmem, hinvoke, hsucceeds, htarget, houtput⟩ :=
    dispatch_winner h hsuccess hown
  obtain ⟨hbackend, targets, htargets, hoffered⟩ := offered_of_candidatesOf hmem
  have hkind := hdocker target htarget
  rw [houtput]
  rw [production, List.mem_cons, List.mem_singleton] at hbackend
  rcases hbackend with rfl | rfl
  · exact answered_of_dockerInvoke hserved hinvoke hsucceeds
  · cases htargets
    rw [externalCandidates_kind hoffered] at hkind
    cases hkind

/-- A request with a progress callback. -/
def testerRequest : DispatchRequest where
  agentType := "tester"
  task := "write the tests"
  streaming := true

/-- An invoke that polls a worker until it has answered. -/
def testerCourse : Course testerRequest where
  blocking _ := false
  r := 0
  before := []
  worker := Worker.init
  events := Handover.polledTwice
  last := (Run.exec (Handover.step (fun _ => false) 0) (Handover.start Worker.init)
    Handover.polledTwice).get Handover.polledTwice_runs
  started := rfl
  runs := (Option.some_get Handover.polledTwice_runs).symm
  fresh := by decide +kernel
  mode := rfl
  asks taskId text hmem := by
    simp only [Handover.polledTwice, Handover.taken, List.cons_append, List.nil_append,
      List.mem_cons, List.not_mem_nil, Handover.Event.worker.injEq, reduceCtorEq, false_or,
      or_false, Worker.Event.insert.injEq] at hmem
    rcases hmem with ⟨-, -, htext⟩ | ⟨hr, -⟩
    · exact htext
    · cases hr

/-- A pool that serves this request, and has no container for any other. -/
def testerWorld : World where
  getAgent _ _ := .ok none
  findBySkill _ _ := .ok []
  adapters _ _ := none
  worker _ _ request :=
    if request.task = "write the tests" ∧ request.streaming = true then
      Handover.met testerCourse.last none
    else .noContainer

theorem testerWorld_served : Served testerWorld := by
  intro moment target request a2aTask error hcall
  simp only [testerWorld] at hcall
  split at hcall
  · rename_i hrequest
    obtain ⟨htask, hstreaming⟩ := hrequest
    have herror : error = none := by
      cases hcall
      rfl
    subst herror
    refine ⟨{ testerCourse with mode := ?_, asks := ?_ }, hcall⟩
    · rw [hstreaming]
      rfl
    · rw [htask]
      exact testerCourse.asks
  · cases hcall

theorem tester_from_llm :
    ∃ result d', dispatch stillEnv { config := {}, breakers := [], resultCache := none, reads := 0 }
        (production testerWorld) testerRequest = (.ok result, d') ∧ result.output = "done" ∧
      ∃ course : Course testerRequest, course.Answered result.output := by
  have hdone : (dispatch stillEnv { config := {}, breakers := [], resultCache := none, reads := 0 }
      (production testerWorld) testerRequest).1.toOption.map (fun result =>
        (result.success, result.degraded, result.target.map DispatchTarget.kind, result.output)) =
      some (true, false, some .docker, "done") := by decide +kernel
  obtain ⟨result, hresult, hfields⟩ := Option.map_eq_some_iff.1 hdone
  rcases hrun : dispatch stillEnv { config := {}, breakers := [], resultCache := none, reads := 0 }
    (production testerWorld) testerRequest with ⟨e | result', d'⟩ <;> rw [hrun] at hresult <;>
    cases hresult
  simp only [Prod.mk.injEq, Option.map_eq_some_iff] at hfields
  obtain ⟨hsuccess, hown, ⟨target, htarget, hkind⟩, houtput⟩ := hfields
  refine ⟨result, d', rfl, houtput, dispatch_from_llm _ testerWorld testerWorld_served _ _ _ _ hrun
    hsuccess hown fun target' htarget' => ?_⟩
  obtain rfl : target = target' := Option.some.inj (htarget.symm.trans htarget')
  exact hkind

end Dispatcher
end AgentSwarm
