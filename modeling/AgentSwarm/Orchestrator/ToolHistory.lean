import AgentSwarm.Orchestrator.Execute

/-!
# Histories with tool calls

`execute` leaves a response with unanswered calls in its list when a `finalize`
is accepted before another call, and when a tool raises; two calls with one id
get two answers.  The list is looked at again, by the LLM or by the save of
`run_orchestration`, unless nothing of the run is saved.

* `KeepsWellFormed` — every list passed to the LLM, and the list saved, is well
  formed.
* `looked` — whether the list is looked at after the calls of a response.
* `Outside.AnswersCalls` — the condition: where it is, the answered calls of the
  response cover all of them.
* `covered_of_goOn`, `not_covered_of_raised` — what that comes to where the loop
  over the calls is not left early, and where a tool raises.
* `keepsWellFormed_iff` — **the lists are well formed exactly then.**
-/

namespace AgentSwarm
namespace Orchestrator

/-- Every list passed to the LLM, and the one saved, is well formed. -/
structure KeepsWellFormed (session : Option History) (outcome : Outcome) : Prop where
  passed : ∀ ms ∈ outcome.passed, WellFormed ms
  saved : ∀ ms, savedMessages session outcome = some ms → WellFormed ms

/-- After the calls of a response, the list is passed to the LLM again, unless
this was the last iteration, or it is saved: with a session, unless a
cancellation ended the run, or an error in a session that had no messages. -/
def looked (session : Option History) (last : Bool) : CallsEnd → Bool
  | .goOn => !last || session.isSome
  | .finalized => session.isSome
  | .raised => session.any fun h => h.messages ≠ []
  | .cancelled => false

/-- The condition on the last `n` iterations: where the list is looked at after
the calls of a response, the calls that got a tool message cover them all. -/
def Outside.AnswersCalls (out : Outside) (session : Option History) : ℕ → Prop
  | 0 => True
  | n + 1 =>
      let i := maxIterations - (n + 1)
      match out.completion i with
      | .reply _ calls =>
          (looked session (n == 0) (out.callsEnd i 0 calls) →
            Covered calls (out.answered i 0 calls)) ∧
          (calls ≠ [] → out.callsEnd i 0 calls = .goOn → out.AnswersCalls session n)
      | _ => True

variable {out : Outside} {session : Option History} {i : ℕ}

/-! ## What the condition comes to -/

/-- When nothing ends the loop over the calls early, their ids have to differ. -/
theorem covered_of_goOn {calls : List ToolCall} (h : out.callsEnd i 0 calls = .goOn) :
    Covered calls (out.answered i 0 calls) ↔ (calls.map ToolCall.id).Nodup := by
  rw [answered_of_goOn h]
  exact ⟨Covered.distinct, fun hids => ⟨hids, fun call hcall => List.mem_map_of_mem hcall⟩⟩

theorem answered_ne_of_raised {j : ℕ} {calls : List ToolCall}
    (h : out.callsEnd i j calls = .raised) : out.answered i j calls ≠ calls := by
  induction calls generalizing j with
  | nil => cases h
  | cons call calls ih =>
      cases hstop : out.stopsAt i j call with
      | none =>
          rw [Outside.callsEnd, hstop, Option.getD_none] at h
          simp only [Outside.answered, hstop, ne_eq, List.cons.injEq, true_and]
          exact ih h
      | some e =>
          rw [Outside.callsEnd, hstop, Option.getD_some] at h
          subst h
          simp [Outside.answered, hstop]

/-- A tool that raises leaves a call unanswered, whatever the other calls are. -/
theorem not_covered_of_raised {calls : List ToolCall} (hids : (calls.map ToolCall.id).Nodup)
    (h : out.callsEnd i 0 calls = .raised) : ¬ Covered calls (out.answered i 0 calls) := by
  rw [covered_iff_of_nodup (answered_initial 0 calls) hids]
  exact answered_ne_of_raised h

/-! ## One iteration -/

theorem wellFormed_beforeCall (s : Turn) (i : ℕ) :
    WellFormed (s.beforeCall i).messages ↔ WellFormed s.messages := by
  unfold Turn.beforeCall
  split
  · exact wellFormed_append_user s.messages forceFinalize
  · rfl

/-- **One response.**  After its calls, the list is well formed exactly when the
answered ones cover them. -/
theorem wellFormed_runCalls (out : Outside) (i : ℕ) {s : Turn} (h : WellFormed s.messages)
    (content : Option String) (calls : List ToolCall) :
    WellFormed (out.runCalls i 0 calls (s.append (.assistant content calls))).1.messages ↔
      Covered calls (out.answered i 0 calls) := by
  obtain ⟨-, replies, hreplies, hmessages⟩ :=
    out.runCalls_spec (i := i) 0 calls (s.append (.assistant content calls))
  rw [covered_iff_count (answered_initial 0 calls).subset, ← hreplies,
    ← wellFormed_turn h content calls replies, hmessages, Turn.append, List.append_assoc]
  rfl

/-- The list passed in an iteration comes first. -/
theorem passed_head (out : Outside) (n : ℕ) (s : Turn) :
    (s.beforeCall (maxIterations - (n + 1))).messages ∈ (out.iterate (n + 1) s).passed := by
  rw [Outside.iterate]
  split
  · simp
  · simp
  · simp
  · dsimp only
    split
    · simp
    · unfold afterCalls
      split <;> simp

/-- Nothing repairs a list that is looked at. -/
theorem not_keepsWellFormed {n : ℕ} {s : Turn} (h : ¬ WellFormed s.messages)
    (hlooked : looked session (n == 0) .goOn = true) :
    ¬ KeepsWellFormed session (out.iterate n s) := by
  intro hkeeps
  cases n with
  | zero =>
      obtain ⟨hist, rfl⟩ := Option.isSome_iff_exists.1 (by simpa [looked] using hlooked)
      exact h (hkeeps.saved s.messages rfl)
  | succ n => exact h ((wellFormed_beforeCall s _).1 (hkeeps.passed _ (passed_head out n s)))

/-- An iteration that ends the run. -/
theorem keepsWellFormed_last {s t : Turn} (hs : WellFormed s.messages) (e : Exit) :
    KeepsWellFormed session ⟨[s.messages], t, e⟩ ↔
      ∀ ms, savedMessages session ⟨[s.messages], t, e⟩ = some ms → WellFormed ms :=
  ⟨KeepsWellFormed.saved, fun h => ⟨by simpa using hs, h⟩⟩

theorem keepsWellFormed_of_wellFormed {s t : Turn} (hs : WellFormed s.messages)
    (ht : WellFormed t.messages) (e : Exit) : KeepsWellFormed session ⟨[s.messages], t, e⟩ := by
  rw [keepsWellFormed_last hs]
  intro ms hms
  obtain ⟨h, -, hms⟩ := Option.bind_eq_some_iff.1 hms
  cases e with
  | returned =>
      cases hms
      exact ht
  | raised =>
      cases hms
      dsimp only
      split
      · trivial
      · exact ht
  | cancelled => cases hms

/-- An iteration after which the run goes on. -/
theorem keepsWellFormed_cons {s : Turn} (hs : WellFormed s.messages) (rest : Outcome) :
    KeepsWellFormed session { rest with passed := s.messages :: rest.passed } ↔
      KeepsWellFormed session rest :=
  ⟨fun h => ⟨fun ms hms => h.passed ms (List.mem_cons_of_mem _ hms), h.saved⟩,
    fun h => ⟨List.forall_mem_cons.2 ⟨hs, h.passed⟩, h.saved⟩⟩

/-- **One response, exactly.**  What the calls of a response leave is well formed
where it is looked at, and the rest of the run keeps its lists well formed. -/
theorem keepsWellFormed_reply {n : ℕ} {s t : Turn} (e : CallsEnd) (hs : WellFormed s.messages)
    (ih : WellFormed t.messages →
      (KeepsWellFormed session (out.iterate n t) ↔ out.AnswersCalls session n)) :
    KeepsWellFormed session (afterCalls s.messages t (out.iterate n t) e) ↔
      (looked session (n == 0) e → WellFormed t.messages) ∧
        (e = .goOn → out.AnswersCalls session n) := by
  cases e with
  | goOn =>
      rw [afterCalls, keepsWellFormed_cons hs]
      by_cases ht : WellFormed t.messages
      · simp [ht, ih ht]
      · by_cases hlooked : looked session (n == 0) .goOn = true
        · exact iff_of_false (not_keepsWellFormed ht hlooked) fun h => ht (h.1 hlooked)
        · -- the last iteration of a run without a session
          cases n with
          | succ n => simp [looked] at hlooked
          | zero =>
              cases session with
              | some hist => simp [looked] at hlooked
              | none =>
                  exact iff_of_true ⟨by simp [Outside.iterate], by simp [savedMessages]⟩
                    ⟨by simp [looked], fun _ => trivial⟩
  | finalized =>
      rw [afterCalls, keepsWellFormed_last hs]
      cases session <;> simp [savedMessages, looked]
  | raised =>
      rw [afterCalls, keepsWellFormed_last hs]
      cases session with
      | none => simp [savedMessages, looked]
      | some hist =>
          by_cases hempty : hist.messages = [] <;>
            simp [savedMessages, looked, hempty, WellFormed]
  | cancelled =>
      rw [afterCalls, keepsWellFormed_last hs]
      cases session <;> simp [savedMessages, looked]

/-- The last `n` iterations. -/
theorem keepsWellFormed_iterate {n : ℕ} {s : Turn} (h : WellFormed s.messages) :
    KeepsWellFormed session (out.iterate n s) ↔ out.AnswersCalls session n := by
  induction n generalizing s with
  | zero =>
      refine iff_of_true ⟨by simp [Outside.iterate], ?_⟩ trivial
      intro ms hms
      obtain ⟨hist, -, hms⟩ := Option.bind_eq_some_iff.1 hms
      cases hms
      exact h
  | succ n ih =>
      have hs := (wellFormed_beforeCall s (maxIterations - (n + 1))).2 h
      cases hcompletion : out.completion (maxIterations - (n + 1)) with
      | raises =>
          simp only [Outside.iterate, Outside.AnswersCalls, hcompletion]
          exact iff_of_true (keepsWellFormed_of_wellFormed hs (by exact hs) _) trivial
      | noChoice =>
          simp only [Outside.iterate, Outside.AnswersCalls, hcompletion]
          exact iff_of_true (keepsWellFormed_of_wellFormed hs hs _) trivial
      | cancelled =>
          simp only [Outside.iterate, Outside.AnswersCalls, hcompletion]
          exact iff_of_true (keepsWellFormed_of_wellFormed hs hs _) trivial
      | reply content calls =>
          simp only [Outside.AnswersCalls, hcompletion]
          by_cases hcalls : calls = []
          · subst hcalls
            have hlast : WellFormed ((s.beforeCall (maxIterations - (n + 1))).messages ++
                [.assistant content []]) := (wellFormed_turn hs content [] []).2 (by simp)
            simp only [Outside.iterate, hcompletion, if_true]
            refine iff_of_true (keepsWellFormed_of_wellFormed hs hlast _) ⟨?_, by simp⟩
            intro _
            exact ⟨List.nodup_nil, by simp⟩
          · have hend := (out.runCalls_spec (i := maxIterations - (n + 1)) 0 calls
              ((s.beforeCall (maxIterations - (n + 1))).append (.assistant content calls))).1
            have hturn := wellFormed_runCalls out (maxIterations - (n + 1)) hs content calls
            simp only [Outside.iterate, hcompletion, if_neg hcalls]
            rw [keepsWellFormed_reply _ hs ih, hturn, hend]
            simp only [hcalls, not_false_eq_true, ne_eq, true_implies]

/-- **Well-formed histories.**  Every list `execute` passes to the LLM, and the
one `run_orchestration` saves, is well formed if and only if the answered calls
of each response cover all its calls wherever the list is looked at again. -/
theorem keepsWellFormed_iff (out : Outside) (systemPrompt : String) (session : Option History)
    (userMessage : String) :
    KeepsWellFormed session (out.execute systemPrompt session userMessage) ↔
      out.AnswersCalls session maxIterations := by
  refine keepsWellFormed_iterate ?_
  unfold startMessages
  split
  · exact (wellFormed_append_user [.system systemPrompt] userMessage).2 trivial
  · exact (wellFormed_append_user _ userMessage).2 (History.wellFormed _)
  · exact (wellFormed_append_user [.system systemPrompt] userMessage).2 trivial

/-! ## A `finalize` before another call -/

/-- A session of one turn without tool calls. -/
def oneTurn : History where
  messages := [.system "", .user "hello", .assistant (some "hi") []]
  wellFormed := by decide

/-- The LLM answers with a `finalize` and one more call, both with the arguments
of an empty object, and no tool raises. -/
def finalizeFirst : Outside where
  loads _ := .value (.obj [])
  completion _ := .reply none
    [⟨"call_1", "finalize", "\x7b\x7d"⟩, ⟨"call_2", "list_artifacts", "\x7b\x7d"⟩]
  executeTool _ _ := .returns "[FINALIZE] 任务已完成。摘要：\n" false

/-- **The call after an accepted `finalize`.**  It gets no tool message, and the
session is saved so. -/
theorem finalize_leaves_call_unanswered :
    ¬ KeepsWellFormed (some oneTurn) (finalizeFirst.execute "" (some oneTurn) "build a shop") := by
  intro h
  rw [Outside.execute, keepsWellFormed_iterate (by decide)] at h
  exact absurd (h.1 (by decide +kernel)) (by decide +kernel)

end Orchestrator
end AgentSwarm
