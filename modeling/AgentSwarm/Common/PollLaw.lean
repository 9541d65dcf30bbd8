import Mathlib.Data.List.Destutter
import Mathlib.Order.Lattice
import Mathlib.Order.Monotone.Defs
import AgentSwarm.Common.A2AClient

/-!
# The law of the polling

`poll_task` reads the clock before each request, and sleeps after it.  What it yields and when
it stops depends on the answers and on those readings; the interval, and the time that requests
take, are in the readings.

* `Clock`, `Polled` — the readings, and what a poll has done.
* `pollLoop`, `poll` — the loop, for as many passes as it is given, and `poll_task`.
* `received` — the snapshots among the answers to its requests.
* `PollLaw` — what a poll does, by its answers and the clock.
* `pollLoop_requests`, `pollLoop_yielded` — the requests, and what is yielded for them.
* `cons_pollTask` — the comparison with the key of the last snapshot is that with the snapshot
  yielded last.
* `poll_law` — **every poll follows the law**.
-/

namespace AgentSwarm
namespace A2AClient

/-- A clock that is read again and again. -/
structure Clock (T : Type) [Preorder T] where
  reading : ℕ → T
  mono : Monotone reading

/-- What a poll has done. -/
structure Polled where
  requests : ℕ
  yielded : List A2ATask

variable {T : Type} [LinearOrder T] (answers : ℕ → Option A2ATask) (clock : Clock T)

/-- The loop from its pass `i` on, for `n` passes at most.  Before the request of pass `i` the
clock has been read `i + 1` times, and once for the deadline. -/
def pollLoop (deadline : T) : ℕ → ℕ → Option (String × Option String × ℕ) → Polled
  | 0, _, _ => ⟨0, []⟩
  | n + 1, i, lastKey =>
      if deadline ≤ clock.reading (i + 1) then ⟨0, []⟩
      else
        match answers i with
        | none =>
            let rest := pollLoop deadline n (i + 1) lastKey
            ⟨rest.requests + 1, rest.yielded⟩
        | some task =>
            let rest :=
              if task.isTerminal then ⟨0, []⟩ else pollLoop deadline n (i + 1) (some task.key)
            ⟨rest.requests + 1,
              if lastKey = some task.key then rest.yielded else task :: rest.yielded⟩

/-- `poll_task`, for `n` passes at most. -/
def poll [Add T] (timeout : T) (n : ℕ) : Polled :=
  pollLoop answers clock (clock.reading 0 + timeout) n 0 none

/-- The snapshots among the first answers. -/
def received (requests : ℕ) : List A2ATask := (List.range requests).filterMap answers

/-- The law: what is yielded is what has been received, less each snapshot with the key of the
one yielded before it; no request follows a terminal snapshot or a reading at the deadline, and
requests end for these two only; once a terminal snapshot has been received, the last one that
is yielded is terminal. -/
structure PollLaw (deadline : T) (n : ℕ) (run : Polled) : Prop where
  yields : run.yielded = (received answers run.requests).destutter fun a b => a.key ≠ b.key
  not_after_terminal : ∀ i j task, answers i = some task → task.isTerminal →
    j < run.requests → j ≤ i
  not_after_deadline : ∀ i j, deadline ≤ clock.reading i → j < run.requests → j + 1 < i
  goes_on : run.requests < n →
    (∃ task, (received answers run.requests).getLast? = some task ∧ task.isTerminal) ∨
      deadline ≤ clock.reading (run.requests + 1)
  ends_terminal : ∀ task ∈ received answers run.requests, task.isTerminal →
    ∃ last, run.yielded.getLast? = some last ∧ last.isTerminal

/-! ## The requests -/

variable {answers clock} {deadline : T}

/-- A request is made in each pass that comes before the deadline and after no terminal
snapshot. -/
theorem pollLoop_requests {n i : ℕ} {lastKey : Option (String × Option String × ℕ)} {j : ℕ}
    (hj : j < (pollLoop answers clock deadline n i lastKey).requests) :
    clock.reading (i + j + 1) < deadline ∧
      ∀ k < j, ∀ task, answers (i + k) = some task → ¬task.isTerminal := by
  induction n generalizing i lastKey j with
  | zero => cases hj
  | succ n ih =>
      rw [pollLoop] at hj
      split at hj
      · cases hj
      · rename_i hin
        cases j with
        | zero => exact ⟨not_le.1 hin, fun k hk => absurd hk (Nat.not_lt_zero k)⟩
        | succ j =>
            have hshift (k : ℕ) : i + 1 + k = i + (k + 1) := by omega
            have hcases {lastKey' : Option (String × Option String × ℕ)}
                (hrest : j < (pollLoop answers clock deadline n (i + 1) lastKey').requests)
                (hfirst : ∀ task, answers i = some task → ¬task.isTerminal) :
                clock.reading (i + (j + 1) + 1) < deadline ∧
                  ∀ k < j + 1, ∀ task, answers (i + k) = some task → ¬task.isTerminal := by
              obtain ⟨htime, hbefore⟩ := ih hrest
              rw [hshift] at htime
              refine ⟨htime, fun k hk task htask => ?_⟩
              cases k with
              | zero => exact hfirst task htask
              | succ k => exact hbefore k (by omega) task (by rwa [hshift])
            split at hj
            · rename_i hnone
              refine hcases (Nat.lt_of_succ_lt_succ hj) fun task htask => ?_
              rw [hnone] at htask
              cases htask
            · rename_i task hsome
              dsimp only at hj
              split at hj
              · exact absurd hj (by simp)
              · rename_i hgoes
                refine hcases (Nat.lt_of_succ_lt_succ hj) fun task' htask' => ?_
                rw [hsome] at htask'
                cases htask'
                exact hgoes

/-- Requests are made until a terminal snapshot or the deadline. -/
theorem pollLoop_goes_on {n i : ℕ} {lastKey : Option (String × Option String × ℕ)}
    (h : (pollLoop answers clock deadline n i lastKey).requests < n) :
    (∃ j task, (pollLoop answers clock deadline n i lastKey).requests = j + 1 ∧
        answers (i + j) = some task ∧ task.isTerminal) ∨
      deadline ≤ clock.reading
        (i + (pollLoop answers clock deadline n i lastKey).requests + 1) := by
  induction n generalizing i lastKey with
  | zero => cases h
  | succ n ih =>
      have hshift (k : ℕ) : i + 1 + k = i + (k + 1) := by omega
      rw [pollLoop] at h ⊢
      split
      · rename_i hover
        exact .inr hover
      · rename_i hin
        rw [if_neg hin] at h
        split
        · rename_i hnone
          simp only [hnone] at h
          rcases ih (Nat.lt_of_succ_lt_succ h) with ⟨j, task, hj, htask, hend⟩ | hover
          · exact .inl ⟨j + 1, task, congrArg (· + 1) hj, by rwa [← hshift], hend⟩
          · exact .inr (by rwa [hshift] at hover)
        · rename_i task hsome
          simp only [hsome] at h
          dsimp only
          split
          · rename_i hend
            exact .inl ⟨0, task, rfl, hsome, hend⟩
          · rename_i hgoes
            rw [if_neg hgoes] at h
            rcases ih (Nat.lt_of_succ_lt_succ h) with ⟨j, task, hj, htask, hend⟩ | hover
            · exact .inl ⟨j + 1, task, congrArg (· + 1) hj, by rwa [← hshift], hend⟩
            · exact .inr (by rwa [hshift] at hover)

/-! ## What is yielded -/

/-- What is yielded is what `pollTask` has for the answers to the requests. -/
theorem pollLoop_yielded (n i : ℕ) (lastKey : Option (String × Option String × ℕ)) :
    (pollLoop answers clock deadline n i lastKey).yielded =
      pollTask lastKey ((List.range (pollLoop answers clock deadline n i lastKey).requests).map
        fun j => answers (i + j)) := by
  induction n generalizing i lastKey with
  | zero => rfl
  | succ n ih =>
      have hrange (r : ℕ) : (List.range (r + 1)).map (fun j => answers (i + j)) =
          answers i :: (List.range r).map fun j => answers (i + 1 + j) := by
        rw [List.range_succ_eq_map, List.map_cons, List.map_map, Nat.add_zero]
        refine congrArg _ (List.map_congr_left fun j _ => congrArg answers ?_)
        show i + (j + 1) = i + 1 + j
        omega
      rw [pollLoop]
      split
      · rfl
      · split
        · rename_i hnone
          dsimp only
          rw [hrange, hnone, pollTask]
          exact ih (i + 1) lastKey
        · rename_i task hsome
          dsimp only
          rw [hrange, hsome, pollTask]
          by_cases hend : task.isTerminal
          · simp only [if_pos hend]
          · simp only [if_neg hend]
            rw [← ih (i + 1) (some task.key)]

/-- The snapshots up to the first terminal one. -/
def upToTerminal : List (Option A2ATask) → List A2ATask
  | [] => []
  | none :: as => upToTerminal as
  | some task :: as => task :: if task.isTerminal then [] else upToTerminal as

/-- To compare keys with the last snapshot, or with the last one that was yielded, is the
same. -/
theorem cons_pollTask (a : A2ATask) (as : List (Option A2ATask)) :
    a :: pollTask (some a.key) as =
      (upToTerminal as).destutter' (fun a b => a.key ≠ b.key) a := by
  induction as generalizing a with
  | nil => rfl
  | cons answer as ih =>
      cases answer with
      | none => exact ih a
      | some task =>
          rw [pollTask, upToTerminal, List.destutter'_cons]
          by_cases hsame : a.key = task.key
          · rw [if_pos (congrArg some hsame), if_neg (not_not.2 hsame)]
            split
            · rfl
            · rw [← hsame]
              exact ih a
          · rw [if_neg (fun h => hsame (Option.some.inj h)), if_pos hsame]
            split
            · rfl
            · exact congrArg (a :: ·) (ih task)

theorem pollTask_eq_destutter (as : List (Option A2ATask)) :
    pollTask none as = (upToTerminal as).destutter fun a b => a.key ≠ b.key := by
  induction as with
  | nil => rfl
  | cons answer as ih =>
      cases answer with
      | none => exact ih
      | some task =>
          rw [pollTask, upToTerminal, List.destutter_cons', if_neg (Option.some_ne_none _).symm]
          split
          · rfl
          · exact cons_pollTask task as

/-- When only the last answer may be terminal, all snapshots are those up to it. -/
theorem upToTerminal_eq {as : List (Option A2ATask)}
    (h : ∀ task, some task ∈ as.dropLast → ¬task.isTerminal) :
    upToTerminal as = as.filterMap id := by
  induction as with
  | nil => rfl
  | cons answer as ih =>
      cases as with
      | nil => cases answer <;> simp [upToTerminal]
      | cons next as =>
          rw [List.dropLast_cons_of_ne_nil (List.cons_ne_nil next as)] at h
          have hrest := ih fun task htask => h task (List.mem_cons_of_mem _ htask)
          cases answer with
          | none => simpa [upToTerminal] using hrest
          | some task =>
              have hgoes : ¬task.isTerminal := h task List.mem_cons_self
              rw [upToTerminal, if_neg hgoes, hrest]
              rfl

/-! ## The law -/

theorem received_eq (answers : ℕ → Option A2ATask) (r : ℕ) :
    received answers r = ((List.range r).map answers).filterMap id := by
  rw [received, List.filterMap_map]
  rfl

section

variable [Add T] (answers : ℕ → Option A2ATask) (clock : Clock T) (timeout : T) (n : ℕ)

/-- When a request is made, the deadline is to come, and no answer before it is terminal. -/
theorem poll_requests {j : ℕ} (hj : j < (poll answers clock timeout n).requests) :
    clock.reading (j + 1) < clock.reading 0 + timeout ∧
      ∀ k < j, ∀ task, answers k = some task → ¬task.isTerminal := by
  have hrequests := pollLoop_requests hj
  simpa only [Nat.zero_add] using hrequests

theorem poll_yielded : (poll answers clock timeout n).yielded =
    pollTask none ((List.range (poll answers clock timeout n).requests).map answers) := by
  have hyielded := @pollLoop_yielded T _ answers clock (clock.reading 0 + timeout) n 0 none
  rw [← poll] at hyielded
  simpa only [Nat.zero_add] using hyielded

/-- Only the last answer may be terminal, so what has been received is what there is up to
the first terminal one. -/
theorem poll_yields : (poll answers clock timeout n).yielded =
    (received answers (poll answers clock timeout n).requests).destutter
      fun a b => a.key ≠ b.key := by
  rw [poll_yielded, pollTask_eq_destutter, received_eq, upToTerminal_eq]
  intro task htask
  rw [← List.map_dropLast, List.mem_map] at htask
  obtain ⟨i, hi, htask⟩ := htask
  have hlt : i + 1 < (poll answers clock timeout n).requests := by
    cases hr : (poll answers clock timeout n).requests with
    | zero => simp [hr] at hi
    | succ r =>
        rw [hr, List.range_succ, List.dropLast_concat, List.mem_range] at hi
        omega
  exact (poll_requests answers clock timeout n hlt).2 i (Nat.lt_succ_self i) task htask

/-- Once a terminal snapshot has been received, the last one that is yielded is terminal: it
has the same state. -/
theorem poll_ends_terminal {task : A2ATask}
    (htask : task ∈ received answers (poll answers clock timeout n).requests)
    (hend : task.isTerminal) :
    ∃ last, (poll answers clock timeout n).yielded.getLast? = some last ∧ last.isTerminal := by
  have hyielded := poll_yielded answers clock timeout n
  generalize poll answers clock timeout n = run at htask hyielded ⊢
  obtain ⟨i, hi, htask⟩ := List.mem_filterMap.1 htask
  have hsplit : (List.range run.requests).map answers =
      (List.range i).map answers ++ some task ::
        ((List.range (run.requests - (i + 1))).map fun j => answers (i + 1 + j)) := by
    have hsum : run.requests = i + 1 + (run.requests - (i + 1)) := by
      have hlt := List.mem_range.1 hi
      omega
    rw [hsum, List.range_add, List.range_succ]
    simp [htask]
  obtain ⟨last, hlast, hlastEnd⟩ : ∃ last, lastAnswer ((List.range i).map answers ++
      some task :: ((List.range (run.requests - (i + 1))).map fun j => answers (i + 1 + j))) =
        some last ∧ last.isTerminal :=
    lastAnswer_of_terminal (fun _ _ h => h) hend hend _
  have hkey := pollTask_last_key ((List.range run.requests).map answers) none
  rw [← hyielded, Option.or_none, Option.or_none, hsplit, hlast, Option.map_some] at hkey
  obtain ⟨shown, hshown, hsame⟩ := Option.map_eq_some_iff.1 hkey
  refine ⟨shown, hshown, ?_⟩
  have hstate : shown.state = last.state := congrArg Prod.fst hsame
  rw [A2ATask.isTerminal, hstate]
  exact hlastEnd

end

/-- **Every poll follows the law.** -/
theorem poll_law [Add T] (answers : ℕ → Option A2ATask) (clock : Clock T) (timeout : T) (n : ℕ) :
    PollLaw answers clock (clock.reading 0 + timeout) n (poll answers clock timeout n) := by
  refine ⟨poll_yields answers clock timeout n, ?_, ?_, ?_, ?_⟩
  · intro i j task htask hend hj
    by_contra hlt
    exact (poll_requests answers clock timeout n hj).2 i (not_le.1 hlt) task htask hend
  · intro i j hover hj
    by_contra hlt
    have hle : clock.reading i ≤ clock.reading (j + 1) := clock.mono (not_lt.1 hlt)
    have hbefore := (poll_requests answers clock timeout n hj).1
    exact absurd (lt_of_le_of_lt (hover.trans hle) hbefore) (lt_irrefl _)
  · intro hlt
    rcases pollLoop_goes_on hlt with ⟨j, task, hj, htask, hend⟩ | hover
    · refine .inl ⟨task, ?_, hend⟩
      rw [Nat.zero_add] at htask
      rw [poll, hj, received, List.range_succ, List.filterMap_append]
      simp [htask]
    · rw [Nat.zero_add] at hover
      exact .inr hover
  · intro task htask hend
    exact poll_ends_terminal answers clock timeout n htask hend

end A2AClient
end AgentSwarm
