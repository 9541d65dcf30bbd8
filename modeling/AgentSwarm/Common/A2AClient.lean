import AgentSwarm.Common.Json

/-!
# Polling a task

`A2AClient.poll_task` asks for a task again and again until it has ended or the
time is up, and yields what has changed.

* `A2ATask` — what the client reads of a task.
* `pollTask` — the snapshots that are yielded for the answers to `tasks/get`.
* `lastAnswer` — the last answer that `poll_task` waits for.
* `pollTask_last_key` — the last snapshot says what the last answer says.
* `polled` — the task that a consumer of the snapshots is left with.
* `polled_key`, `lastAnswer_of_terminal` — it says what the last answer says, and that is
  the first terminal one.
-/

namespace AgentSwarm

/-- `A2ATask`, less its artifacts. -/
structure A2ATask where
  taskId : String
  state : String
  message : Option String := none
  progress : List JsonObj := []
  deriving Inhabited

namespace A2ATask

/-- What `poll_task` compares. -/
def key (task : A2ATask) : String × Option String × ℕ :=
  (task.state, task.message, task.progress.length)

/-- `terminal`. -/
def terminal : List String := ["completed", "failed", "canceled"]

/-- `poll_task` returns at this task. -/
def isTerminal (task : A2ATask) : Bool := terminal.contains task.state

end A2ATask

namespace A2AClient

/-- `poll_task`, for the answers of `get_task` until the deadline. -/
def pollTask (lastKey : Option (String × Option String × ℕ)) :
    List (Option A2ATask) → List A2ATask
  | [] => []
  | none :: answers => pollTask lastKey answers
  | some task :: answers =>
      let rest := if task.isTerminal then [] else pollTask (some task.key) answers
      if lastKey = some task.key then rest else task :: rest

/-- `poll_task` returns before the deadline. -/
def endsEarly (answers : List (Option A2ATask)) : Bool :=
  answers.any fun answer => answer.any A2ATask.isTerminal

/-- The last answer with a task, up to the first with a terminal one. -/
def lastAnswer : List (Option A2ATask) → Option A2ATask
  | [] => none
  | none :: answers => lastAnswer answers
  | some task :: answers =>
      if task.isTerminal then some task else (lastAnswer answers).or (some task)

/-- **Nothing is missed.**  The last snapshot has the key of the last answer. -/
theorem pollTask_last_key (answers : List (Option A2ATask))
    (lastKey : Option (String × Option String × ℕ)) :
    ((pollTask lastKey answers).getLast?.map A2ATask.key).or lastKey =
      ((lastAnswer answers).map A2ATask.key).or lastKey := by
  induction answers generalizing lastKey with
  | nil => rfl
  | cons answer answers ih =>
      rcases answer with - | task
      · exact ih lastKey
      · have hrest := ih (some task.key)
        rw [pollTask, lastAnswer]
        by_cases hend : task.isTerminal
        · by_cases hsame : lastKey = some task.key <;> simp [hend, hsame]
        · simp only [hend, Bool.false_eq_true, if_false]
          by_cases hsame : lastKey = some task.key
          · rw [if_pos hsame, hsame, hrest]
            cases lastAnswer answers <;> rfl
          · rw [if_neg hsame, List.getLast?_cons]
            revert hrest
            cases (pollTask (some task.key) answers).getLast? <;> cases lastAnswer answers <;>
              simp

/-- The task that a consumer holds after its loop over the snapshots. -/
def polled (sent : A2ATask) (answers : List (Option A2ATask)) : A2ATask :=
  (pollTask none answers).getLast?.getD sent

theorem polled_state (sent : A2ATask) (answers : List (Option A2ATask)) :
    (polled sent answers).state = ((lastAnswer answers).getD sent).state := by
  have hkeys := pollTask_last_key answers none
  rw [Option.or_none, Option.or_none] at hkeys
  rw [polled]
  cases hsnap : (pollTask none answers).getLast? with
  | none =>
      cases hlast : lastAnswer answers with
      | none => rfl
      | some task => simp [hsnap, hlast] at hkeys
  | some snap =>
      cases hlast : lastAnswer answers with
      | none => simp [hsnap, hlast] at hkeys
      | some task =>
          rw [hsnap, hlast, Option.map_some, Option.map_some, Option.some.injEq] at hkeys
          exact congrArg Prod.fst hkeys

/-- What a consumer compares is that of the last answer. -/
theorem polled_key (sent : A2ATask) {answers : List (Option A2ATask)} {task : A2ATask}
    (hlast : lastAnswer answers = some task) : (polled sent answers).key = task.key := by
  have hkeys := pollTask_last_key answers none
  rw [Option.or_none, Option.or_none, hlast] at hkeys
  rw [polled]
  cases hsnap : (pollTask none answers).getLast? with
  | none => simp [hsnap] at hkeys
  | some snap => simpa [hsnap] using hkeys

/-- The polling comes to an end at the first task that is terminal. -/
theorem lastAnswer_of_terminal {good : A2ATask → Prop} {earlier : List (Option A2ATask)}
    (hearlier : ∀ task, some task ∈ earlier → task.isTerminal → good task) {task : A2ATask}
    (hterminal : task.isTerminal) (hgood : good task) (later : List (Option A2ATask)) :
    ∃ last, lastAnswer (earlier ++ some task :: later) = some last ∧ good last := by
  induction earlier with
  | nil => exact ⟨task, by simp [lastAnswer, hterminal], hgood⟩
  | cons answer earlier ih =>
      obtain ⟨last, hlast, hgood'⟩ :=
        ih fun task htask => hearlier task (List.mem_cons_of_mem _ htask)
      rcases answer with - | first
      · exact ⟨last, hlast, hgood'⟩
      · rw [List.cons_append, lastAnswer]
        by_cases hend : first.isTerminal
        · exact ⟨first, by simp [hend], hearlier first List.mem_cons_self hend⟩
        · exact ⟨last, by simp [hend, hlast], hgood'⟩

end A2AClient
end AgentSwarm
