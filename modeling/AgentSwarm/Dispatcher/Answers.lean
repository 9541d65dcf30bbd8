import AgentSwarm.Dispatcher.Backends
import AgentSwarm.Dispatcher.Handover
import AgentSwarm.Worker.Wire

/-!
# Whose answer an attempt carries

Between the LLM of a worker and the attempt that `DockerBackend.invoke` returns lie the
record of a task, `tasks/get` and a poll.  Other messages come and go at the same worker,
records are cleaned up, the invoke may stop waiting at any time.

* `Written` — everything a step of the worker does to one record.
* `met` — what the invoke has met when it makes an attempt of it.
* `Faithful`, `Honest` — what the client has read is the record; the record is what
  became of the LLM.
* `Fresh` — the condition: an id is not given again.
* `Patient`, `Waited` — the invoke goes on to the end of its task.
* `TrueAnswer` — a success carries what the LLM returned for **this** message, and an
  invoke that waits comes to a success or to the error.
* `attempt_true` — so it is in every run.
* `getReply_eq_answer`, `sendReply_eq_response` — the client reads it off the wire.
-/

namespace AgentSwarm

/-! ## One record -/

namespace Worker

variable {blocking : ℕ → Bool} {s t : Server} {e : Event} {r : ℕ}

/-- What a step does to the record of `r`. -/
inductive Written (s t : Server) (e : Event) (r : ℕ) : Prop where
  | same (record : t.records r = s.records r)
  | inserted {taskId text : String} (event : e = .insert r taskId text)
      (record : t.records r = { history := [("user", text)] })
  | reported {progress : List String} (running : s.exec r = .running)
      (record : t.records r = { s.records r with progress := progress })
  | returned {result : String} {now : ℚ} (running : s.exec r = .running)
      (event : e = .returns r result now)
      (record : t.records r = {
        s.records r with
        state := .completed, completedAt := some now
        history := (s.records r).history ++ [("agent", result)] })
  | raised {text : String} {now : ℚ} (running : s.exec r = .running)
      (event : e = .raises r text now)
      (record : t.records r = {
        s.records r with
        state := .failed, completedAt := some now
        history := (s.records r).history ++ [("agent", "Error: " ++ text)] })

theorem step_written (hstep : step blocking s e = some t) (r : ℕ) : Written s t e r := by
  have hother {r' : ℕ} {record : Record} (hr : r ≠ r') (hrecords : t.records =
      Function.update s.records r' record) : Written s t e r :=
    .same (by rw [hrecords, Function.update_of_ne hr])
  cases e with
  | send r' now =>
      simp only [step] at hstep
      split at hstep <;> cases hstep
      exact .same (congrFun (cleanup_records s now) r)
  | insert r' taskId text =>
      simp only [step] at hstep
      split at hstep <;> cases hstep
      by_cases hr : r = r'
      · subst hr
        exact .inserted rfl (Function.update_self ..)
      · exact hother hr rfl
  | progress r' event =>
      simp only [step] at hstep
      split at hstep <;> cases hstep
      rename_i hrunning
      by_cases hr : r = r'
      · subst hr
        exact .reported hrunning (Function.update_self ..)
      · exact hother hr rfl
  | returns r' result now =>
      simp only [step] at hstep
      split at hstep <;> cases hstep
      rename_i hrunning _
      by_cases hr : r = r'
      · subst hr
        exact .returned hrunning rfl (Function.update_self ..)
      · exact hother hr rfl
  | raises r' text now =>
      simp only [step] at hstep
      split at hstep <;> cases hstep
      rename_i hrunning
      by_cases hr : r = r'
      · subst hr
        exact .raised hrunning rfl (Function.update_self ..)
      · exact hother hr rfl
  | cancels r' =>
      simp only [step] at hstep
      split at hstep <;> cases hstep
      exact .same rfl
  | register r' taskId =>
      simp only [step] at hstep
      split at hstep <;> cases hstep
      exact .same rfl
  | get taskId =>
      cases hstep
      exact .same rfl
  | cancelTask taskId =>
      cases hstep
      exact .same (congrFun (cancelTask_same s taskId).1 r)

theorem insert_record {taskId text : String}
    (hstep : step blocking s (.insert r taskId text) = some t) :
    t.records r = { history := [("user", text)] } := by
  simp only [step] at hstep
  split at hstep <;> cases hstep
  exact Function.update_self ..

/-- A final record is not written any more. -/
theorem records_of_terminal (h : Under s) (hinserted : (s.pc r).early = false)
    (hstep : step blocking s e = some t) (hfinal : (s.records r).state.terminal = true) :
    t.records r = s.records r := by
  have hidle : s.exec r ≠ .running := by
    intro hrunning
    rw [h.working r hrunning] at hfinal
    cases hfinal
  cases step_written hstep r with
  | same record => exact record
  | inserted event record =>
      subst event
      rw [(insert_step hstep).1] at hinserted
      cases hinserted
  | reported running record => exact absurd running hidle
  | returned running event record => exact absurd running hidle
  | raised running event record => exact absurd running hidle

end Worker

namespace Handover

open Worker (TaskState Record Server Under)

/-! ## The attempt -/

/-- The task as the backend reads it. -/
def A2ATask.read (task : A2ATask) : Dispatcher.A2ATask where
  taskId := task.taskId
  state := task.state.text
  message := some task.message

/-- What `DockerBackend.invoke` has met; `error` is the text of the exception that has ended
its `try` block, if one has. -/
def met (s : Sys) (error : Option String) : Dispatcher.WorkerCall :=
  .ended (s.a2aTask.map A2ATask.read) error

/-- The id of the task is not given again. -/
def Fresh (s : Sys) (e : Event) : Prop := ∀ p ∈ inserted e, s.started ≠ some p.2

/-- The invoke does not stop waiting. -/
def Patient (s : Sys) (e : Event) : Prop := givesUp s.pc e = false ∧ e ≠ .cancel

/-- The attempt that the invoke for the message `r` makes, after the given events. -/
structure TrueAnswer (r : ℕ) (events : List Event) (waited : Prop)
    (attempt : Dispatcher.DispatchAttempt) : Prop where
  /-- A success carries what the LLM has returned for this message. -/
  success : attempt.success = true →
    ∃ taskId text result now, .worker (.insert r taskId text) ∈ events ∧
      .worker (.returns r result now) ∈ events ∧ attempt.output = result
  /-- A failure of the task carries what has been raised. -/
  failure : attempt.error = some "Worker task state: failed" →
    ∃ text now, .worker (.raises r text now) ∈ events ∧ attempt.output = "Error: " ++ text
  /-- An invoke that has waited comes to one of the two. -/
  reached : waited →
    attempt.success = true ∨ attempt.error = some "Worker task state: failed"

/-! ## What the client has read -/

/-- The snapshot is one of the task, and a final one is its record. -/
def Faithful (r : ℕ) (s : Sys) (task : A2ATask) : Prop :=
  s.started = some task.taskId ∧
    (task.state.terminal = true → task = snapshot task.taskId (s.worker.records r))

/-- The record of `r` says what became of the LLM. -/
structure Told (r : ℕ) (past : List Event) (record : Record) : Prop where
  completed : record.state = .completed →
    ∃ result now, .worker (.returns r result now) ∈ past ∧ extractText record.history = result
  failed : record.state = .failed → ∃ text now,
    .worker (.raises r text now) ∈ past ∧ extractText record.history = "Error: " ++ text
  notCanceled : record.state ≠ .canceled

/-- What holds after the events `past`. -/
structure Honest (r : ℕ) (past : List Event) (s : Sys) : Prop where
  under : Under s.worker
  inserted : s.started.isSome → (s.worker.pc r).early = false
  sent : ∀ taskId, s.started = some taskId → ∃ text, .worker (.insert r taskId text) ∈ past
  own : ∀ taskId, s.started = some taskId →
    ∀ r', s.worker.tasks.get taskId = some r' → r' = r
  told : s.started.isSome → Told r past (s.worker.records r)
  reply : ∀ task, s.reply = some task → Faithful r s task
  forwarding : ∀ snap, s.pc = .forwarding snap → Faithful r s snap
  task : ∀ task, s.a2aTask = some task → Faithful r s task

variable {blocking : ℕ → Bool} {r : ℕ} {s t : Sys} {e : Event} {past : List Event}

theorem extractText_concat (history : List (String × String)) (text : String) :
    extractText (history ++ [("agent", text)]) = text := by
  simp [extractText]

theorem Told.mono {record : Record} (h : Told r past record) (e : Event) :
    Told r (past ++ [e]) record where
  completed hstate := by
    obtain ⟨result, now, hmem, htext⟩ := h.completed hstate
    exact ⟨result, now, List.mem_append_left _ hmem, htext⟩
  failed hstate := by
    obtain ⟨text, now, hmem, htext⟩ := h.failed hstate
    exact ⟨text, now, List.mem_append_left _ hmem, htext⟩
  notCanceled := h.notCanceled

/-! ## Steps of the worker -/

/-- The record of a message that has been inserted. -/
theorem Told.worker (h : Told r past (s.worker.records r)) (hunder : Under s.worker)
    (hinserted : (s.worker.pc r).early = false) {e : Worker.Event} {worker : Server}
    (hstep : Worker.step blocking s.worker e = some worker) :
    Told r (past ++ [.worker e]) (worker.records r) := by
  have hlast : Event.worker e ∈ past ++ [.worker e] := by simp
  cases Worker.step_written hstep r with
  | same record =>
      rw [record]
      exact h.mono _
  | inserted event record =>
      subst event
      rw [(Worker.insert_step hstep).1] at hinserted
      cases hinserted
  | reported running record =>
      have hworking := hunder.working r running
      rw [record]
      refine ⟨?_, ?_, ?_⟩ <;> simp [hworking]
  | returned running event record =>
      subst event
      rw [record]
      exact ⟨fun _ => ⟨_, _, hlast, extractText_concat _ _⟩, nofun, nofun⟩
  | raised running event record =>
      subst event
      rw [record]
      exact ⟨nofun, fun _ => ⟨_, _, hlast, extractText_concat _ _⟩, nofun⟩

theorem Faithful.worker {task : A2ATask} (h : Faithful r s task) (hunder : Under s.worker)
    (hinserted : (s.worker.pc r).early = false) {e : Worker.Event} {worker : Server}
    (hstep : Worker.step blocking s.worker e = some worker) :
    Faithful r { s with worker := worker } task := by
  refine ⟨h.1, fun hfinal => ?_⟩
  have hsnapshot := h.2 hfinal
  have hrecord : (s.worker.records r).state.terminal = true := by
    rw [hsnapshot] at hfinal
    exact hfinal
  rw [Worker.records_of_terminal hunder hinserted hstep hrecord]
  exact hsnapshot

/-- A step of the worker that does not insert the message leaves `started` as it is. -/
theorem workerStep_split {e : Worker.Event} (hstep : workerStep blocking r s e = some t) :
    ∃ worker, Worker.step blocking s.worker e = some worker ∧
      ((∃ taskId text, e = .insert r taskId text ∧
          t = { s with worker := worker, started := some taskId }) ∨
        (∀ taskId text, e ≠ .insert r taskId text) ∧ t = { s with worker := worker }) := by
  unfold workerStep at hstep
  split at hstep
  · cases hstep
  · rename_i worker hworker
    cases hstep
    refine ⟨worker, hworker, ?_⟩
    cases e with
    | insert r' taskId text =>
        by_cases hr : r' = r
        · subst hr
          exact .inl ⟨taskId, text, rfl, by simp [inserted]⟩
        · refine .inr ⟨?_, by simp [inserted, hr]⟩
          rintro taskId' text' heq
          cases heq
          exact hr rfl
    | _ => exact .inr ⟨fun _ _ => by simp, rfl⟩

theorem honest_worker (h : Honest r past s) {e : Worker.Event} (hok : Fresh s (.worker e))
    (hstep : workerStep blocking r s e = some t) : Honest r (past ++ [.worker e]) t := by
  obtain ⟨worker, hworker, ⟨taskId, text, rfl, rfl⟩ | ⟨hother, rfl⟩⟩ := workerStep_split hstep
  · -- the message is inserted once, and nothing has been read before
    obtain ⟨hearly, hlate, hget⟩ := Worker.insert_step hworker
    have hnone : s.started = none := by
      by_contra hne
      have hinserted := h.inserted (Option.isSome_iff_ne_none.2 hne)
      rw [hearly] at hinserted
      cases hinserted
    have hunread : ∀ task, ¬ Faithful r s task := by
      rintro task ⟨hstarted, -⟩
      rw [hnone] at hstarted
      cases hstarted
    refine ⟨Worker.under_step h.under hworker, fun _ => hlate, ?_, ?_, fun _ => ?_,
      fun task htask => absurd (h.reply task htask) (hunread task),
      fun snap hpc => absurd (h.forwarding snap hpc) (hunread snap),
      fun task htask => absurd (h.task task htask) (hunread task)⟩
    · intro taskId' heq
      cases heq
      exact ⟨text, by simp⟩
    · intro taskId' heq r' hget'
      cases heq
      exact Option.some.inj (hget'.symm.trans hget)
    · rw [Worker.insert_record hworker]
      exact ⟨nofun, nofun, nofun⟩
  · have hfaithful : ∀ task, Faithful r s task → Faithful r { s with worker := worker } task :=
      fun task htask => htask.worker h.under (h.inserted (by simp [htask.1])) hworker
    refine ⟨Worker.under_step h.under hworker, fun hstarted => ?_, fun taskId hstarted => ?_,
      fun taskId hstarted r' hget => ?_,
      fun hstarted => (h.told hstarted).worker h.under (h.inserted hstarted) hworker,
      fun task htask => hfaithful task (h.reply task htask),
      fun snap hpc => hfaithful snap (h.forwarding snap hpc),
      fun task htask => hfaithful task (h.task task htask)⟩
    · cases hearly : (worker.pc r).early with
      | false => rfl
      | true =>
          have hinserted := h.inserted hstarted
          rw [Worker.early_step hworker hearly] at hinserted
          cases hinserted
    · obtain ⟨text, hmem⟩ := h.sent taskId hstarted
      exact ⟨text, List.mem_append_left _ hmem⟩
    · refine h.own taskId hstarted r' (Worker.get_step h.under hworker ?_ hget)
      rintro r'' text rfl
      exact hok (r'', taskId) rfl hstarted

/-! ## Steps of the invoke -/

/-- The invoke moves on, and what it has read is right. -/
theorem Honest.goto (h : Honest r past s) {a2aTask : Option A2ATask} {pc : Pc}
    {reply : Option A2ATask} {lastKey : Option (TaskState × String × ℕ)}
    {cancelSent : Option String} {idle : Bool}
    (hreply : ∀ task, reply = some task → Faithful r s task)
    (hforward : ∀ snap, pc = .forwarding snap → Faithful r s snap)
    (htask : ∀ task, a2aTask = some task → Faithful r s task) (e : Event) :
    Honest r (past ++ [e]) { s with
      a2aTask := a2aTask, pc := pc, reply := reply, lastKey := lastKey
      cancelSent := cancelSent, idle := idle } where
  under := h.under
  inserted := h.inserted
  sent taskId hstarted := by
    obtain ⟨text, hmem⟩ := h.sent taskId hstarted
    exact ⟨text, List.mem_append_left _ hmem⟩
  own := h.own
  told hsome := (h.told hsome).mono e
  reply := hreply
  forwarding := hforward
  task := htask

theorem faithful_response {task : A2ATask} (h : response blocking r s = some task) :
    Faithful r s task := by
  unfold response at h
  split at h
  · cases h
  · rename_i taskId hstarted
    split at h
    · split at h <;> cases h
      exact ⟨hstarted, fun _ => rfl⟩
    · split at h <;> cases h
      exact ⟨hstarted, fun hfinal => by cases hfinal⟩

theorem faithful_answer (h : Honest r past s) {taskId : String}
    (hstarted : s.started = some taskId) : Faithful r s (answer s taskId) := by
  unfold answer
  cases hget : s.worker.tasks.get taskId with
  | none =>
      have hgone : s.worker.getTask taskId = none := by simp [Server.getTask, hget]
      rw [hgone]
      exact ⟨hstarted, fun hfinal => by cases hfinal⟩
  | some r' =>
      have hown : r' = r := h.own taskId hstarted r' hget
      subst hown
      have htask : s.worker.getTask taskId = some (s.worker.records r') := by
        simp [Server.getTask, hget]
      rw [htask]
      exact ⟨hstarted, fun _ => rfl⟩

theorem afterSnapshot_ne_forwarding (task snap : A2ATask) :
    afterSnapshot task ≠ .forwarding snap := by
  unfold afterSnapshot
  split <;> nofun

theorem honest_invoke (h : Honest r past s) (hstep : invokeStep blocking r s e = some t) :
    Honest r (past ++ [e]) t := by
  cases invokeStep_cases hstep with
  | responds hpc htask =>
      refine h.goto h.reply (fun snap hsnap => ?_) (fun task hsome => ?_) e
      · split at hsnap <;> cases hsnap
      · cases hsome
        exact faithful_response htask
  | leaves hgives hat => exact h.goto h.reply (fun snap hsnap => by cases hsnap) h.task e
  | cancels hpc =>
      refine h.goto h.reply (fun snap hsnap => ?_) h.task e
      rcases onCancel_cases s with heq | heq <;> rw [heq] at hsnap <;> cases hsnap
  | answers hpc =>
      refine h.goto (fun task hsome => ?_) h.forwarding h.task e
      obtain ⟨asked, hasked, rfl⟩ := Option.map_eq_some_iff.1 hsome
      exact faithful_answer h (h.task asked hasked).1
  | polls hpc htask hgo =>
      refine h.goto (fun task hsome => ?_) (fun snap hsnap => ?_) h.task e
      · cases hsome
      · rcases hgo with rfl | rfl
        · cases hsnap
          exact h.reply _ htask
        · exact absurd hsnap (afterSnapshot_ne_forwarding _ _)
  | forwards hpc =>
      refine h.goto h.reply (fun snap hsnap => ?_) (fun task hsome => ?_) e
      · exact absurd hsnap (afterSnapshot_ne_forwarding _ _)
      · cases hsome
        exact h.forwarding _ hpc
  | waits hpc hreply hgo =>
      refine h.goto (fun task hsome => ?_) (fun snap hsnap => ?_) h.task e
      · rcases hreply with rfl | rfl
        · cases hsome
        · exact h.reply task hsome
      · rcases hgo with rfl | rfl <;> cases hsnap
  | issues hpc => exact h.goto h.reply h.forwarding h.task e
  | closes hgo =>
      refine h.goto h.reply (fun snap hsnap => ?_) h.task e
      rcases hgo with ⟨-, rfl⟩ | ⟨-, rfl⟩ <;> cases hsnap
  | returns hpc => exact h.goto h.reply (fun snap hsnap => by cases hsnap) h.task e

/-- **One step** of the invoke or of the worker. -/
theorem honest_step (h : Honest r past s) (hok : Fresh s e)
    (hstep : step blocking r s e = some t) : Honest r (past ++ [e]) t := by
  cases e with
  | worker e => exact honest_worker h hok hstep
  | _ => exact honest_invoke h hstep

/-! ## An invoke that waits -/

/-- What an invoke that has not stopped waiting knows. -/
structure Waited (s : Sys) : Prop where
  finished : s.pc.over = true → ∃ task, s.a2aTask = some task ∧ task.state.terminal = true
  /-- The snapshot it was given last is the one it has kept. -/
  polling : s.pc = .asking ∨ s.pc = .asleep → ∀ key, s.lastKey = some key →
    ∃ task, s.a2aTask = some task ∧ task.key = key
  forwarding : ∀ snap, s.pc = .forwarding snap → s.lastKey = some snap.key
  notCancelling : s.pc ≠ .cancelling
  sending : s.pc = .sending → s.lastKey = none

theorem waited_start (worker : Server) : Waited (start worker) where
  finished := nofun
  polling := nofun
  forwarding := nofun
  notCancelling := nofun
  sending _ := rfl

/-- After a snapshot whose key is that of the task it has kept. -/
theorem Waited.afterSnapshot {snap kept : A2ATask} {reply : Option A2ATask}
    {lastKey : Option (TaskState × String × ℕ)} (hkey : kept.key = snap.key)
    (hlast : lastKey = some snap.key) :
    Waited { s with
      a2aTask := some kept, pc := afterSnapshot snap, reply := reply, lastKey := lastKey } := by
  subst hlast
  rcases afterSnapshot_cases snap with ⟨hfinal, heq⟩ | heq
  · rw [heq]
    have hstate : kept.state = snap.state := congrArg Prod.fst hkey
    exact ⟨fun _ => ⟨kept, rfl, hstate ▸ hfinal⟩, by simp, nofun, nofun, nofun⟩
  · rw [heq]
    refine ⟨nofun, fun _ key hlast => ⟨kept, rfl, ?_⟩, nofun, nofun, nofun⟩
    exact hkey.trans (Option.some.inj hlast)

theorem terminal_response {task : A2ATask} (h : response blocking r s = some task)
    (hmode : blocking r = true) : task.state.terminal = true := by
  unfold response at h
  split at h
  · cases h
  · rw [if_pos hmode] at h
    split at h <;> cases h
    rename_i hended
    exact hended.2

theorem waited_invoke (h : Waited s) (hok : Patient s e)
    (hstep : invokeStep blocking r s e = some t) : Waited t := by
  obtain ⟨hgives, hcancel⟩ := hok
  unfold invokeStep at hstep
  split at hstep
  all_goals try have hpc := ‹s.pc = _›
  all_goals try rw [hpc] at hgives
  -- the ways to stop waiting
  all_goals try exact absurd rfl hcancel
  all_goals try cases hgives
  case h_1.refl =>
    split at hstep <;> cases hstep
    rename_i task htask
    cases hmode : blocking r with
    | true => exact ⟨fun _ => ⟨task, rfl, terminal_response htask hmode⟩, by simp, nofun, nofun, nofun⟩
    | false =>
        refine ⟨nofun, fun _ key hkey => ?_, nofun, nofun, nofun⟩
        dsimp only at hkey
        rw [h.sending hpc] at hkey
        cases hkey
  case h_3.refl =>
    cases hstep
    exact ⟨h.finished, h.polling, h.forwarding, h.notCancelling, h.sending⟩
  case h_4.refl =>
    split at hstep
    · rename_i task htask
      split at hstep <;> cases hstep
      · refine ⟨nofun, by simp, ?_, nofun, nofun⟩
        rintro snap heq
        cases heq
        rfl
      · -- the snapshot is passed over: it says what the last one said
        rename_i hsame
        have hlast : s.lastKey = some task.key := by
          by_contra hne
          exact hsame (Ne.symm hne)
        obtain ⟨kept, hkept, hkey⟩ := h.polling (.inl hpc) _ hlast
        rw [hkept]
        exact Waited.afterSnapshot hkey hlast
    · cases hstep
  case h_5.refl =>
    cases hstep
    exact ⟨nofun, fun _ => h.polling (.inl hpc), nofun, nofun, nofun⟩
  case h_6.refl =>
    cases hstep
    exact Waited.afterSnapshot rfl (h.forwarding _ hpc)
  case h_7.refl =>
    cases hstep
    exact ⟨nofun, fun _ => h.polling (.inr hpc), nofun, nofun, nofun⟩
  case h_14.refl => exact absurd hpc h.notCancelling
  case h_17.refl =>
    cases hstep
    exact ⟨fun _ => h.finished (by rw [hpc]; rfl), by simp, nofun, nofun, nofun⟩
  case h_19.refl =>
    cases hstep
    exact ⟨fun _ => h.finished (by rw [hpc]; rfl), by simp, nofun, nofun, nofun⟩
  case h_21 => cases hstep

theorem waited_step (h : Waited s) (hok : Patient s e) (hstep : step blocking r s e = some t) :
    Waited t := by
  cases e with
  | worker e =>
      obtain ⟨worker, -, ⟨taskId, text, -, rfl⟩ | ⟨-, rfl⟩⟩ := workerStep_split hstep <;>
        exact ⟨h.finished, h.polling, h.forwarding, h.notCancelling, h.sending⟩
  | _ => exact waited_invoke h hok hstep

/-! ## Whole runs -/

variable (r) in
theorem honest_start {worker : Server} (h : Under worker) : Honest r [] (start worker) where
  under := h
  inserted := nofun
  sent := nofun
  own := nofun
  told := nofun
  reply := nofun
  forwarding := nofun
  task := nofun

/-- Without a task the attempt is no success, and tells of no task. -/
theorem no_task_error (error : Option String) :
    some (Dispatcher.orElse (error.map ("A2A send error: " ++ ·)) "Worker returned no task") ≠
      some "Worker task state: failed" := by
  cases error with
  | none => decide
  | some text =>
      have hsome : "A2A send error: " ++ text ≠ "" := by simp
      rw [Option.map_some, Dispatcher.orElse, if_neg hsome]
      intro h
      have hchars := congrArg String.toList (Option.some.inj h)
      rw [String.toList_append] at hchars
      simp at hchars

theorem orElse_empty (text : String) : Dispatcher.orElse (some text) "" = text := by
  unfold Dispatcher.orElse
  dsimp only
  split
  · exact (‹text = ""›).symm
  · rfl

/-- What a final snapshot says. -/
theorem Honest.final (h : Honest r past s) {task : A2ATask} (htask : s.a2aTask = some task)
    (hfinal : task.state.terminal = true) :
    Told r past (s.worker.records r) ∧ task.state = (s.worker.records r).state ∧
      task.message = extractText (s.worker.records r).history := by
  obtain ⟨hstarted, hsnapshot⟩ := h.task task htask
  have hsame := hsnapshot hfinal
  exact ⟨h.told (by simp [hstarted]), congrArg A2ATask.state hsame, congrArg A2ATask.message hsame⟩

/-- **A whole run** of the invoke and of its worker. -/
theorem honest_run {before : List Worker.Event} {worker : Server}
    (hbefore : Run.exec (Worker.step blocking) Worker.init before = some worker)
    {events : List Event} (hrun : Run.exec (step blocking r) (start worker) events = some s)
    (hfresh : Run.Along (step blocking r) Fresh (start worker) events) : Honest r events s := by
  have hunder : Under worker := Run.Throughout.last
    (Run.throughout_of_preserved (fun _ _ _ => Worker.under_step) Worker.under_init before) hbefore
  have hhonest : Honest r ([] ++ events) s := Run.exec_remembers
    (fun _ _ _ _ h hok hstep => honest_step h hok hstep) (honest_start r hunder) hfresh hrun
  rwa [List.nil_append] at hhonest

theorem waited_run {worker : Server} {events : List Event}
    (hrun : Run.exec (step blocking r) (start worker) events = some s)
    (hpatient : Run.Along (step blocking r) Patient (start worker) events) : Waited s :=
  Run.exec_invariant (fun _ _ _ h hok hstep => waited_step h hok hstep) (waited_start worker)
    hpatient hrun

/-- The attempt that `DockerBackend.invoke` makes of what it has met. -/
theorem Honest.trueAnswer (h : Honest r past s) {waited : Prop}
    (hwaited : waited → Waited s ∧ s.pc.over = true) {world : Dispatcher.World} {moment : ℕ}
    {target : Dispatcher.DispatchTarget} {request : Dispatcher.DispatchRequest}
    {error : Option String} (hmet : world.worker moment target request = met s error) :
    ∃ attempt, Dispatcher.dockerInvoke world moment target request = .returns attempt ∧
      TrueAnswer r past waited attempt := by
  unfold Dispatcher.dockerInvoke
  rw [hmet, met]
  cases htask : s.a2aTask with
  | none =>
      refine ⟨_, rfl, nofun, fun herror => absurd herror (no_task_error error), fun hw => ?_⟩
      obtain ⟨hwait, hover⟩ := hwaited hw
      obtain ⟨task, hsome, -⟩ := hwait.finished hover
      rw [htask] at hsome
      cases hsome
  | some task =>
      refine ⟨_, rfl, fun hsuccess => ?_, fun hfailed => ?_, fun hw => ?_⟩
      · have hstate : task.state = .completed := by
          cases hstate : task.state <;>
            simp [A2ATask.read, hstate, TaskState.text] at hsuccess ⊢
        obtain ⟨htold, hrecord, hmessage⟩ := h.final htask (by rw [hstate]; rfl)
        obtain ⟨result, now, hmem, htext⟩ := htold.completed (hrecord ▸ hstate)
        obtain ⟨text, hsent⟩ := h.sent _ (h.task task htask).1
        refine ⟨_, text, result, now, hsent, hmem, ?_⟩
        rw [← htext, ← hmessage]
        exact orElse_empty task.message
      · have hstate : task.state = .failed := by
          cases hstate : task.state <;>
            simp [A2ATask.read, hstate, TaskState.text] at hfailed ⊢
        obtain ⟨htold, hrecord, hmessage⟩ := h.final htask (by rw [hstate]; rfl)
        obtain ⟨text, now, hmem, htext⟩ := htold.failed (hrecord ▸ hstate)
        refine ⟨text, now, hmem, ?_⟩
        rw [← htext, ← hmessage]
        exact orElse_empty task.message
      · obtain ⟨hwait, hover⟩ := hwaited hw
        obtain ⟨task', hsome, hfinal⟩ := hwait.finished hover
        obtain rfl : task = task' := Option.some.inj (htask.symm.trans hsome)
        obtain ⟨htold, hrecord, -⟩ := h.final htask hfinal
        cases hstate : task.state with
        | completed => exact .inl (by simp [A2ATask.read, hstate, TaskState.text])
        | failed => exact .inr (by simp [A2ATask.read, hstate, TaskState.text])
        | canceled => exact absurd (hrecord.symm.trans hstate) htold.notCanceled
        | working =>
            rw [hstate] at hfinal
            cases hfinal
        | unknown =>
            rw [hstate] at hfinal
            cases hfinal

/-- **An attempt carries the answer of its own message**, whatever the worker has done before,
whatever else it does meanwhile, and whenever the invoke stops waiting. -/
theorem attempt_true (blocking : ℕ → Bool) (r : ℕ) (before : List Worker.Event) (worker : Server)
    (hbefore : Run.exec (Worker.step blocking) Worker.init before = some worker)
    (events : List Event) (s : Sys)
    (hrun : Run.exec (step blocking r) (start worker) events = some s)
    (hfresh : Run.Along (step blocking r) Fresh (start worker) events)
    (world : Dispatcher.World) (moment : ℕ) (target : Dispatcher.DispatchTarget)
    (request : Dispatcher.DispatchRequest) (error : Option String)
    (hmet : world.worker moment target request = met s error) :
    ∃ attempt, Dispatcher.dockerInvoke world moment target request = .returns attempt ∧
      TrueAnswer r events
        (Run.Along (step blocking r) Patient (start worker) events ∧ s.pc.over = true)
        attempt :=
  (honest_run hbefore hrun hfresh).trueAnswer (fun hw => ⟨waited_run hrun hw.1, hw.2⟩) hmet

instance (s : Sys) (e : Event) : Decidable (Fresh s e) :=
  inferInstanceAs (Decidable (∀ p ∈ inserted e, s.started ≠ some p.2))

/-- An invoke that polls until its worker has answered, while another message is raised. -/
def polledTwice : List Event := taken ++ [
  .worker (.register 0 "3f2a"), .responded, .answers, .polled, .forwarded,
  .worker (.send 1 1001), .worker (.insert 1 "77c0" "draw a logo"), .slept false,
  .worker (.returns 0 "done" 1002), .worker (.raises 1 "no key" 1003), .answers, .polled,
  .forwarded, .closed, .returned]

theorem polledTwice_runs :
    (Run.exec (step (fun _ => false) 0) (start Worker.init) polledTwice).isSome = true := by
  decide +kernel

/-- Everything outside, with the worker of an invoke. -/
def worldOf (s : Sys) : Dispatcher.World where
  getAgent _ _ := .ok none
  findBySkill _ _ := .ok []
  adapters _ _ := none
  worker _ _ _ := met s none

theorem polledTwice_trueAnswer :
    ∃ attempt, Dispatcher.dockerInvoke
        (worldOf ((Run.exec (step (fun _ => false) 0) (start Worker.init) polledTwice).get
          polledTwice_runs))
        0 { kind := .docker, agentType := "tester" }
        { agentType := "tester", task := "write the tests", streaming := true } = .returns attempt ∧
      TrueAnswer 0 polledTwice
        (Run.Along (step (fun _ => false) 0) Patient (start Worker.init) polledTwice ∧
          ((Run.exec (step (fun _ => false) 0) (start Worker.init) polledTwice).get
            polledTwice_runs).pc.over = true) attempt :=
  attempt_true (fun _ => false) 0 [] Worker.init rfl polledTwice _
    (Option.some_get polledTwice_runs).symm (by decide +kernel) _ 0 _ _ none rfl

/-! ## On the wire -/

/-- The task as the client parses it; `event` is the progress event of a text. -/
def A2ATask.parsed (event : String → JsonObj) (task : A2ATask) : AgentSwarm.A2ATask where
  taskId := task.taskId
  state := task.state.text
  message := some task.message
  progress := task.progress.map event

/-- The client parses the snapshot of a record. -/
theorem toTask_eq_parsed (event : String → JsonObj) (taskId : String) (record : Record) :
    record.toTask event taskId = (snapshot taskId record).parsed event := rfl

/-- **What `get_task` makes of the worker's JSON** is what the invoke is given. -/
theorem getReply_eq_answer (event : String → JsonObj) (s : Sys) (taskId : String) :
    A2AClient.getReply taskId (s.worker.handleGetTask event taskId) =
      some ((answer s taskId).parsed event) := by
  unfold answer
  cases hget : s.worker.tasks.get taskId with
  | none =>
      have hgone : s.worker.getTask taskId = none := by simp [Server.getTask, hget]
      rw [Server.handleGetTask, hgone]
      rfl
  | some r' =>
      have htask : s.worker.getTask taskId = some (s.worker.records r') := by
        simp [Server.getTask, hget]
      rw [Worker.getReply_handleGetTask s.worker taskId hget, htask, toTask_eq_parsed]

/-- **What `send_message` makes of the worker's JSON**, in either mode. -/
theorem sendReply_eq_response (event : String → JsonObj) {task : A2ATask}
    (h : response blocking r s = some task) :
    A2AClient.sendReply
        (if blocking r then Worker.finished event task.taskId (s.worker.records r)
          else Worker.sent task.taskId) = some (task.parsed event) := by
  unfold response at h
  split at h
  · cases h
  · split at h
    · rename_i hmode
      split at h <;> cases h
      rw [if_pos hmode]
      exact Worker.sendReply_finished _ _
    · rename_i hmode
      split at h <;> cases h
      rw [if_neg hmode]
      exact Worker.sendReply_sent _

end Handover
end AgentSwarm
