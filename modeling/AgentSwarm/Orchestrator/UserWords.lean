import AgentSwarm.Orchestrator.ExternalExecute

/-!
# The user's words in the session

When an external orchestration succeeds, the turn is added to the session's messages.
The user's part of it is taken back out of the message that was sent, at the last
heading in it, and the user may have written that heading as well.

* `turns` — the messages that an execution adds to the session.
* `WordsSurvive` — when it succeeds, they are the user's own message and the reply.
* `turns_execute` — what is added in any case.
* `userWords_withHistory_iff` — which messages come back.
* `wordsSurvive_iff` — **main result**: the user's words survive every execution exactly
  when the heading, with its line break, does not occur in them.
-/

namespace AgentSwarm
namespace ExternalOrchestrator

open Orchestrator (Message withHistory userWords userWords_withHistory userWords_of_not_infix
  externalTurn requestMarker requestHeading isPartOf isPartOf_iff heading_infix_of_marker)

/-! ## The property -/

/-- The messages that are added to the session. -/
def turns : List Entry → List Message
  | [] => []
  | .turn messages :: log => messages ++ turns log
  | _ :: log => turns log

/-- If the execution succeeds with a session that has a list of messages, it adds the user's
message and the reply to that list. -/
def WordsSurvive (req : Request) (c : Course) : Prop :=
  ∀ messages, req.session.bind SessionView.messages = some messages →
    ∀ reply, (execute req c).result = .ok reply →
      turns (execute req c).log = [.user req.userMessage, .assistant (some reply) []]

/-! ## What an execution adds -/

theorem turns_append (log log' : List Entry) : turns (log ++ log') = turns log ++ turns log' := by
  induction log with
  | nil => rfl
  | cons entry log ih =>
      cases entry with
      | turn messages => simp only [List.cons_append, turns, ih, List.append_assoc]
      | event event => exact ih
      | state delta => exact ih
      | emitted event => exact ih

/-- A computation that claims nothing adds nothing. -/
theorem turns_of_silent {α : Type} {x : Logged α} (h : x.Silent) : turns x.log = [] := by
  have hlog : ∀ log : List Entry, (∀ entry ∈ log, ¬ entry.Claims) → turns log = [] := by
    intro log
    induction log with
    | nil => exact fun _ => rfl
    | cons entry log ih =>
        intro hall
        have hrest := ih fun e he => hall e (List.mem_cons_of_mem _ he)
        cases entry with
        | turn messages => exact absurd trivial (hall _ List.mem_cons_self)
        | event event => exact hrest
        | state delta => exact hrest
        | emitted event => exact hrest
  exact hlog x.log h

variable {req : Request} {c : Course}

theorem turns_write (p : Place) {entry : Entry} (h : ∀ messages, entry ≠ .turn messages) :
    turns (write req c p entry).log = [] := by
  rw [write]
  split
  · rfl
  · dsimp only
    split
    · cases entry with
      | turn messages => exact absurd rfl (h messages)
      | _ => rfl
    · rfl

/-- What a successful conclusion adds is the turn. -/
theorem turns_conclude {task : Option A2ATask} {reply : String}
    (hok : (conclude req c task).result = .ok reply) :
    turns (conclude req c task).log = turns (answer req reply).log := by
  cases task with
  | none =>
      obtain ⟨⟨e, he⟩, -⟩ := @conclude_none req c
      cases hok.symm.trans he
  | some task =>
      by_cases hfailed : task.state = "failed"
      · obtain ⟨⟨e, he⟩, -⟩ := @conclude_failed req c _ hfailed
        cases hok.symm.trans he
      · rw [conclude] at hok ⊢
        simp only [hfailed, if_false] at hok ⊢
        have hfirst := @turns_write req c .completing
          (.event (completedEvent (cut 500 (task.message.getD "")))) (by simp)
        have hsecond := @turns_write req c .updating
          (.state [("last_result", .str (cut 2000 (task.message.getD "")))]) (by simp)
        rcases hres : (write req c .completing
            (.event (completedEvent (cut 500 (task.message.getD ""))))).result with e | u
        · rw [(Logged.bind_error hres).1] at hok
          cases hok
        · rw [(Logged.bind_ok hres).1] at hok
          rw [(Logged.bind_ok hres).2, turns_append, hfirst, List.nil_append]
          rcases hres' : (write req c .updating
              (.state [("last_result", .str (cut 2000 (task.message.getD "")))])).result with e | u
          · rw [(Logged.bind_error hres').1] at hok
            cases hok
          · rw [(Logged.bind_ok hres').1, answer_result] at hok
            cases hok
            rw [(Logged.bind_ok hres').2, turns_append, hsecond, List.nil_append]

/-- **What a successful execution adds**: the turn, as `execute` has recovered it. -/
theorem turns_execute {messages : List Message}
    (hmessages : req.session.bind SessionView.messages = some messages) {reply : String}
    (hok : (execute req c).result = .ok reply) :
    turns (execute req c).log = externalTurn req.text reply := by
  rw [execute] at hok ⊢
  rcases htask : (tryStatement req c).result with e | task
  · rw [(Logged.bind_error htask).1] at hok
    cases hok
  · rw [(Logged.bind_ok htask).1] at hok
    rw [(Logged.bind_ok htask).2, turns_append, turns_of_silent tryStatement_silent,
      List.nil_append, turns_conclude hok, answer, hmessages]
    exact List.append_nil _

/-! ## Which words come back -/

theorem infix_withHistory (messages : List Message) (userMessage : String) :
    userMessage.toList <:+: (withHistory messages userMessage).toList := by
  rw [withHistory]
  split
  · exact List.infix_refl _
  · rw [String.toList_append]
    exact (List.suffix_append _ _).isInfix

/-- **Which words come back**: those without the heading and its line break. -/
theorem userWords_withHistory_iff (messages : List Message) (userMessage : String) :
    userWords (withHistory messages userMessage) = userMessage ↔
      ¬ requestMarker <:+: userMessage.toList := by
  constructor
  · intro heq hmarker
    have hheading : isPartOf requestHeading (withHistory messages userMessage).toList = true := by
      rw [isPartOf_iff]
      exact heading_infix_of_marker (hmarker.trans (infix_withHistory messages userMessage))
    rw [userWords, if_pos hheading] at heq
    rw [← heq, String.toList_ofList] at hmarker
    exact Split.not_infix_lastPiece (by decide) _ hmarker
  · exact userWords_withHistory messages

/-! ## The exact condition -/

/-- The agent answers at once that it is done, and nothing raises. -/
def smoothCourse : Course where
  send _ _ _ := some { taskId := "a1", state := "working" }
  answers := [some { taskId := "a1", state := "completed", message := some "done" }]
  raises _ := none
  stored _ := true

/-- Some execution of every request succeeds. -/
theorem execute_smoothCourse (req : Request) : (execute req smoothCourse).result = .ok "done" := by
  have hwrite : ∀ p entry, (write req smoothCourse p entry).result = .ok () := by
    intro p entry
    rw [write]
    split <;> rfl
  have hemit : ∀ p event, (emit req smoothCourse p event).result = .ok () := by
    intro p event
    rw [emit]
    split <;> rfl
  let done : A2ATask := { taskId := "a1", state := "completed", message := some "done" }
  have hreceive : (receive req smoothCourse).result = .ok (some done) := by
    have hfollow : ∀ task, (follow req smoothCourse 0 task [done]).result = .ok done :=
      fun _ => (Logged.bind_ok (hemit _ _)).1
    exact (Logged.bind_ok (hfollow _)).1
  have hblock : (tryBlock req smoothCourse).result = .ok (some done) :=
    (Logged.bind_ok (hwrite _ _)).1.trans ((Logged.bind_ok (hemit _ _)).1.trans hreceive)
  have htry : (tryStatement req smoothCourse).result = .ok (some done) := by
    rw [tryStatement, closing, Logged.exceptThen]
    dsimp only [smoothCourse]
    split
    · rename_i hraised
      cases hblock.symm.trans hraised
    · exact hblock
  refine (Logged.bind_ok htry).1.trans ?_
  exact (Logged.bind_ok (hwrite _ _)).1.trans
    ((Logged.bind_ok (hwrite _ _)).1.trans (answer_result "done"))

/-- **The user's words survive** every execution exactly when they do not contain the heading
with its line break. -/
theorem wordsSurvive_iff (req : Request) :
    (∀ c, WordsSurvive req c) ↔
      ((req.session.bind SessionView.messages).isSome →
        ¬ requestMarker <:+: req.userMessage.toList) := by
  constructor
  · intro h hsome
    obtain ⟨messages, hmessages⟩ := Option.isSome_iff_exists.1 hsome
    have hturn := h smoothCourse messages hmessages "done" (execute_smoothCourse req)
    rw [turns_execute hmessages (execute_smoothCourse req)] at hturn
    have hwords : userWords req.text = req.userMessage := by simpa [externalTurn] using hturn
    exact (userWords_withHistory_iff _ _).1 hwords
  · intro h c messages hmessages reply hok
    have hwords : userWords req.text = req.userMessage :=
      (userWords_withHistory_iff _ _).2 (h (by rw [hmessages]; rfl))
    rw [turns_execute hmessages hok, externalTurn, hwords]

/-! ## A message with the heading in it -/

/-- The user asks about a document that has the heading in it. -/
def headingRequest : Request where
  endpoint := "http://orchestrator:9000"
  taskId := "task-2"
  tenantId := "default"
  userMessage := "翻译：\n## 本次请求\n写一个商店"
  eventCallback := false
  session := some { sessionId := some "s1", messages := some [.user "hello"] }
  sessionService := false

/-- Only what stands after the heading is recorded as the user's message. -/
theorem heading_cuts_words : ¬ WordsSurvive headingRequest smoothCourse := by
  intro h
  have hturn := h [.user "hello"] rfl "done" (execute_smoothCourse headingRequest)
  exact absurd hturn (by decide +kernel)

end ExternalOrchestrator
end AgentSwarm
