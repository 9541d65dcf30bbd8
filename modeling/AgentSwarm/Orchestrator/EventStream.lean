import AgentSwarm.Orchestrator.Execute

/-!
# What the watchers see of a run

While `Orchestrator.execute` runs it emits events, which are broadcast: one at the start of each
iteration, and two for each call whose arguments can be read.  Between these two the tool for one
agent emits what its worker reports.  The LLM is passed the messages, and in the last three
iterations no tools.

* `Event`, `Happening` — what is emitted, and what happens altogether.
* `progressEvents` — what a tool emits itself.
* `Outside.watchCalls`, `Outside.watch` — the two loops, with what happens in them.
* `watchCalls_fst`, `watch_iterate` — without that, they are the loops of `Outside.execute`.
* `retell` — what has happened, told from the messages and the reports of the workers.
* `Retold`, `retold_watch` — the two agree, by induction on the iterations.
* `stream_retold` — **the events of a run are those that its messages tell**, with the reports of
  each dispatch inside of it.
* `loop_law` — how often the LLM is asked, with what, and when it is urged to finish.
-/

namespace AgentSwarm
namespace Orchestrator
namespace EventStream

/-- The events that `execute` emits. -/
inductive Event where
  | thinking (iteration : ℕ)
  /-- With the note that a `finalize` is forced. -/
  | forcing (iteration : ℕ)
  | toolCall (tool : String) (args : Json)
  | toolResult (tool result : String)
  /-- A report of a worker, by the tool that has dispatched it. -/
  | agentProgress (agent : Json) (data : JsonObj)

/-- An event, or a request to the LLM with or without the tools. -/
inductive Happening where
  | emits (e : Event)
  | asks (messages : List Message) (tools : Bool)

/-- `result[:500]`. -/
def cut (result : String) : String := String.ofList (result.toList.take 500)

/-- What a tool emits while it is at work: `dispatch_agent` passes on what its worker reports,
as `{"agent": agent_type, **event}`, and the other tools emit nothing. -/
def progressEvents (name : String) (args : Json) (reports : List JsonObj) : List Event :=
  match args with
  | .obj fields =>
      if name = "dispatch_agent" then
        let agent := (Dict.get fields "agent_type").getD (.str "")
        reports.map fun event =>
          .agentProgress agent
            (event.foldl (fun data entry => data.set entry.1 entry.2) [("agent", agent)])
      else []
  | _ => []

end EventStream

open EventStream (Event Happening cut progressEvents)

/-- `Outside.runCalls`, with the events.  `reports` are the reports of the workers, by iteration
and position of the call. -/
def Outside.watchCalls (out : Outside) (reports : ℕ → ℕ → List JsonObj) (i : ℕ) :
    ℕ → List ToolCall → Turn → (Turn × CallsEnd) × List Event
  | _, [], s => ((s, .goOn), [])
  | j, call :: calls, s =>
      match out.loads call.arguments with
      | .raises => ((s, .raised), [])
      | .decodeError =>
          out.watchCalls reports i (j + 1) calls
            (s.append (.tool call.id (parseFailure call.arguments)))
      | .value args =>
          let called := .toolCall call.name args :: progressEvents call.name args (reports i j)
          match out.executeTool i j with
          | .raises => ((s, .raised), called)
          | .cancelled => ((s, .cancelled), called)
          | .returns result dispatched =>
              let returned := Event.toolResult call.name (cut result)
              let s := { s.append (.tool call.id result) with
                dispatched := s.dispatched || dispatched }
              if call.name = "finalize" ∧ ¬ reviewFailed result then
                (({ s with finalResult := summaryOf out.loads args result }, .finalized),
                  called ++ [returned])
              else
                let (ended, events) := out.watchCalls reports i (j + 1) calls s
                (ended, called ++ returned :: events)

namespace EventStream

/-- A run as far as it has been watched. -/
structure Watched where
  happenings : List Happening
  turn : Turn
  exit : Exit

def Watched.after (w : Watched) (before : List Happening) : Watched :=
  { w with happenings := before ++ w.happenings }

/-- What is emitted before the request of iteration `i`. -/
def opening (s : Turn) (i : ℕ) : List Happening :=
  if i = maxIterations - 4 ∧ s.dispatched then [.emits (.thinking i), .emits (.forcing i)]
  else [.emits (.thinking i)]

/-- The tools are passed along but in the last three iterations. -/
def withTools (i : ℕ) : Bool := i < maxIterations - 3

/-- After the loop over the calls; `rest` are the next iterations. -/
def afterCalls (s : Turn) (rest : Watched) : CallsEnd → Watched
  | .goOn => rest
  | .finalized => ⟨[], s, .returned⟩
  | .raised => ⟨[], s, .raised⟩
  | .cancelled => ⟨[], s, .cancelled⟩

end EventStream

open EventStream (Watched opening withTools)

/-- Iteration `i` from the request on; `rest` are the next iterations. -/
def Outside.watchRound (out : Outside) (reports : ℕ → ℕ → List JsonObj) (i : ℕ) (s : Turn)
    (rest : Turn → Watched) : Watched :=
  let asked := [Happening.asks s.messages (withTools i)]
  match out.completion i with
  | .raises => ⟨asked, { s with finalResult := .str "编排器调用 LLM 失败" }, .returned⟩
  | .noChoice => ⟨asked, s, .raised⟩
  | .cancelled => ⟨asked, s, .cancelled⟩
  | .reply content calls =>
      let s' := s.append (.assistant content calls)
      if calls = [] then
        ⟨asked, { s' with finalResult := contentOr content s'.finalResult }, .returned⟩
      else
        let ((s', e), events) := out.watchCalls reports i 0 calls s'
        (EventStream.afterCalls s' (rest s') e).after (asked ++ events.map .emits)

/-- `Outside.iterate`, with what happens. -/
def Outside.watch (out : Outside) (reports : ℕ → ℕ → List JsonObj) : ℕ → Turn → Watched
  | 0, s => ⟨[], s, .returned⟩
  | n + 1, s =>
      let i := maxIterations - (n + 1)
      (out.watchRound reports i (s.beforeCall i) (out.watch reports n)).after (opening s i)

/-- `Outside.execute`, with what happens. -/
def Outside.watchExecute (out : Outside) (reports : ℕ → ℕ → List JsonObj) (systemPrompt : String)
    (session : Option History) (userMessage : String) : Watched :=
  out.watch reports maxIterations
    ⟨startMessages systemPrompt session userMessage, false, .str "任务执行完毕，但未产生最终结果。"⟩

namespace EventStream

/-- The requests, in order. -/
def requests (happenings : List Happening) : List (List Message × Bool) :=
  happenings.filterMap fun h =>
    match h with
    | .asks messages tools => some (messages, tools)
    | .emits _ => none

/-! ## What the messages tell -/

/-- The events of calls from position `j` on, by the tool messages that follow: two for each
call whose arguments can be read, the first with the call and the second with the beginning of
the message, and between them the reports of its worker. -/
def toolEvents (loads : String → Loaded) (reports : ℕ → List JsonObj) :
    ℕ → List ToolCall → List Message → List Event
  | j, call :: calls, .tool _ content :: ms =>
      match loads call.arguments with
      | .value args =>
          (.toolCall call.name args :: progressEvents call.name args (reports j)) ++
            .toolResult call.name (cut content) :: toolEvents loads reports (j + 1) calls ms
      | _ => toolEvents loads reports (j + 1) calls ms
  | _, _, _ => []

/-- What has happened from iteration `i` on, told from the messages that have been appended
since to `before`; `thought` says that the iteration has been opened. -/
def retell (loads : String → Loaded) (reports : ℕ → ℕ → List JsonObj) :
    ℕ → Bool → List Message → List Message → List Happening
  | _, _, _, [] => []
  | i, _, before, .user content :: ms =>
      .emits (.thinking i) :: .emits (.forcing i) ::
        retell loads reports i true (before ++ [.user content]) ms
  | i, thought, before, .assistant content calls :: ms =>
      (if thought then [] else [.emits (.thinking i)]) ++ .asks before (withTools i) ::
        ((toolEvents loads (reports i) 0 calls ms).map .emits ++
          retell loads reports (i + 1) false (before ++ [.assistant content calls]) ms)
  | i, thought, before, .system content :: ms =>
      retell loads reports i thought (before ++ [.system content]) ms
  | i, thought, before, .tool id content :: ms =>
      retell loads reports i thought (before ++ [.tool id content]) ms

/-! ## The loops without the events -/

variable {out : Outside} {reports : ℕ → ℕ → List JsonObj} {i : ℕ}

theorem watchCalls_fst (j : ℕ) (calls : List ToolCall) (s : Turn) :
    (out.watchCalls reports i j calls s).1 = out.runCalls i j calls s := by
  induction calls generalizing j s with
  | nil => rfl
  | cons call calls ih =>
      cases hloads : out.loads call.arguments with
      | raises => simp only [Outside.watchCalls, Outside.runCalls, hloads]
      | decodeError => simp only [Outside.watchCalls, Outside.runCalls, hloads, ih]
      | value args =>
          cases htool : out.executeTool i j with
          | raises => simp only [Outside.watchCalls, Outside.runCalls, hloads, htool]
          | cancelled => simp only [Outside.watchCalls, Outside.runCalls, hloads, htool]
          | returns result dispatched =>
              simp only [Outside.watchCalls, Outside.runCalls, hloads, htool]
              split
              · rfl
              · exact ih _ _

theorem requests_append (xs ys : List Happening) :
    requests (xs ++ ys) = requests xs ++ requests ys := List.filterMap_append

theorem requests_emits (events : List Event) : requests (events.map .emits) = [] := by
  induction events with
  | nil => rfl
  | cons e events ih => exact ih

theorem requests_opening (s : Turn) (i : ℕ) : requests (opening s i) = [] := by
  unfold opening
  split <;> rfl

/-- `w` is the outcome, with what has happened. -/
structure Shows (w : Watched) (outcome : Outcome) : Prop where
  turn : w.turn = outcome.turn
  exit : w.exit = outcome.exit
  passed : (requests w.happenings).map Prod.fst = outcome.passed

theorem shows_afterCalls {rest : Turn → Watched} {rest' : Turn → Outcome}
    (h : ∀ s, Shows (rest s) (rest' s)) (messages : List Message) (events : List Event)
    (ended : Turn × CallsEnd) :
    Shows ((afterCalls ended.1 (rest ended.1) ended.2).after
        ([.asks messages (withTools i)] ++ events.map .emits))
      (Orchestrator.afterCalls messages ended.1 (rest' ended.1) ended.2) := by
  have hasked : (requests ([.asks messages (withTools i)] ++ events.map .emits)).map Prod.fst =
      [messages] := by
    rw [requests_append, requests_emits]
    rfl
  obtain ⟨s, e⟩ := ended
  have hafter : ∀ w : Watched, (requests
      (w.after ([.asks messages (withTools i)] ++ events.map .emits)).happenings).map Prod.fst =
        messages :: (requests w.happenings).map Prod.fst := by
    intro w
    rw [Watched.after, requests_append, List.map_append, hasked]
    rfl
  cases e with
  | goOn => exact ⟨(h s).turn, (h s).exit, (hafter _).trans (congrArg _ (h s).passed)⟩
  | finalized => exact ⟨rfl, rfl, hafter _⟩
  | raised => exact ⟨rfl, rfl, hafter _⟩
  | cancelled => exact ⟨rfl, rfl, hafter _⟩

/-- **The same loop**: what is watched is what `Outside.iterate` does. -/
theorem watch_iterate (n : ℕ) (s : Turn) : Shows (out.watch reports n s) (out.iterate n s) := by
  induction n generalizing s with
  | zero => exact ⟨rfl, rfl, rfl⟩
  | succ n ih =>
      have hround : ∀ hs : List Happening, requests hs = [] → ∀ w outcome, Shows w outcome →
          Shows (w.after hs) outcome := fun hs hempty w outcome h =>
        ⟨h.turn, h.exit, by rw [Watched.after, requests_append, hempty]; exact h.passed⟩
      rw [Outside.watch, Outside.iterate]
      refine hround _ (requests_opening s _) _ _ ?_
      dsimp only
      rw [Outside.watchRound]
      cases out.completion (maxIterations - (n + 1)) with
      | raises => exact ⟨rfl, rfl, rfl⟩
      | noChoice => exact ⟨rfl, rfl, rfl⟩
      | cancelled => exact ⟨rfl, rfl, rfl⟩
      | reply content calls =>
          dsimp only
          split
          · exact ⟨rfl, rfl, rfl⟩
          · rw [← watchCalls_fst]
            exact shows_afterCalls ih _ _ _

/-- **The same `execute`**, with what happens in it. -/
theorem watchExecute_execute (systemPrompt : String) (session : Option History)
    (userMessage : String) : Shows (out.watchExecute reports systemPrompt session userMessage)
      (out.execute systemPrompt session userMessage) := watch_iterate _ _

/-! ## The calls of one response -/

/-- What a loop over calls from position `j` on has left: the tool messages `replies`, and events
that they tell. -/
structure Left (loads : String → Loaded) (reports : ℕ → List JsonObj) (j : ℕ)
    (calls : List ToolCall) (s : Turn) (left : (Turn × CallsEnd) × List Event)
    (replies : List (String × String)) : Prop where
  messages : left.1.1.messages = s.messages ++ toolMessages replies
  told : toolEvents loads reports j calls (toolMessages replies) <+: left.2
  finalized : left.1.2 = .finalized →
    toolEvents loads reports j calls (toolMessages replies) = left.2
  goOn : left.1.2 = .goOn → ∀ ms,
    toolEvents loads reports j calls (toolMessages replies ++ ms) = left.2

/-- No tool message tells of nothing. -/
theorem toolEvents_nil (loads : String → Loaded) (reports : ℕ → List JsonObj) (j : ℕ)
    (calls : List ToolCall) : toolEvents loads reports j calls [] = [] := by
  cases calls <;> rfl

/-- A call that raises or is cancelled has at most been announced. -/
theorem left_nothing (loads : String → Loaded) (reports : ℕ → List JsonObj) (j : ℕ)
    (calls : List ToolCall) (s : Turn) {e : CallsEnd} (events : List Event)
    (hfinalized : e ≠ .finalized) (hgoOn : e ≠ .goOn) :
    Left loads reports j calls s ((s, e), events) [] where
  messages := (List.append_nil s.messages).symm
  told := (toolEvents_nil loads reports j calls).symm ▸ List.nil_prefix
  finalized h := absurd h hfinalized
  goOn h := absurd h hgoOn

/-- One tool message more in front. -/
theorem Left.cons {loads : String → Loaded} {reports : ℕ → List JsonObj} {j : ℕ}
    {calls : List ToolCall} {call : ToolCall} {s s' : Turn}
    {left : (Turn × CallsEnd) × List Event} {replies : List (String × String)}
    (h : Left loads reports (j + 1) calls s' left replies) {content : String}
    (events : List Event) (hmessages : s'.messages = s.messages ++ [.tool call.id content])
    (hevents : ∀ ms, toolEvents loads reports j (call :: calls) (.tool call.id content :: ms) =
      events ++ toolEvents loads reports (j + 1) calls ms) :
    Left loads reports j (call :: calls) s (left.1, events ++ left.2)
      ((call.id, content) :: replies) where
  messages := by
    rw [h.messages, hmessages, List.append_assoc]
    rfl
  told := (hevents _).symm ▸ (List.prefix_append_right_inj events).2 h.told
  finalized he := (hevents _).trans (congrArg (events ++ ·) (h.finalized he))
  goOn he ms := (hevents _).trans (congrArg (events ++ ·) (h.goOn he ms))

/-- **The loop over the calls**: its events are told by the tool messages it appends. -/
theorem watchCalls_left (j : ℕ) (calls : List ToolCall) (s : Turn) :
    ∃ replies, Left out.loads (reports i) j calls s (out.watchCalls reports i j calls s)
      replies := by
  induction calls generalizing j s with
  | nil => exact ⟨[], (List.append_nil _).symm, List.nil_prefix, nofun, fun _ _ => rfl⟩
  | cons call calls ih =>
      cases hloads : out.loads call.arguments with
      | raises =>
          simp only [Outside.watchCalls, hloads]
          exact ⟨[], left_nothing _ _ _ _ s _ nofun nofun⟩
      | decodeError =>
          simp only [Outside.watchCalls, hloads]
          obtain ⟨replies, hleft⟩ := ih (j + 1)
            (s.append (.tool call.id (parseFailure call.arguments)))
          refine ⟨_, hleft.cons [] rfl fun ms => ?_⟩
          simp only [toolEvents, hloads, List.nil_append]
      | value args =>
          cases htool : out.executeTool i j with
          | raises =>
              simp only [Outside.watchCalls, hloads, htool]
              exact ⟨[], left_nothing _ _ _ _ s _ nofun nofun⟩
          | cancelled =>
              simp only [Outside.watchCalls, hloads, htool]
              exact ⟨[], left_nothing _ _ _ _ s _ nofun nofun⟩
          | returns result dispatched =>
              obtain ⟨called, hcalled⟩ : ∃ called, Event.toolCall call.name args ::
                progressEvents call.name args (reports i j) = called := ⟨_, rfl⟩
              have hevents : ∀ ms,
                  toolEvents out.loads (reports i) j (call :: calls)
                      (.tool call.id result :: ms) =
                    called ++ [.toolResult call.name (cut result)] ++
                      toolEvents out.loads (reports i) (j + 1) calls ms := by
                intro ms
                simp only [toolEvents, hloads, hcalled, List.append_assoc, List.cons_append,
                  List.nil_append]
              simp only [Outside.watchCalls, hloads, htool, hcalled]
              split
              · have hlast : toolEvents out.loads (reports i) j (call :: calls)
                    (toolMessages [(call.id, result)]) =
                      called ++ [.toolResult call.name (cut result)] := by
                  rw [toolMessages, List.map_singleton, hevents, toolEvents_nil, List.append_nil]
                exact ⟨[(call.id, result)], rfl, hlast ▸ List.prefix_refl _, fun _ => hlast, nofun⟩
              · obtain ⟨replies, hleft⟩ := ih (j + 1) { s.append (.tool call.id result) with
                  dispatched := s.dispatched || dispatched }
                have hleft := hleft.cons _ rfl hevents
                rw [List.append_assoc] at hleft
                exact ⟨_, hleft⟩

/-! ## The iterations -/

theorem retell_toolMessages (loads : String → Loaded) (reports : ℕ → ℕ → List JsonObj) (i : ℕ)
    (thought : Bool) (before : List Message) (replies : List (String × String)) (ms : List Message) :
    retell loads reports i thought before (toolMessages replies ++ ms) =
      retell loads reports i thought (before ++ toolMessages replies) ms := by
  induction replies generalizing before with
  | nil => rw [toolMessages, List.map_nil, List.nil_append, List.append_nil]
  | cons reply replies ih =>
      obtain ⟨id, content⟩ := reply
      have hcons : toolMessages ((id, content) :: replies) =
          [.tool id content] ++ toolMessages replies := rfl
      rw [hcons, List.append_assoc, ← List.append_assoc before, ← ih]
      rfl

/-- The run goes on from iteration `i` with what `ms` tell; if it returns and the LLM has not
failed, that is all. -/
structure Retold (out : Outside) (reports : ℕ → ℕ → List JsonObj) (i : ℕ) (thought : Bool)
    (before : List Message) (w : Watched) (ms : List Message) : Prop where
  messages : w.turn.messages = before ++ ms
  told : retell out.loads reports i thought before ms <+: w.happenings
  all : w.exit = .returned → (∀ i, out.completion i ≠ .raises) →
    retell out.loads reports i thought before ms = w.happenings

/-- A request that is not answered. -/
theorem retold_unanswered (s : Turn) {w : Watched} (hturn : w.turn.messages = s.messages)
    (hall : w.exit = .returned → ∃ i, out.completion i = .raises) :
    Retold out reports i true s.messages w [] where
  messages := hturn.trans (List.append_nil _).symm
  told := List.nil_prefix
  all hreturned hanswers := by
    obtain ⟨i, hi⟩ := hall hreturned
    exact absurd hi (hanswers i)

/-- Nothing, or a response and what follows it. -/
inductive Opens : List Message → Prop
  | nothing : Opens []
  | response (content : Option String) (calls : List ToolCall) (ms : List Message) :
      Opens (.assistant content calls :: ms)

theorem retell_of_opens (loads : String → Loaded) (reports : ℕ → ℕ → List JsonObj) (i : ℕ)
    (before : List Message) {ms : List Message} (h : Opens ms) (hne : ms ≠ []) :
    retell loads reports i false before ms =
      .emits (.thinking i) :: retell loads reports i true before ms := by
  cases h with
  | nothing => exact absurd rfl hne
  | response => rfl

/-- A response with calls, and what the loop over them has left. -/
theorem retell_response (loads : String → Loaded) (reports : ℕ → ℕ → List JsonObj) (i : ℕ)
    (before : List Message) (content : Option String) (calls : List ToolCall)
    (replies : List (String × String)) (ms : List Message) :
    retell loads reports i true before (.assistant content calls :: (toolMessages replies ++ ms)) =
      .asks before (withTools i) ::
        ((toolEvents loads (reports i) 0 calls (toolMessages replies ++ ms)).map .emits ++
          retell loads reports (i + 1) false
            (before ++ [.assistant content calls] ++ toolMessages replies) ms) := by
  rw [← retell_toolMessages]
  rfl

/-- A run that ends in the loop over the calls. -/
theorem retold_ended (s : Turn) {content : Option String} {calls : List ToolCall} {t : Turn}
    {e : CallsEnd} {events : List Event} {replies : List (String × String)}
    (hleft : Left out.loads (reports i) 0 calls (s.append (.assistant content calls))
      ((t, e), events) replies)
    {w : Watched} (hturn : w.turn = t)
    (hhappenings : w.happenings = .asks s.messages (withTools i) :: events.map .emits)
    (hexit : w.exit = .returned → e = .finalized) :
    Retold out reports i true s.messages w (.assistant content calls :: toolMessages replies) := by
  have hretell : retell out.loads reports i true s.messages
      (.assistant content calls :: toolMessages replies) =
        .asks s.messages (withTools i) ::
          (toolEvents out.loads (reports i) 0 calls (toolMessages replies)).map .emits := by
    have h := retell_response out.loads reports i s.messages content calls replies []
    rw [List.append_nil] at h
    exact h.trans (congrArg _ (List.append_nil _))
  refine ⟨?_, ?_, fun hreturned _ => ?_⟩
  · rw [hturn, hleft.messages, Turn.append, List.append_assoc]
    rfl
  · rw [hretell, hhappenings]
    exact (List.prefix_cons_inj _).2 (hleft.told.map Happening.emits)
  · rw [hretell, hhappenings, hleft.finalized (hexit hreturned)]

/-- An iteration asks the LLM first. -/
theorem watchRound_asks (out : Outside) (reports : ℕ → ℕ → List JsonObj) (i : ℕ) (s : Turn)
    (rest : Turn → Watched) :
    ∃ hs, (out.watchRound reports i s rest).happenings = .asks s.messages (withTools i) :: hs := by
  rw [Outside.watchRound]
  cases out.completion i with
  | reply content calls =>
      dsimp only
      split <;> exact ⟨_, rfl⟩
  | _ => exact ⟨_, rfl⟩

/-- **One iteration**, from its request on. -/
theorem retold_round (s : Turn) {rest : Turn → Watched}
    (hrest : ∀ s, ∃ ms, Retold out reports (i + 1) false s.messages (rest s) ms) :
    ∃ ms, Opens ms ∧ Retold out reports i true s.messages (out.watchRound reports i s rest) ms := by
  rw [Outside.watchRound]
  cases hcompletion : out.completion i with
  | raises => exact ⟨[], .nothing, retold_unanswered s rfl fun _ => ⟨i, hcompletion⟩⟩
  | noChoice => exact ⟨[], .nothing, retold_unanswered s rfl nofun⟩
  | cancelled => exact ⟨[], .nothing, retold_unanswered s rfl nofun⟩
  | reply content calls =>
      dsimp only
      split
      · rename_i hcalls
        subst hcalls
        exact ⟨_, .response content [] [], rfl, List.prefix_refl _, fun _ _ => rfl⟩
      · obtain ⟨replies, hleft⟩ :=
          @watchCalls_left out reports i 0 calls (s.append (.assistant content calls))
        obtain ⟨⟨⟨t, e⟩, events⟩, hwatch⟩ : ∃ left, out.watchCalls reports i 0 calls
          (s.append (.assistant content calls)) = left := ⟨_, rfl⟩
        rw [hwatch] at hleft ⊢
        cases e with
        | goOn =>
            obtain ⟨ms, hms⟩ := hrest t
            have htools := hleft.goOn rfl ms
            have hmessages : t.messages =
                s.messages ++ [.assistant content calls] ++ toolMessages replies := hleft.messages
            have hretell := retell_response out.loads reports i s.messages content calls replies ms
            rw [htools, ← hmessages] at hretell
            refine ⟨.assistant content calls :: (toolMessages replies ++ ms),
              .response content calls _, ?_, ?_, fun hreturned hanswers => ?_⟩
            · refine hms.messages.trans ?_
              rw [hmessages, List.append_assoc, List.append_assoc]
              rfl
            · rw [hretell]
              exact (List.prefix_cons_inj _).2 ((List.prefix_append_right_inj _).2 hms.told)
            · rw [hretell, hms.all hreturned hanswers]
              rfl
        | finalized =>
            exact ⟨_, .response content calls _, retold_ended s hleft rfl
              (List.append_nil _) fun _ => rfl⟩
        | raised =>
            exact ⟨_, .response content calls _, retold_ended s hleft rfl (List.append_nil _) nofun⟩
        | cancelled =>
            exact ⟨_, .response content calls _, retold_ended s hleft rfl (List.append_nil _) nofun⟩

/-- An iteration with what is emitted before its request. -/
theorem retold_opening (s : Turn) {w : Watched} {ms : List Message} (hopens : Opens ms)
    (hasks : w.happenings ≠ []) (h : Retold out reports i true (s.beforeCall i).messages w ms) :
    ∃ ms, Retold out reports i false s.messages (w.after (opening s i)) ms := by
  unfold Turn.beforeCall at h
  unfold opening
  split at h
  · rename_i hforce
    rw [if_pos hforce]
    have hretell : retell out.loads reports i false s.messages (.user forceFinalize :: ms) =
        [.emits (.thinking i), .emits (.forcing i)] ++
          retell out.loads reports i true (s.append (.user forceFinalize)).messages ms := rfl
    refine ⟨.user forceFinalize :: ms, h.messages.trans ?_, ?_, fun hreturned hanswers => ?_⟩
    · rw [Turn.append, List.append_assoc]
      rfl
    · rw [hretell]
      exact (List.prefix_append_right_inj _).2 h.told
    · rw [hretell, h.all hreturned hanswers]
      rfl
  · rename_i hforce
    rw [if_neg hforce]
    by_cases hms : ms = []
    · subst hms
      refine ⟨[], h.messages, List.nil_prefix, fun hreturned hanswers => ?_⟩
      exact absurd (h.all hreturned hanswers).symm hasks
    · have hretell := retell_of_opens out.loads reports i s.messages hopens hms
      refine ⟨ms, h.messages, ?_, fun hreturned hanswers => ?_⟩
      · rw [hretell]
        exact (List.prefix_cons_inj _).2 h.told
      · rw [hretell, h.all hreturned hanswers]
        rfl

/-- **All iterations.** -/
theorem retold_watch (n : ℕ) (hn : n ≤ maxIterations) (s : Turn) :
    ∃ ms, Retold out reports (maxIterations - n) false s.messages (out.watch reports n s) ms := by
  induction n generalizing s with
  | zero => exact ⟨[], (List.append_nil _).symm, List.nil_prefix, fun _ _ => rfl⟩
  | succ n ih =>
      obtain ⟨i, hi⟩ : ∃ i, maxIterations - (n + 1) = i := ⟨_, rfl⟩
      have hnext : i + 1 = maxIterations - n := by omega
      obtain ⟨ms, hopens, hms⟩ := @retold_round out reports i (s.beforeCall i) (out.watch reports n)
        (by rw [hnext]; exact ih (by omega))
      have hne : (out.watchRound reports i (s.beforeCall i)
          (out.watch reports n)).happenings ≠ [] := by
        obtain ⟨hs, hasks⟩ := watchRound_asks out reports i (s.beforeCall i) (out.watch reports n)
        rw [hasks]
        exact List.cons_ne_nil _ _
      rw [Outside.watch, hi]
      exact retold_opening s hopens hne hms

/-- **The events of a run are those that its messages tell**, with the reports of the workers
between the two events of the call that has dispatched them: no answered call whose arguments
can be read is left out, and a run that returns, of an LLM that does not fail, emits nothing
else.  The run is the one of `Outside.execute`. -/
theorem stream_retold (out : Outside) (reports : ℕ → ℕ → List JsonObj) (systemPrompt : String)
    (session : Option History) (userMessage : String) :
    let start := startMessages systemPrompt session userMessage
    let w := out.watchExecute reports systemPrompt session userMessage
    Shows w (out.execute systemPrompt session userMessage) ∧
      ∃ ms, w.turn.messages = start ++ ms ∧
        retell out.loads reports 0 false start ms <+: w.happenings ∧
        (w.exit = .returned → (∀ i, out.completion i ≠ .raises) →
          w.happenings = retell out.loads reports 0 false start ms) := by
  intro start w
  obtain ⟨ms, hms⟩ := @retold_watch out reports maxIterations (Nat.le_refl _)
    ⟨start, false, .str "任务执行完毕，但未产生最终结果。"⟩
  exact ⟨watchExecute_execute systemPrompt session userMessage, ms, hms.messages, hms.told,
    fun hreturned hanswers => (hms.all hreturned hanswers).symm⟩

/-! ## The law of the loop -/

/-- The iterations in which a `finalize` is forced. -/
def forcings (happenings : List Happening) : List ℕ :=
  happenings.filterMap fun h =>
    match h with
    | .emits (.forcing i) => some i
    | _ => none

/-- The iteration that is still to urge the LLM, before iteration `i`. -/
def due (i : ℕ) : List ℕ := if i ≤ maxIterations - 4 then [maxIterations - 4] else []

/-- From iteration `i` on, the LLM is asked `n` times at most, in iterations that follow each
other; every list it is passed goes on with the one before; and it is urged once at most, in the
iteration `urging`. -/
structure Law (i n : ℕ) (urging : List ℕ) (before : List Message) (w : Watched) : Prop where
  bounded : (requests w.happenings).length ≤ n
  tools : (requests w.happenings).map Prod.snd =
    (List.range' i (requests w.happenings).length).map withTools
  grows : List.IsChain (· <+: ·)
    (before :: ((requests w.happenings).map Prod.fst ++ [w.turn.messages]))
  urged : forcings w.happenings <+: urging

theorem forcings_append (xs ys : List Happening) :
    forcings (xs ++ ys) = forcings xs ++ forcings ys := List.filterMap_append

/-- No tool urges the LLM. -/
theorem forcings_called (name : String) (args : Json) (reported : List JsonObj) :
    forcings ((.toolCall name args :: progressEvents name args reported).map .emits) = [] := by
  have hnone : forcings ((progressEvents name args reported).map .emits) = [] := by
    unfold progressEvents
    split
    · split
      · induction reported with
        | nil => rfl
        | cons event reported ih => exact ih
      · rfl
    · rfl
  exact hnone

/-- No loop over calls urges the LLM. -/
theorem watchCalls_forcings (j : ℕ) (calls : List ToolCall) (s : Turn) :
    forcings ((out.watchCalls reports i j calls s).2.map .emits) = [] := by
  induction calls generalizing j s with
  | nil => rfl
  | cons call calls ih =>
      cases hloads : out.loads call.arguments with
      | raises => simp only [Outside.watchCalls, hloads, List.map_nil, forcings, List.filterMap_nil]
      | decodeError =>
          simp only [Outside.watchCalls, hloads]
          exact ih _ _
      | value args =>
          cases htool : out.executeTool i j with
          | raises =>
              simp only [Outside.watchCalls, hloads, htool]
              exact forcings_called _ _ _
          | cancelled =>
              simp only [Outside.watchCalls, hloads, htool]
              exact forcings_called _ _ _
          | returns result dispatched =>
              simp only [Outside.watchCalls, hloads, htool]
              split <;> rw [List.map_append, forcings_append, forcings_called, List.nil_append]
              · rfl
              · exact ih _ _

/-- The last request of a run. -/
theorem law_last (n : ℕ) (urging : List ℕ) (before : List Message) {w : Watched}
    {hs : List Happening} (hhappenings : w.happenings = .asks before (withTools i) :: hs)
    (hrequests : requests hs = []) (hforcings : forcings hs = []) (hturn : before <+: w.turn.messages) :
    Law i (n + 1) urging before w := by
  have hasked : requests w.happenings = [(before, withTools i)] := by
    rw [hhappenings]
    exact congrArg (_ :: ·) hrequests
  refine ⟨?_, ?_, ?_, ?_⟩
  · rw [hasked]
    exact Nat.succ_le_succ (Nat.zero_le n)
  · rw [hasked]
    rfl
  · rw [hasked]
    exact .cons_cons (List.prefix_refl _) (.cons_cons hturn (.singleton _))
  · rw [hhappenings]
    have hnone : forcings (.asks before (withTools i) :: hs) = [] := hforcings
    rw [hnone]
    exact List.nil_prefix

/-- A list may begin with less. -/
theorem grows_of_prefix {before before' : List Message} {lists : List (List Message)}
    (h : List.IsChain (· <+: ·) (before' :: lists)) (hbefore : before <+: before') :
    List.IsChain (· <+: ·) (before :: lists) := by
  cases h with
  | singleton => exact .singleton _
  | cons_cons hfirst hrest => exact .cons_cons (hbefore.trans hfirst) hrest

/-- A request that is followed by calls and further iterations. -/
theorem law_next {n : ℕ} {urging : List ℕ} {before before' : List Message} {w : Watched}
    (h : Law (i + 1) n urging before' w) {events : List Event}
    (hforcings : forcings (events.map .emits) = []) (hbefore : before <+: before') :
    Law i (n + 1) urging before
      (w.after ([.asks before (withTools i)] ++ events.map .emits)) := by
  have hasked : requests (w.after ([.asks before (withTools i)] ++ events.map .emits)).happenings =
      (before, withTools i) :: requests w.happenings := by
    rw [Watched.after, requests_append, requests_append, requests_emits]
    rfl
  refine ⟨?_, ?_, ?_, ?_⟩
  · rw [hasked]
    exact Nat.succ_le_succ h.bounded
  · rw [hasked, List.length_cons, List.range'_succ, List.map_cons, List.map_cons, h.tools]
  · rw [hasked]
    refine .cons_cons (List.prefix_refl _) ?_
    exact grows_of_prefix h.grows hbefore
  · rw [Watched.after, forcings_append, forcings_append, hforcings]
    exact h.urged

/-- **One iteration**, from its request on. -/
theorem law_round {n : ℕ} {urging : List ℕ} (s : Turn) {rest : Turn → Watched}
    (hrest : ∀ s, Law (i + 1) n urging s.messages (rest s)) :
    Law i (n + 1) urging s.messages (out.watchRound reports i s rest) := by
  rw [Outside.watchRound]
  cases out.completion i with
  | raises => exact law_last n urging _ rfl rfl rfl (List.prefix_refl _)
  | noChoice => exact law_last n urging _ rfl rfl rfl (List.prefix_refl _)
  | cancelled => exact law_last n urging _ rfl rfl rfl (List.prefix_refl _)
  | reply content calls =>
      dsimp only
      split
      · exact law_last n urging _ rfl rfl rfl (List.prefix_append _ _)
      · have hforcings := @watchCalls_forcings out reports i 0 calls
          (s.append (.assistant content calls))
        obtain ⟨replies, hleft⟩ :=
          @watchCalls_left out reports i 0 calls (s.append (.assistant content calls))
        obtain ⟨⟨⟨t, e⟩, events⟩, hwatch⟩ : ∃ left, out.watchCalls reports i 0 calls
          (s.append (.assistant content calls)) = left := ⟨_, rfl⟩
        rw [hwatch] at hleft hforcings ⊢
        have hgrown : s.messages <+: t.messages := by
          rw [hleft.messages, Turn.append, List.append_assoc]
          exact List.prefix_append _ _
        cases e with
        | goOn => exact law_next (hrest t) hforcings hgrown
        | _ =>
            refine law_last n urging _ (List.append_nil _) ?_ hforcings hgrown
            exact requests_emits events

theorem due_succ (i : ℕ) : due (i + 1) <+: due i := by
  unfold due
  split
  · rename_i hdue
    have hnow : i ≤ maxIterations - 4 := by omega
    simp only [if_pos hnow, List.prefix_rfl]
  · exact List.nil_prefix

theorem messages_beforeCall (s : Turn) (i : ℕ) : s.messages <+: (s.beforeCall i).messages := by
  rw [Turn.beforeCall]
  split
  · exact List.prefix_append _ _
  · exact List.prefix_refl _

/-- What is emitted before the request. -/
theorem law_opening {n : ℕ} (s : Turn) {w : Watched}
    (h : Law i n (due (i + 1)) (s.beforeCall i).messages w) :
    Law i n (due i) s.messages (w.after (opening s i)) := by
  have hasked : requests (w.after (opening s i)).happenings = requests w.happenings := by
    rw [Watched.after, requests_append, requests_opening, List.nil_append]
  refine ⟨?_, ?_, ?_, ?_⟩
  · rw [hasked]
    exact h.bounded
  · rw [hasked]
    exact h.tools
  · rw [hasked]
    exact grows_of_prefix h.grows (messages_beforeCall s i)
  · rw [Watched.after, forcings_append]
    unfold opening
    split
    · -- the iteration is the one that urges, and none after it does
      rename_i hforce
      obtain ⟨rfl, -⟩ := hforce
      have hnone : forcings w.happenings = [] := List.prefix_nil.1 h.urged
      rw [hnone]
      exact List.prefix_refl _
    · exact h.urged.trans (due_succ i)

/-- **All iterations.** -/
theorem law_watch (n : ℕ) (hn : n ≤ maxIterations) (s : Turn) :
    Law (maxIterations - n) n (due (maxIterations - n)) s.messages (out.watch reports n s) := by
  induction n generalizing s with
  | zero =>
      exact ⟨Nat.le_refl _, rfl, .cons_cons (List.prefix_refl _) (.singleton _), List.nil_prefix⟩
  | succ n ih =>
      obtain ⟨i, hi⟩ : ∃ i, maxIterations - (n + 1) = i := ⟨_, rfl⟩
      have hnext : maxIterations - n = i + 1 := by omega
      rw [hnext] at ih
      rw [Outside.watch, hi]
      exact law_opening s (law_round (s.beforeCall i) (ih (by omega)))

/-- **The law of the loop.**  The LLM is asked 25 times at most, in the iterations from 0 on and
with the tools in the first 22 of them; every list it is passed goes on with the one before, and
the last with what is saved; and a `finalize` is forced once at most, in iteration 21. -/
theorem loop_law (out : Outside) (reports : ℕ → ℕ → List JsonObj) (systemPrompt : String)
    (session : Option History) (userMessage : String) :
    Law 0 25 [21] (startMessages systemPrompt session userMessage)
      (out.watchExecute reports systemPrompt session userMessage) :=
  @law_watch out reports maxIterations (Nat.le_refl _)
    ⟨startMessages systemPrompt session userMessage, false, .str "任务执行完毕，但未产生最终结果。"⟩

end EventStream
end Orchestrator
end AgentSwarm
