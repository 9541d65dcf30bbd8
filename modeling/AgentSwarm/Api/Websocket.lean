import Mathlib.Data.List.Infix
import Mathlib.Logic.Function.Basic
import AgentSwarm.Lib.Dict
import AgentSwarm.Lib.Run

/-!
# The connections of the web sockets

`WSConnectionManager` keeps the connections of each task.  `broadcast` copies the list of a
task, sends to one connection after another, and then disconnects those for which the send has
failed, one at a time; in between, other calls run.

* `Conn`, `Broadcast`, `Event` — a connection, a broadcast that is under way, and what has
  happened, which no method reads.
* `Manager`, `Act`, `wsStep` — the manager, and one step of one call.
* `live` — the account of a connection in the log: it has been connected, and nothing has ended
  it since.
* `Delivers` — what holds of a manager, by its log.
* `Sound` — the invariant: also, what each broadcast still has to do.
* `delivers_throughout` — **the law of the broadcasts**, in every state of every run.
* `failed_send_stays` — a connection is still there for a while after a send to it has failed.
-/

namespace AgentSwarm
namespace Websocket

/-- `WSConnection`; sockets are told apart by numbers. -/
structure Conn where
  websocket : ℕ
  taskId : String
  deriving DecidableEq

/-- A broadcast that is under way: the connections it has not sent to yet, and the dead ones it
has not disconnected yet. -/
structure Broadcast where
  taskId : String
  rest : List Conn
  dead : List Conn
  deriving DecidableEq

/-- What has happened. -/
inductive Event where
  | connected (c : Conn)
  | disconnected (c : Conn)
  /-- The broadcast `b` has copied the list of a task. -/
  | copied (b : ℕ) (taskId : String) (connections : List Conn)
  /-- The broadcast `b` has sent to `c`, or failed to. -/
  | sent (b : ℕ) (c : Conn) (ok : Bool)
  /-- The broadcast `b` has disconnected `c`. -/
  | cleaned (b : ℕ) (c : Conn)
  deriving DecidableEq

/-- The manager, and the broadcasts that have begun. -/
structure Manager where
  connections : Dict String (List Conn)
  broadcasts : ℕ → Option Broadcast
  log : List Event

/-- One step of a call, between two places where another call may run. -/
inductive Act where
  /-- `connect`, once the socket has been accepted. -/
  | connect (c : Conn)
  | disconnect (c : Conn)
  /-- `broadcast`, up to the copy of the list. -/
  | broadcast (b : ℕ) (taskId : String)
  /-- The next send of a broadcast returns or raises. -/
  | send (b : ℕ) (ok : Bool)
  /-- The next dead connection of a broadcast is disconnected. -/
  | clean (b : ℕ)

/-- The connections of a task. -/
def Manager.of (s : Manager) (taskId : String) : List Conn := (s.connections.get taskId).getD []

/-- The connection is in the list of its task. -/
def Manager.Registered (s : Manager) (c : Conn) : Prop := c ∈ s.of c.taskId

instance (s : Manager) (c : Conn) : Decidable (s.Registered c) :=
  inferInstanceAs (Decidable (_ ∈ _))

/-- The socket has been connected before. -/
def Manager.used (s : Manager) (websocket : ℕ) : Bool :=
  s.log.any fun e =>
    match e with
    | .connected c => c.websocket = websocket
    | _ => false

/-- `disconnect`, with the lock held: a list that gets empty is deleted. -/
def remove (connections : Dict String (List Conn)) (c : Conn) : Dict String (List Conn) :=
  match connections.get c.taskId with
  | none => connections
  | some conns =>
      let left := conns.filter fun d => d.websocket ≠ c.websocket
      if left = [] then connections.erase c.taskId else connections.set c.taskId left

/-- One step.  No socket is connected twice. -/
def wsStep (s : Manager) : Act → Option Manager
  | .connect c =>
      if s.used c.websocket then none
      else some { s with
        connections := s.connections.set c.taskId (s.of c.taskId ++ [c])
        log := s.log ++ [.connected c] }
  | .disconnect c =>
      some { s with
        connections := remove s.connections c
        log := s.log ++ [.disconnected c] }
  | .broadcast b taskId =>
      match s.broadcasts b with
      | some _ => none
      | none => some { s with
          broadcasts := Function.update s.broadcasts b
            (some { taskId := taskId, rest := s.of taskId, dead := [] })
          log := s.log ++ [.copied b taskId (s.of taskId)] }
  | .send b ok =>
      match s.broadcasts b with
      | some ⟨taskId, c :: rest, dead⟩ =>
          let dead := if ok then dead else dead ++ [c]
          some { s with
            broadcasts := Function.update s.broadcasts b (some ⟨taskId, rest, dead⟩)
            log := s.log ++ [.sent b c ok] }
      | _ => none
  | .clean b =>
      match s.broadcasts b with
      | some ⟨taskId, [], c :: dead⟩ => some { s with
          connections := remove s.connections { c with taskId := taskId }
          broadcasts := Function.update s.broadcasts b (some ⟨taskId, [], dead⟩)
          log := s.log ++ [.cleaned b { c with taskId := taskId }] }
      | _ => none

/-- A manager that has just been made. -/
def initial : Manager where
  connections := []
  broadcasts _ := none
  log := []

/-! ## The property -/

/-- The connection has been connected, and nothing in the log has ended it since. -/
def live (ends : Event → Bool) (c : Conn) (log : List Event) : Bool :=
  log.foldl (fun is e => if e = .connected c then true else if ends e then false else is) false

/-- Its own `disconnect`, or the clean-up of a broadcast. -/
def removes (c : Conn) : Event → Bool
  | .disconnected d => d = c
  | .cleaned _ d => d = c
  | _ => false

/-- Its own `disconnect`, or a failed send. -/
def fails (c : Conn) : Event → Bool
  | .disconnected d => d = c
  | .sent _ d ok => d = c && !ok
  | _ => false

/-- The connections a broadcast has sent to, in order. -/
def sentBy (b : ℕ) (log : List Event) : List Conn :=
  log.filterMap fun e =>
    match e with
    | .sent b' c _ => if b' = b then some c else none
    | _ => none

/-- What an event says of the log before it: a broadcast copies the connections of its task
that are live, and disconnects only what it has failed to send to, when it has sent to its whole
copy. -/
def Told (log : List Event) : Event → Prop
  | .copied _ taskId connections => connections.Nodup ∧
      ∀ c, c ∈ connections ↔ c.taskId = taskId ∧ live (removes c) c log
  | .cleaned b c => .sent b c false ∈ log ∧ .copied b c.taskId (sentBy b log) ∈ log
  | _ => True

/-- A broadcast sends to the connections it has copied, in order and once to each, and has sent
to all of them when it is past its sends; when it has ended, no connection is left to which it
has failed to send.  A connection is registered as long as it is live, and no task has an empty
list. -/
structure Delivers (s : Manager) : Prop where
  told : ∀ log e, log ++ [e] <+: s.log → Told log e
  sends : ∀ b taskId connections, .copied b taskId connections ∈ s.log →
    ∃ w, s.broadcasts b = some w ∧ sentBy b s.log ++ w.rest = connections
  cleans : ∀ b c, .sent b c false ∈ s.log → ∀ w, s.broadcasts b = some w → w.rest = [] →
    w.dead = [] → ¬s.Registered c
  registered : ∀ c, s.Registered c ↔ live (removes c) c s.log
  no_empty : ∀ taskId, s.connections.get taskId ≠ some []

/-- The task whose list a step changes. -/
def Act.touches (s : Manager) : Act → Option String
  | .connect c => some c.taskId
  | .disconnect c => some c.taskId
  | .broadcast _ _ => none
  | .send _ _ => none
  | .clean b => (s.broadcasts b).map Broadcast.taskId

/-- The lists of other tasks stay as they are. -/
def LeavesOthers (s : Manager) (a : Act) (t : Manager) : Prop :=
  ∀ taskId, a.touches s ≠ some taskId → t.connections.get taskId = s.connections.get taskId

/-! ## The log -/

theorem live_append (ends : Event → Bool) (c : Conn) (log : List Event) (e : Event) :
    live ends c (log ++ [e]) =
      if e = .connected c then true else if ends e then false else live ends c log := by
  rw [live, List.foldl_append]
  rfl

/-- What is live has been connected. -/
theorem connected_of_live {ends : Event → Bool} {c : Conn} {log : List Event}
    (h : live ends c log) : .connected c ∈ log := by
  induction log using List.reverseRecOn with
  | nil => cases h
  | append_singleton log e ih =>
      rw [live_append] at h
      split at h
      · rename_i he
        exact List.mem_append_right log (he ▸ List.mem_singleton_self e)
      · split at h
        · cases h
        · exact List.mem_append_left _ (ih h)

theorem sentBy_append (b : ℕ) (log : List Event) (e : Event) :
    sentBy b (log ++ [e]) = sentBy b log ++ sentBy b [e] :=
  List.filterMap_append

theorem told_append {log : List Event} {e : Event}
    (h : ∀ l d, l ++ [d] <+: log → Told l d) (he : Told log e) :
    ∀ l d, l ++ [d] <+: log ++ [e] → Told l d := by
  intro l d hprefix
  rcases List.prefix_concat_iff.1 hprefix with heq | hprefix
  · obtain ⟨hl, hd⟩ := List.append_inj' heq rfl
    obtain rfl : d = e := List.singleton_inj.1 hd
    exact hl ▸ he
  · exact h l d hprefix

/-! ## Removing a connection -/

variable {s t : Manager}

theorem get_remove_of_ne (connections : Dict String (List Conn)) {c : Conn} {taskId : String}
    (h : taskId ≠ c.taskId) : (remove connections c).get taskId = connections.get taskId := by
  rw [remove]
  split
  · rfl
  · dsimp only
    split
    · rw [Dict.get_erase, if_neg h]
    · rw [Dict.get_set_of_ne _ _ h]

theorem get_remove_self (connections : Dict String (List Conn)) (c : Conn) :
    ((remove connections c).get c.taskId).getD [] =
      ((connections.get c.taskId).getD []).filter fun d => d.websocket ≠ c.websocket := by
  rw [remove]
  split
  · rename_i hnone
    rw [hnone]
    rfl
  · rename_i conns hsome
    rw [hsome]
    dsimp only
    split
    · rename_i hempty
      rw [Dict.get_erase, if_pos rfl]
      exact hempty.symm
    · rw [Dict.get_set, if_pos rfl]
      rfl

theorem remove_no_empty {connections : Dict String (List Conn)}
    (h : ∀ taskId, connections.get taskId ≠ some []) (c : Conn) (taskId : String) :
    (remove connections c).get taskId ≠ some [] := by
  by_cases hother : taskId = c.taskId
  · subst hother
    rw [remove]
    split
    · exact h c.taskId
    · dsimp only
      split
      · rw [Dict.get_erase, if_pos rfl]
        exact (Option.some_ne_none _).symm
      · rename_i hleft
        rw [Dict.get_set, if_pos rfl]
        exact fun heq => hleft (Option.some.inj heq)
  · rw [get_remove_of_ne connections hother]
    exact h taskId

/-- The list of a task holds connections of that task, each once. -/
def Listed (connections : Dict String (List Conn)) : Prop :=
  ∀ taskId, ((connections.get taskId).getD []).Nodup ∧
    ∀ c ∈ (connections.get taskId).getD [], c.taskId = taskId

theorem mem_remove (connections : Dict String (List Conn)) (c d : Conn) :
    d ∈ ((remove connections c).get d.taskId).getD [] ↔
      d ∈ (connections.get d.taskId).getD [] ∧ d ≠ c := by
  by_cases htask : d.taskId = c.taskId
  · have hsame : d.websocket ≠ c.websocket ↔ d ≠ c := by
      cases c
      cases d
      simp_all
    rw [htask, get_remove_self, List.mem_filter, decide_eq_true_iff, hsame]
  · rw [get_remove_of_ne connections htask]
    refine (and_iff_left ?_).symm
    rintro rfl
    exact htask rfl

theorem listed_remove {connections : Dict String (List Conn)} (h : Listed connections) (c : Conn) :
    Listed (remove connections c) := by
  intro taskId
  by_cases htask : taskId = c.taskId
  · subst htask
    rw [get_remove_self]
    obtain ⟨hnodup, hkeyed⟩ := h c.taskId
    exact ⟨hnodup.filter _, fun d hd => hkeyed d (List.mem_of_mem_filter hd)⟩
  · rw [get_remove_of_ne connections htask]
    exact h taskId

/-! ## Adding a connection -/

/-- `connect`, with the lock held. -/
def add (connections : Dict String (List Conn)) (c : Conn) : Dict String (List Conn) :=
  connections.set c.taskId ((connections.get c.taskId).getD [] ++ [c])

theorem get_add (connections : Dict String (List Conn)) (c : Conn) (taskId : String) :
    ((add connections c).get taskId).getD [] =
      if taskId = c.taskId then (connections.get c.taskId).getD [] ++ [c]
      else (connections.get taskId).getD [] := by
  rw [add, Dict.get_set]
  split <;> rfl

theorem mem_add (connections : Dict String (List Conn)) (c d : Conn) :
    d ∈ ((add connections c).get d.taskId).getD [] ↔
      d = c ∨ d ∈ (connections.get d.taskId).getD [] := by
  rw [get_add]
  by_cases htask : d.taskId = c.taskId
  · rw [if_pos htask, ← htask, List.mem_append, List.mem_singleton, or_comm]
  · rw [if_neg htask]
    refine (or_iff_right ?_).symm
    rintro rfl
    exact htask rfl

theorem listed_add {connections : Dict String (List Conn)} (h : Listed connections) {c : Conn}
    (hnew : c ∉ (connections.get c.taskId).getD []) : Listed (add connections c) := by
  intro taskId
  rw [get_add]
  obtain ⟨hnodup, hkeyed⟩ := h taskId
  by_cases htask : taskId = c.taskId
  · subst htask
    rw [if_pos rfl]
    refine ⟨hnodup.append (List.nodup_singleton c) (List.disjoint_singleton.2 hnew), ?_⟩
    intro d hd
    rcases List.mem_append.1 hd with hd | hd
    · exact hkeyed d hd
    · rw [List.mem_singleton.1 hd]
  · rw [if_neg htask]
    exact ⟨hnodup, hkeyed⟩

theorem add_no_empty {connections : Dict String (List Conn)}
    (h : ∀ taskId, connections.get taskId ≠ some []) (c : Conn) (taskId : String) :
    (add connections c).get taskId ≠ some [] := by
  rw [add, Dict.get_set]
  split
  · simp
  · exact h taskId

/-! ## The invariant -/

/-- The broadcast `b` has `w` to do: it has sent to the other connections of its copy; what it
has failed to send to is dead, or registered no longer. -/
structure Working (s : Manager) (b : ℕ) (w : Broadcast) : Prop where
  copied : .copied b w.taskId (sentBy b s.log ++ w.rest) ∈ s.log
  failed : ∀ c, .sent b c false ∈ s.log → c ∈ w.dead ∨ ¬s.Registered c
  dead : ∀ c ∈ w.dead, .sent b c false ∈ s.log ∧ c.taskId = w.taskId

/-- The invariant of the manager. -/
structure Sound (s : Manager) : Prop where
  listed : Listed s.connections
  no_empty : ∀ taskId, s.connections.get taskId ≠ some []
  registered : ∀ c, s.Registered c ↔ live (removes c) c s.log
  told : ∀ log e, log ++ [e] <+: s.log → Told log e
  working : ∀ b w, s.broadcasts b = some w → Working s b w
  copied : ∀ b taskId connections, .copied b taskId connections ∈ s.log →
    ∃ w, s.broadcasts b = some w ∧ sentBy b s.log ++ w.rest = connections
  unsent : ∀ b, s.broadcasts b = none → sentBy b s.log = []

theorem sound_initial : Sound initial where
  listed _ := ⟨List.nodup_nil, fun _ hc => by cases hc⟩
  no_empty _ := (Option.some_ne_none _).symm
  registered _ := iff_of_false (fun h => by cases h) (fun h => by cases h)
  told log e h := by simp [initial] at h
  working _ _ h := by cases h
  copied _ _ _ h := by cases h
  unsent _ _ := rfl

theorem Sound.delivers (h : Sound s) : Delivers s where
  told := h.told
  sends := h.copied
  cleans b c hsent w hw _ hdead := by
    rcases (h.working b w hw).failed c hsent with hmem | hgone
    · rw [hdead] at hmem
      cases hmem
    · exact hgone
  registered := h.registered
  no_empty := h.no_empty

/-- What a broadcast has copied has been connected before. -/
theorem Sound.connected (h : Sound s) {b : ℕ} {taskId : String} {connections : List Conn} {c : Conn}
    (hcopied : .copied b taskId connections ∈ s.log) (hc : c ∈ connections) :
    c.taskId = taskId ∧ .connected c ∈ s.log := by
  obtain ⟨before, after, hlog⟩ := List.append_of_mem hcopied
  have hprefix : before ++ [.copied b taskId connections] <+: s.log := by
    rw [hlog]
    exact ⟨after, by simp⟩
  obtain ⟨-, hmem⟩ := h.told before _ hprefix
  obtain ⟨htask, hlive⟩ := (hmem c).1 hc
  exact ⟨htask, hlog ▸ List.mem_append_left _ (connected_of_live hlive)⟩

theorem mem_sentBy {b : ℕ} {c : Conn} {ok : Bool} {log : List Event}
    (h : .sent b c ok ∈ log) : c ∈ sentBy b log :=
  List.mem_filterMap.2 ⟨_, h, if_pos rfl⟩

theorem used_of_connected {c : Conn} (h : .connected c ∈ s.log) : s.used c.websocket = true :=
  List.any_eq_true.2 ⟨_, h, decide_eq_true rfl⟩

/-! ## One step -/

/-- What a step does to the manager. -/
inductive Stepped (s : Manager) : Act → Manager → Prop
  | connect {c} (hfresh : s.used c.websocket = false) : Stepped s (.connect c) { s with
      connections := add s.connections c
      log := s.log ++ [.connected c] }
  | disconnect {c} : Stepped s (.disconnect c) { s with
      connections := remove s.connections c
      log := s.log ++ [.disconnected c] }
  | broadcast {b taskId} (hfresh : s.broadcasts b = none) : Stepped s (.broadcast b taskId) { s with
      broadcasts := Function.update s.broadcasts b
        (some { taskId := taskId, rest := s.of taskId, dead := [] })
      log := s.log ++ [.copied b taskId (s.of taskId)] }
  | send {b ok taskId c rest dead} (hb : s.broadcasts b = some ⟨taskId, c :: rest, dead⟩) :
      Stepped s (.send b ok) { s with
        broadcasts := Function.update s.broadcasts b
          (some ⟨taskId, rest, if ok then dead else dead ++ [c]⟩)
        log := s.log ++ [.sent b c ok] }
  | clean {b taskId c dead} (hb : s.broadcasts b = some ⟨taskId, [], c :: dead⟩) :
      Stepped s (.clean b) { s with
        connections := remove s.connections { c with taskId := taskId }
        broadcasts := Function.update s.broadcasts b (some ⟨taskId, [], dead⟩)
        log := s.log ++ [.cleaned b { c with taskId := taskId }] }

/-- **Everything a step can do.** -/
theorem wsStep_cases {a : Act} (h : wsStep s a = some t) : Stepped s a t := by
  cases a with
  | connect c =>
      rw [wsStep] at h
      split at h
      · cases h
      · rename_i hfresh
        cases h
        exact .connect (by simpa using hfresh)
  | disconnect c =>
      cases h
      exact .disconnect
  | broadcast b taskId =>
      simp only [wsStep] at h
      split at h
      · cases h
      · rename_i hfresh
        cases h
        exact .broadcast hfresh
  | send b ok =>
      simp only [wsStep] at h
      split at h
      · rename_i hb
        cases h
        exact .send hb
      · cases h
  | clean b =>
      simp only [wsStep] at h
      split at h
      · rename_i hb
        cases h
        exact .clean hb
      · cases h

/-- An event that is no send of the broadcast leaves its work as it is, as long as nothing is
registered again to which it has failed to send. -/
theorem Working.keep {b : ℕ} {w : Broadcast} {e : Event} (h : Working s b w)
    (hlog : t.log = s.log ++ [e]) (hother : sentBy b [e] = [])
    (hgone : ∀ c, .sent b c false ∈ s.log → ¬s.Registered c → ¬t.Registered c) :
    Working t b w := by
  have hsent : ∀ c, .sent b c false ∈ t.log → .sent b c false ∈ s.log := by
    intro c hc
    rw [hlog, List.mem_append, List.mem_singleton] at hc
    rcases hc with hc | hc
    · exact hc
    · have hmem : c ∈ sentBy b [e] := mem_sentBy (List.mem_singleton.2 hc)
      rw [hother] at hmem
      cases hmem
  refine ⟨?_, fun c hc => ?_, fun c hc => ?_⟩
  · rw [hlog, sentBy_append, hother, List.append_nil]
    exact List.mem_append_left _ h.copied
  · have hold := hsent c hc
    exact (h.failed c hold).imp id (hgone c hold)
  · rw [hlog]
    exact ⟨List.mem_append_left _ (h.dead c hc).1, (h.dead c hc).2⟩

theorem sound_connect (h : Sound s) {c : Conn} (hfresh : s.used c.websocket = false) :
    Sound { s with connections := add s.connections c, log := s.log ++ [.connected c] } := by
  have hnew : ¬s.Registered c := by
    rw [h.registered]
    intro hlive
    rw [used_of_connected (connected_of_live hlive)] at hfresh
    cases hfresh
  refine ⟨listed_add h.listed hnew, add_no_empty h.no_empty c, fun d => ?_,
    told_append h.told trivial, fun b w hw => ?_, fun b taskId connections hcopied => ?_,
    fun b hb => ?_⟩
  · rw [Manager.Registered, Manager.of, mem_add, live_append]
    by_cases hd : d = c
    · subst hd
      simp
    · have hne : Event.connected c ≠ .connected d := by
        rintro ⟨⟩
        exact hd rfl
      rw [if_neg hne, or_iff_right hd]
      exact h.registered d
  · have hwork := h.working b w hw
    refine hwork.keep rfl rfl fun d hd hgone => ?_
    rw [Manager.Registered, Manager.of, mem_add]
    refine not_or.2 ⟨?_, hgone⟩
    rintro rfl
    have hmem : d ∈ sentBy b s.log ++ w.rest := List.mem_append_left _ (mem_sentBy hd)
    rw [used_of_connected (h.connected hwork.copied hmem).2] at hfresh
    cases hfresh
  · rw [sentBy_append]
    refine (h.copied b taskId connections ?_).imp fun w hw => ⟨hw.1, ?_⟩
    · simpa using hcopied
    · simpa [sentBy] using hw.2
  · rw [sentBy_append, h.unsent b hb]
    rfl

/-- A connection is removed, by an event that says so. -/
theorem sound_remove {c : Conn} {e : Event} (hends : ∀ d, removes d e = decide (d = c))
    (hconnect : ∀ d, e ≠ .connected d) (hcopies : ∀ b taskId connections,
      e ≠ .copied b taskId connections) (hsends : ∀ b, sentBy b [e] = []) (h : Sound s)
    (htold : Told s.log e) :
    Sound { s with connections := remove s.connections c, log := s.log ++ [e] } := by
  refine ⟨listed_remove h.listed c, remove_no_empty h.no_empty c, fun d => ?_,
    told_append h.told htold, fun b w hw => ?_, fun b taskId connections hcopied => ?_,
    fun b hb => ?_⟩
  · rw [Manager.Registered, Manager.of, mem_remove, live_append, if_neg (hconnect d), hends]
    have hold := h.registered d
    rw [Manager.Registered, Manager.of] at hold
    rw [hold]
    by_cases hd : d = c <;> simp [hd]
  · refine (h.working b w hw).keep rfl (hsends b) fun d _ hgone => ?_
    rw [Manager.Registered, Manager.of, mem_remove]
    exact fun hd => hgone hd.1
  · rw [sentBy_append, hsends, List.append_nil]
    refine h.copied b taskId connections ?_
    rcases List.mem_append.1 hcopied with hmem | hmem
    · exact hmem
    · exact absurd (List.mem_singleton.1 hmem).symm (hcopies b taskId connections)
  · rw [sentBy_append, hsends, h.unsent b hb]
    rfl

/-- What the broadcasts have to do once the broadcast `b` has `v` to do. -/
theorem update_some {f : ℕ → Option Broadcast} {b b' : ℕ} {v w : Broadcast}
    (h : Function.update f b (some v) b' = some w) :
    (b' = b ∧ v = w) ∨ (b' ≠ b ∧ f b' = some w) := by
  by_cases hb : b' = b
  · subst hb
    rw [Function.update_self] at h
    exact .inl ⟨rfl, Option.some.inj h⟩
  · rw [Function.update_of_ne hb] at h
    exact .inr ⟨hb, h⟩

theorem update_none {f : ℕ → Option Broadcast} {b b' : ℕ} {v : Broadcast}
    (h : Function.update f b (some v) b' = none) : b' ≠ b ∧ f b' = none := by
  by_cases hb : b' = b
  · subst hb
    rw [Function.update_self] at h
    cases h
  · rw [Function.update_of_ne hb] at h
    exact ⟨hb, h⟩

theorem sound_broadcast (h : Sound s) {b : ℕ} (hfresh : s.broadcasts b = none) (taskId : String) :
    Sound { s with
      broadcasts := Function.update s.broadcasts b
        (some { taskId := taskId, rest := s.of taskId, dead := [] })
      log := s.log ++ [.copied b taskId (s.of taskId)] } := by
  have hunsent := h.unsent b hfresh
  refine ⟨h.listed, h.no_empty, fun d => ?_, told_append h.told ?_, fun b' w hw => ?_,
    fun b' taskId' connections hcopied => ?_, fun b' hb' => ?_⟩
  · rw [live_append, if_neg (by simp)]
    exact h.registered d
  · obtain ⟨hnodup, hkeyed⟩ := h.listed taskId
    refine ⟨hnodup, fun d => ?_⟩
    rw [← h.registered]
    constructor
    · intro hd
      have htask := hkeyed d hd
      exact ⟨htask, by rw [Manager.Registered, htask]; exact hd⟩
    · rintro ⟨rfl, hd⟩
      exact hd
  · rcases update_some hw with ⟨rfl, rfl⟩ | ⟨-, hw⟩
    · refine ⟨?_, fun c hc => ?_, fun c hc => by cases hc⟩
      · rw [sentBy_append, hunsent]
        exact List.mem_append_right _ (List.mem_singleton_self _)
      · have hmem := mem_sentBy hc
        rw [sentBy_append, hunsent] at hmem
        cases hmem
    · exact (h.working b' w hw).keep rfl rfl fun _ _ hgone => hgone
  · rw [sentBy_append]
    rcases List.mem_append.1 hcopied with hmem | hmem
    · obtain ⟨w, hw, hsent⟩ := h.copied b' taskId' connections hmem
      have hb : b' ≠ b := by
        rintro rfl
        rw [hfresh] at hw
        cases hw
      exact ⟨w, (Function.update_of_ne hb _ _).trans hw, by simpa [sentBy] using hsent⟩
    · cases List.mem_singleton.1 hmem
      refine ⟨_, Function.update_self .., ?_⟩
      rw [hunsent]
      rfl
  · rw [sentBy_append, h.unsent b' (update_none hb').2]
    rfl

/-- Only what broadcasts have to do changes. -/
theorem Sound.rework (h : Sound s) {b : ℕ} {v w : Broadcast} (hb : s.broadcasts b = some v)
    (hrest : v.rest = w.rest) (hwork : Working s b w) :
    Sound { s with broadcasts := Function.update s.broadcasts b (some w) } where
  listed := h.listed
  no_empty := h.no_empty
  registered := h.registered
  told := h.told
  working b' w' hw' := by
    rcases update_some hw' with ⟨rfl, rfl⟩ | ⟨-, hw'⟩
    · exact ⟨hwork.copied, hwork.failed, hwork.dead⟩
    · have hold := h.working b' w' hw'
      exact ⟨hold.copied, hold.failed, hold.dead⟩
  copied b' taskId connections hcopied := by
    obtain ⟨w', hw', hsent⟩ := h.copied b' taskId connections hcopied
    by_cases hbb : b' = b
    · subst hbb
      obtain rfl : v = w' := Option.some.inj (hb.symm.trans hw')
      exact ⟨w, Function.update_self .., by rw [← hrest]; exact hsent⟩
    · exact ⟨w', (Function.update_of_ne hbb _ _).trans hw', hsent⟩
  unsent b' hb' := h.unsent b' (update_none hb').2

theorem sound_clean (h : Sound s) {b : ℕ} {taskId : String} {c : Conn} {dead : List Conn}
    (hb : s.broadcasts b = some ⟨taskId, [], c :: dead⟩) :
    Sound { s with
      connections := remove s.connections { c with taskId := taskId }
      broadcasts := Function.update s.broadcasts b (some ⟨taskId, [], dead⟩)
      log := s.log ++ [.cleaned b { c with taskId := taskId }] } := by
  obtain ⟨hsent, htask⟩ := (h.working b _ hb).dead c List.mem_cons_self
  have hc : { c with taskId := taskId } = c := by
    cases c
    cases htask
    rfl
  rw [hc]
  have hends : ∀ d, removes d (.cleaned b c) = decide (d = c) := by
    intro d
    simp [removes, eq_comm]
  have hcopied : .copied b c.taskId (sentBy b s.log) ∈ s.log := by
    have hwhole := (h.working b _ hb).copied
    rwa [List.append_nil, ← htask] at hwhole
  have hremoved : Sound { s with
      connections := remove s.connections c
      log := s.log ++ [.cleaned b c] } :=
    sound_remove hends (fun _ => by simp) (fun _ _ _ => by simp) (fun _ => rfl) h
      ⟨hsent, hcopied⟩
  have hwork := hremoved.working b _ hb
  refine hremoved.rework hb rfl ⟨hwork.copied, fun d hd => ?_, fun d hd => ?_⟩
  · rcases hwork.failed d hd with hmem | hgone
    · rcases List.mem_cons.1 hmem with rfl | hmem
      · refine .inr ?_
        rw [Manager.Registered, Manager.of, mem_remove]
        exact fun hd => hd.2 rfl
      · exact .inl hmem
    · exact .inr hgone
  · exact hwork.dead d (List.mem_cons_of_mem c hd)

theorem sound_send (h : Sound s) {b : ℕ} {taskId : String} {c : Conn} {rest dead : List Conn}
    (hb : s.broadcasts b = some ⟨taskId, c :: rest, dead⟩) (ok : Bool) :
    Sound { s with
      broadcasts := Function.update s.broadcasts b
        (some ⟨taskId, rest, if ok then dead else dead ++ [c]⟩)
      log := s.log ++ [.sent b c ok] } := by
  have hwork := h.working b _ hb
  have hself : sentBy b [.sent b c ok] = [c] := by simp [sentBy]
  have hother : ∀ b', b' ≠ b → sentBy b' [.sent b c ok] = [] := by
    intro b' hne
    simp [sentBy, hne.symm]
  have htask : c.taskId = taskId :=
    (h.connected hwork.copied (List.mem_append_right _ List.mem_cons_self)).1
  refine ⟨h.listed, h.no_empty, fun d => ?_, told_append h.told trivial, fun b' w hw => ?_,
    fun b' taskId' connections hcopied => ?_, fun b' hb' => ?_⟩
  · have hne : Event.sent b c ok ≠ .connected d := by simp
    rw [live_append, if_neg hne]
    exact h.registered d
  · rcases update_some hw with ⟨rfl, rfl⟩ | ⟨hne, hw⟩
    · refine ⟨?_, fun d hd => ?_, fun d hd => ?_⟩
      · rw [sentBy_append, hself, List.append_assoc, List.singleton_append]
        exact List.mem_append_left _ hwork.copied
      · rcases List.mem_append.1 hd with hd | hd
        · refine (hwork.failed d hd).imp (fun hmem => ?_) id
          split
          · exact hmem
          · exact List.mem_append_left _ hmem
        · cases List.mem_singleton.1 hd
          exact .inl (List.mem_append_right _ (List.mem_singleton_self _))
      · have hcases : d ∈ dead ∨ d = c ∧ ok = false := by
          revert hd
          cases ok <;> simp
        rcases hcases with hd | ⟨rfl, rfl⟩
        · exact ⟨List.mem_append_left _ (hwork.dead d hd).1, (hwork.dead d hd).2⟩
        · exact ⟨List.mem_append_right _ (List.mem_singleton_self _), htask⟩
    · exact (h.working b' w hw).keep rfl (hother b' hne) fun _ _ hgone => hgone
  · rw [sentBy_append]
    have hold : .copied b' taskId' connections ∈ s.log := by simpa using hcopied
    obtain ⟨w, hw, hsent⟩ := h.copied b' taskId' connections hold
    by_cases hbb : b' = b
    · subst hbb
      obtain rfl := Option.some.inj (hb.symm.trans hw)
      refine ⟨_, Function.update_self .., ?_⟩
      rw [hself, List.append_assoc, List.singleton_append]
      exact hsent
    · refine ⟨w, (Function.update_of_ne hbb _ _).trans hw, ?_⟩
      rw [hother b' hbb, List.append_nil]
      exact hsent
  · obtain ⟨hne, hb'⟩ := update_none hb'
    rw [sentBy_append, hother b' hne, h.unsent b' hb']
    rfl

/-- **One step** keeps the invariant. -/
theorem sound_step {a : Act} (h : Sound s) (hstep : wsStep s a = some t) : Sound t := by
  cases wsStep_cases hstep with
  | connect hfresh => exact sound_connect h hfresh
  | @disconnect c =>
      have hends : ∀ d, removes d (.disconnected c) = decide (d = c) := by
        intro d
        simp [removes, eq_comm]
      exact sound_remove hends (fun _ => by simp) (fun _ _ _ => by simp) (fun _ => rfl) h trivial
  | broadcast hfresh => exact sound_broadcast h hfresh _
  | send hb => exact sound_send h hb _
  | clean hb => exact sound_clean h hb

/-- A step changes the list of one task at most. -/
theorem leavesOthers_step {a : Act} (hstep : wsStep s a = some t) : LeavesOthers s a t := by
  intro taskId hother
  cases wsStep_cases hstep with
  | connect => exact Dict.get_set_of_ne _ _ fun heq => hother (heq ▸ rfl)
  | disconnect => exact get_remove_of_ne s.connections fun heq => hother (heq ▸ rfl)
  | broadcast => rfl
  | send => rfl
  | clean hb =>
      refine get_remove_of_ne s.connections fun heq => hother ?_
      rw [Act.touches, hb, heq]
      rfl

/-! ## Whole runs -/

/-- **The law of the broadcasts**, in every state and at every step of every run. -/
theorem delivers_throughout (acts : List Act) :
    Run.Throughout wsStep Delivers initial acts ∧ Run.Obeys wsStep LeavesOthers initial acts := by
  have hsound : Run.Throughout wsStep Sound initial acts :=
    Run.throughout_of_preserved (fun _ _ _ => sound_step) sound_initial acts
  refine ⟨hsound.mono fun s hs => hs.delivers, ?_⟩
  exact Run.obeys_of_preserved (fun _ _ _ => sound_step) (fun _ _ _ _ => leavesOthers_step)
    sound_initial acts

/-- **A failed send does not remove the connection at once**: the broadcast goes on to the next
one first. -/
theorem failed_send_stays :
    ¬∀ (acts : List Act) (s : Manager), Run.exec wsStep initial acts = some s →
      ∀ c, s.Registered c ↔ live (fails c) c s.log := by
  intro h
  have hrun := h [.connect ⟨1, "t1"⟩, .connect ⟨2, "t1"⟩, .broadcast 0 "t1", .send 0 false] _ rfl
    ⟨1, "t1"⟩
  revert hrun
  decide

end Websocket
end AgentSwarm
