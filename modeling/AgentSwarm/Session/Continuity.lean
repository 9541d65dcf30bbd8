import AgentSwarm.Lib.Run
import AgentSwarm.Session.Manager

/-!
# Conversations across turns and restarts

A conversation goes on for many requests, and the server may be restarted between any two
of them, or in the middle of one.

* `Process`, `Action`, `step` — the session manager of a server process: requests, what the
  runs do to the sessions they hold, and restarts.
* `NewIds` — the condition: `uuid4` gives no id that is in use.
* `Shared` — the invariant: one object for each session.
* `Durable`, `NothingElse` — what is stored of a session, and that nothing else is stored
  in its place.
* `Continued`, `conversation_continued` — **the requests of a process share the session, and
  a restart brings it back as it was saved**, in every run.
-/

namespace AgentSwarm
namespace Sessions

variable {D M : Type}

/-- A server process, with its session manager.  The objects from `first` on are its own. -/
structure Process (D M : Type) where
  manager : SessionManager D M
  first : ℕ

/-- What happens to a session manager. -/
inductive Action (M : Type) where
  | request (sessionId : Option String) (tenantId newId : String)
  /-- A run changes the session that it holds. -/
  | change (o : ℕ) (messages : List M) (sharedContext : String)
  | save (o : ℕ)
  | restart

namespace Process

/-- A run of this process may hold the object. -/
def Live (p : Process D M) (o : ℕ) : Prop := p.first ≤ o ∧ o < p.manager.next

instance (p : Process D M) (o : ℕ) : Decidable (p.Live o) := inferInstanceAs (Decidable (_ ∧ _))

/-- A process that has just started. -/
def boot (m : SessionManager D M) : Process D M := ⟨m.restart, m.next⟩

theorem not_live_boot (m : SessionManager D M) (o : ℕ) : ¬ (boot m).Live o := by
  rintro ⟨hfirst, hnext⟩
  exact absurd hnext (Nat.not_lt.2 hfirst)

end Process

/-! ## The objects -/

@[simp] theorem add_objects_next (m : SessionManager D M) (state : SessionState D M) :
    (m.add state).objects m.next = state := Function.update_self ..

theorem add_objects_of_ne (m : SessionManager D M) (state : SessionState D M) {o : ℕ}
    (h : o ≠ m.next) : (m.add state).objects o = m.objects o := Function.update_of_ne h ..

theorem modify_objects_self (m : SessionManager D M) (o : ℕ) (messages : List M)
    (sharedContext : String) :
    (m.modify o messages sharedContext).objects o =
      { m.objects o with messages := messages, sharedContext := sharedContext } :=
  Function.update_self ..

/-- A run changes the messages and the context of its session, and nothing else. -/
theorem modify_objects_place (m : SessionManager D M) (o o' : ℕ) (messages : List M)
    (sharedContext : String) :
    ((m.modify o messages sharedContext).objects o').sessionId = (m.objects o').sessionId ∧
      ((m.modify o messages sharedContext).objects o').tenantId = (m.objects o').tenantId ∧
      ((m.modify o messages sharedContext).objects o').workDir = (m.objects o').workDir := by
  by_cases h : o' = o
  · subst h
    rw [modify_objects_self]
    exact ⟨rfl, rfl, rfl⟩
  · have hsame : (m.modify o messages sharedContext).objects o' = m.objects o' :=
      Function.update_of_ne h ..
    rw [hsame]
    exact ⟨rfl, rfl, rfl⟩

/-! ## Steps -/

variable [DecidableEq D] (dir : String → String → D)

/-- One step. -/
def step (p : Process D M) : Action M → Option (Process D M)
  | .request sessionId tenantId newId =>
      some { p with manager := (p.manager.getOrCreate dir sessionId tenantId newId).2 }
  | .change o messages sharedContext =>
      if p.Live o then some { p with manager := p.manager.modify o messages sharedContext } else none
  | .save o => if p.Live o then some { p with manager := p.manager.save dir o } else none
  | .restart => some (.boot p.manager)

/-- The id that is made for a request without one is not in use. -/
def NewIds (p : Process D M) : Action M → Prop
  | .request sessionId _ newId =>
      idOf sessionId = none → newId ≠ "" ∧ p.manager.sessions.get newId = none
  | _ => True

/-- Of the session `saved`, nothing else is stored, and no other session in its directory. -/
def NothingElse (saved : SessionState D M) (p : Process D M) : Action M → Prop
  | .save o =>
      ((p.manager.objects o).sessionId = saved.sessionId → p.manager.objects o = saved) ∧
        (p.manager.store = none → (p.manager.objects o).sessionId ≠ saved.sessionId →
          dir (p.manager.objects o).tenantId (p.manager.objects o).sessionId ≠
            dir saved.tenantId saved.sessionId)
  | _ => True

/-- The session that was saved from the object `o`. -/
structure Continued (saved : SessionState D M) (o : ℕ) (p : Process D M) : Prop where
  /-- Every request of the same process with its id gets the object itself, … -/
  shared : p.Live o → ∀ tenantId newId,
    p.manager.getOrCreate dir (some saved.sessionId) tenantId newId = (o, p.manager)
  /-- … and after a restart the session comes back as it was saved; from a file, for its own
  tenant. -/
  restored : ∀ tenantId newId, (p.manager.store = none → tenantId = saved.tenantId) →
    (p.manager.restart.getOrCreate dir (some saved.sessionId) tenantId newId).2.objects
      (p.manager.restart.getOrCreate dir (some saved.sessionId) tenantId newId).1 = saved

/-! ## One object for each session -/

/-- The sessions in memory are the live objects, by their ids. -/
structure Shared (p : Process D M) : Prop where
  began : p.first ≤ p.manager.next
  keyed : ∀ sid o, p.manager.sessions.get sid = some o →
    p.Live o ∧ (p.manager.objects o).sessionId = sid
  single : ∀ o, p.Live o → p.manager.sessions.get (p.manager.objects o).sessionId = some o
  named : ∀ o, p.Live o → (p.manager.objects o).sessionId ≠ ""
  placed : p.manager.store = none → ∀ o, p.Live o → (p.manager.objects o).workDir =
    dir (p.manager.objects o).tenantId (p.manager.objects o).sessionId

variable {dir} {p q : Process D M} {a : Action M} {saved : SessionState D M}

omit [DecidableEq D] in
theorem shared_boot (m : SessionManager D M) : Shared dir (.boot m) where
  began := Nat.le_refl _
  keyed _ _ h := by cases h
  single o h := absurd h (Process.not_live_boot m o)
  named o h := absurd h (Process.not_live_boot m o)
  placed _ o h := absurd h (Process.not_live_boot m o)

variable (dir) in
/-- A request gets the object of the session, or a new one under an id that has none. -/
theorem getOrCreate_split {sessionId : Option String} {tenantId newId : String}
    (hids : NewIds p (.request sessionId tenantId newId)) :
    (∃ o, p.manager.getOrCreate dir sessionId tenantId newId = (o, p.manager)) ∨
      ∃ state, p.manager.sessions.get state.sessionId = none ∧ state.sessionId ≠ "" ∧
        (p.manager.store = none → state.workDir = dir state.tenantId state.sessionId) ∧
        p.manager.getOrCreate dir sessionId tenantId newId =
          (p.manager.next, p.manager.add state) := by
  unfold SessionManager.getOrCreate
  cases hid : idOf sessionId with
  | none =>
      obtain ⟨hne, hnone⟩ := hids hid
      exact .inr ⟨SessionManager.blank dir newId tenantId, hnone, hne, fun _ => rfl, rfl⟩
  | some sid =>
      have hne : sid ≠ "" := by
        have hsid := (Option.filter_eq_some_iff.1 hid).2
        simpa using hsid
      dsimp only
      cases hmem : p.manager.sessions.get sid with
      | some o => exact .inl ⟨o, rfl⟩
      | none =>
          dsimp only
          unfold SessionManager.loadPersistent
          cases hrow : p.manager.store.bind (·.get sid) with
          | some row =>
              refine .inr ⟨SessionManager.ofRow sid row, hmem, hne, fun hstore => ?_, rfl⟩
              rw [hstore] at hrow
              cases hrow
          | none =>
              dsimp only
              unfold SessionManager.loadFromDisk
              cases hdisk : p.manager.disk.get (dir tenantId sid) with
              | some context => exact .inr ⟨_, hmem, hne, fun _ => rfl, rfl⟩
              | none =>
                  exact .inr ⟨SessionManager.blank dir sid tenantId, hmem, hne, fun _ => rfl, rfl⟩

omit [DecidableEq D] in
/-- A session that is added under an id that has none. -/
theorem Shared.add (h : Shared dir p) {state : SessionState D M}
    (hnone : p.manager.sessions.get state.sessionId = none) (hne : state.sessionId ≠ "")
    (hplaced : p.manager.store = none → state.workDir = dir state.tenantId state.sessionId) :
    Shared dir { p with manager := p.manager.add state } := by
  have hlive : ∀ {o}, ({ p with manager := p.manager.add state } : Process D M).Live o →
      o = p.manager.next ∨ p.Live o ∧ o ≠ p.manager.next := by
    rintro o ⟨hfirst, hlt⟩
    rcases Nat.lt_succ_iff_lt_or_eq.1 hlt with hlt | heq
    · exact .inr ⟨⟨hfirst, hlt⟩, Nat.ne_of_lt hlt⟩
    · exact .inl heq
  have hgrows : ∀ {o}, p.Live o → ({ p with manager := p.manager.add state } : Process D M).Live o :=
    fun hold => ⟨hold.1, Nat.lt_succ_of_lt hold.2⟩
  refine ⟨Nat.le_succ_of_le h.began, fun sid o hget => ?_, fun o ho => ?_, fun o ho => ?_,
    fun hstore o ho => ?_⟩
  · have hset : (p.manager.sessions.set state.sessionId p.manager.next).get sid = some o := hget
    rw [Dict.get_set] at hset
    split at hset
    · cases hset
      exact ⟨⟨h.began, Nat.lt_succ_self _⟩, by rw [add_objects_next, ‹sid = _›]⟩
    · obtain ⟨hold, hid⟩ := h.keyed sid o hset
      exact ⟨hgrows hold, by rw [add_objects_of_ne _ _ (Nat.ne_of_lt hold.2), hid]⟩
  · have hsessions : (p.manager.add state).sessions =
        p.manager.sessions.set state.sessionId p.manager.next := rfl
    rw [hsessions]
    rcases hlive ho with rfl | ⟨hold, hnew⟩
    · rw [add_objects_next, Dict.get_set_self]
    · have hget := h.single o hold
      have hother : (p.manager.objects o).sessionId ≠ state.sessionId := by
        intro heq
        rw [heq, hnone] at hget
        cases hget
      rw [add_objects_of_ne _ _ hnew, Dict.get_set_of_ne _ _ hother, hget]
  · rcases hlive ho with rfl | ⟨hold, hnew⟩
    · rwa [add_objects_next]
    · rw [add_objects_of_ne _ _ hnew]
      exact h.named o hold
  · rcases hlive ho with rfl | ⟨hold, hnew⟩
    · rw [add_objects_next]
      exact hplaced hstore
    · rw [add_objects_of_ne _ _ hnew]
      exact h.placed hstore o hold

variable (dir) in
theorem save_parts (m : SessionManager D M) (o : ℕ) :
    (m.save dir o).sessions = m.sessions ∧ (m.save dir o).objects = m.objects ∧
      (m.save dir o).next = m.next ∧ ((m.save dir o).store = none → m.store = none) := by
  unfold SessionManager.save
  cases hstore : m.store with
  | none => exact ⟨rfl, rfl, rfl, fun _ => rfl⟩
  | some table => exact ⟨rfl, rfl, rfl, nofun⟩

/-- **One step** keeps the sessions shared. -/
theorem shared_step (h : Shared dir p) (hids : NewIds p a) (hstep : step dir p a = some q) :
    Shared dir q := by
  cases a with
  | request sessionId tenantId newId =>
      cases hstep
      rcases getOrCreate_split dir hids with
        ⟨o, hget⟩ | ⟨state, hnone, hne, hplaced, hget⟩
      · rw [hget]
        exact h
      · rw [hget]
        exact h.add hnone hne hplaced
  | change o messages sharedContext =>
      simp only [step] at hstep
      split at hstep <;> cases hstep
      have hplace := fun o' => modify_objects_place p.manager o o' messages sharedContext
      refine ⟨h.began, fun sid o' hget => ?_, fun o' ho => ?_, fun o' ho => ?_, fun hstore o' ho => ?_⟩
      · rw [(hplace o').1]
        exact h.keyed sid o' hget
      · rw [(hplace o').1]
        exact h.single o' ho
      · rw [(hplace o').1]
        exact h.named o' ho
      · rw [(hplace o').1, (hplace o').2.1, (hplace o').2.2]
        exact h.placed hstore o' ho
  | save o =>
      simp only [step] at hstep
      split at hstep <;> cases hstep
      obtain ⟨hsessions, hobjects, hnext, hstore⟩ := save_parts dir p.manager o
      have hlive : ∀ o', ({ p with manager := p.manager.save dir o } : Process D M).Live o' ↔
          p.Live o' := fun o' => by rw [Process.Live, Process.Live, hnext]
      refine ⟨by rw [hnext]; exact h.began, fun sid o' hget => ?_, fun o' ho => ?_,
        fun o' ho => ?_, fun hnone o' ho => ?_⟩
      · rw [hlive, hobjects]
        exact h.keyed sid o' (hsessions ▸ hget)
      · rw [hsessions, hobjects]
        exact h.single o' ((hlive o').1 ho)
      · rw [hobjects]
        exact h.named o' ((hlive o').1 ho)
      · rw [hobjects]
        exact h.placed (hstore hnone) o' ((hlive o').1 ho)
  | restart =>
      cases hstep
      exact shared_boot p.manager

/-! ## What is stored -/

variable (dir) in
/-- The session is stored: in its row, or else in its file. -/
def Durable (saved : SessionState D M) (m : SessionManager D M) : Prop :=
  match m.store with
  | some table => table.get saved.sessionId =
      some ⟨saved.tenantId, saved.workDir, saved.messages, saved.sharedContext⟩
  | none => m.disk.get (dir saved.tenantId saved.sessionId) =
        some ⟨saved.messages, saved.sharedContext⟩ ∧
      saved.workDir = dir saved.tenantId saved.sessionId

theorem durable_save (h : Shared dir p) {o : ℕ} (ho : p.Live o) :
    Durable dir (p.manager.objects o) (p.manager.save dir o) := by
  unfold SessionManager.save Durable
  cases hstore : p.manager.store with
  | none => exact ⟨Dict.get_set_self _ _ _, h.placed hstore o ho⟩
  | some table =>
      dsimp only
      rw [Dict.get_replace, if_pos rfl]

/-- A save of the same session, or of one that is kept elsewhere. -/
theorem Durable.save (h : Durable dir saved p.manager) {o : ℕ}
    (hok : NothingElse dir saved p (.save o)) : Durable dir saved (p.manager.save dir o) := by
  obtain ⟨hsame, hapart⟩ := hok
  unfold Durable at h
  unfold SessionManager.save Durable
  cases hstore : p.manager.store with
  | none =>
      rw [hstore] at h
      refine ⟨?_, h.2⟩
      dsimp only
      rw [Dict.get_set]
      split
      · rename_i hdir
        by_cases hid : (p.manager.objects o).sessionId = saved.sessionId
        · rw [hsame hid]
        · exact absurd hdir.symm (hapart hstore hid)
      · exact h.1
  | some table =>
      rw [hstore] at h
      dsimp only
      rw [Dict.get_replace]
      split
      · rename_i hid
        rw [hsame hid.symm]
      · exact h

theorem durable_step (h : Durable dir saved p.manager) (hids : NewIds p a)
    (hok : NothingElse dir saved p a) (hstep : step dir p a = some q) :
    Durable dir saved q.manager := by
  cases a with
  | request sessionId tenantId newId =>
      cases hstep
      rcases getOrCreate_split dir hids with ⟨o, hget⟩ | ⟨state, -, -, -, hget⟩ <;>
        rw [hget] <;> exact h
  | change o messages sharedContext =>
      simp only [step] at hstep
      split at hstep <;> cases hstep
      exact h
  | save o =>
      simp only [step] at hstep
      split at hstep <;> cases hstep
      exact h.save hok
  | restart =>
      cases hstep
      exact h

/-- What a restart finds. -/
theorem Durable.restored {m : SessionManager D M} (h : Durable dir saved m)
    (hne : saved.sessionId ≠ "") {tenantId newId : String}
    (htenant : m.store = none → tenantId = saved.tenantId) :
    m.restart.getOrCreate dir (some saved.sessionId) tenantId newId =
      (m.next, m.restart.add saved) := by
  have hid : idOf (some saved.sessionId) = some saved.sessionId := by simp [idOf, hne]
  have hload : m.restart.loadPersistent dir saved.sessionId tenantId = some saved := by
    have hparts : m.restart.store = m.store ∧ m.restart.disk = m.disk := ⟨rfl, rfl⟩
    unfold Durable at h
    unfold SessionManager.loadPersistent SessionManager.loadFromDisk
    rw [hparts.1, hparts.2]
    cases hstore : m.store with
    | none =>
        rw [hstore] at h
        rw [htenant hstore, Option.bind_none, h.1, Option.map_some, ← h.2]
    | some table =>
        rw [hstore] at h
        rw [Option.bind_some, h]
        rfl
  have hmemory : m.restart.sessions.get saved.sessionId = none := rfl
  unfold SessionManager.getOrCreate
  rw [hid]
  dsimp only
  rw [hmemory]
  dsimp only
  rw [hload]
  rfl

/-! ## Whole runs -/

/-- The object of a live session keeps its id. -/
theorem sessionId_step {o : ℕ} (hids : NewIds p a)
    (hstep : step dir p a = some q) (ho : q.Live o) (hold : o < p.manager.next) :
    p.Live o ∧ (q.manager.objects o).sessionId = (p.manager.objects o).sessionId := by
  cases a with
  | request sessionId tenantId newId =>
      cases hstep
      rcases getOrCreate_split dir hids with ⟨o', hget⟩ | ⟨state, -, -, -, hget⟩ <;>
        rw [hget] at ho ⊢
      · exact ⟨ho, rfl⟩
      · refine ⟨⟨ho.1, hold⟩, ?_⟩
        rw [add_objects_of_ne _ _ (Nat.ne_of_lt hold)]
  | change o' messages sharedContext =>
      simp only [step] at hstep
      split at hstep <;> cases hstep
      exact ⟨ho, (modify_objects_place _ _ _ _ _).1⟩
  | save o' =>
      simp only [step] at hstep
      split at hstep <;> cases hstep
      obtain ⟨-, hobjects, -, -⟩ := save_parts dir p.manager o'
      exact ⟨⟨ho.1, hold⟩, by rw [hobjects]⟩
  | restart =>
      cases hstep
      exact absurd ho (Process.not_live_boot _ _)

variable (dir) in
/-- What holds from the save of the object `o` on. -/
structure Inv (saved : SessionState D M) (o : ℕ) (p : Process D M) : Prop where
  sharing : Shared dir p
  durable : Durable dir saved p.manager
  known : o < p.manager.next
  own : p.Live o → (p.manager.objects o).sessionId = saved.sessionId
  named : saved.sessionId ≠ ""

theorem next_le_step (hids : NewIds p a) (hstep : step dir p a = some q) :
    p.manager.next ≤ q.manager.next := by
  cases a with
  | request sessionId tenantId newId =>
      cases hstep
      rcases getOrCreate_split dir hids with ⟨o', hget⟩ | ⟨state, -, -, -, hget⟩
      · simp only [hget, Nat.le_refl]
      · rw [hget]
        exact Nat.le_succ _
  | change o' messages sharedContext =>
      simp only [step] at hstep
      split at hstep <;> cases hstep
      exact Nat.le_refl _
  | save o' =>
      simp only [step] at hstep
      split at hstep <;> cases hstep
      exact Nat.le_of_eq (save_parts dir p.manager o').2.2.1.symm
  | restart =>
      cases hstep
      exact Nat.le_refl _

theorem inv_step {o : ℕ} (h : Inv dir saved o p) (hok : NewIds p a ∧ NothingElse dir saved p a)
    (hstep : step dir p a = some q) : Inv dir saved o q where
  sharing := shared_step h.sharing hok.1 hstep
  durable := durable_step h.durable hok.1 hok.2 hstep
  known := Nat.lt_of_lt_of_le h.known (next_le_step hok.1 hstep)
  own ho := by
    obtain ⟨hlive, hid⟩ := sessionId_step hok.1 hstep ho h.known
    rw [hid, h.own hlive]
  named := h.named

theorem Inv.continued {o : ℕ} (h : Inv dir saved o p) : Continued dir saved o p where
  shared ho tenantId newId := by
    have hid : idOf (some saved.sessionId) = some saved.sessionId := by simp [idOf, h.named]
    have hget := h.sharing.single o ho
    rw [h.own ho] at hget
    unfold SessionManager.getOrCreate
    rw [hid]
    dsimp only
    rw [hget]
  restored tenantId newId htenant := by
    rw [h.durable.restored h.named htenant]
    exact Function.update_self ..

/-- **A conversation goes on**: however the requests of all sessions come, whatever their runs
change and whenever the server is restarted. -/
theorem conversation_continued (dir : String → String → D) (m : SessionManager D M)
    (before : List (Action M)) (p : Process D M)
    (hbefore : Run.exec (step dir) (.boot m) before = some p)
    (hids : Run.Along (step dir) NewIds (.boot m) before) (o : ℕ) (ho : p.Live o)
    (after : List (Action M)) (q : Process D M)
    (hafter : Run.exec (step dir) p (.save o :: after) = some q)
    (hids' : Run.Along (step dir) NewIds p (.save o :: after))
    (helse : Run.Along (step dir) (NothingElse dir (p.manager.objects o)) p (.save o :: after)) :
    Continued dir (p.manager.objects o) o q := by
  have hshared : Shared dir p := Run.exec_invariant (fun _ _ _ h hok hstep => shared_step h hok hstep)
    (shared_boot m) hids hbefore
  obtain ⟨p₁, hsave, hrest⟩ := Run.exec_cons_some hafter
  obtain ⟨hok, hoks⟩ := Run.along_cons (hids'.and helse) hsave
  have hstart : Inv dir (p.manager.objects o) o p₁ := by
    have hsharing := shared_step hshared hok.1 hsave
    simp only [step, if_pos ho] at hsave
    cases hsave
    obtain ⟨-, hobjects, hnext, -⟩ := save_parts dir p.manager o
    refine ⟨hsharing, durable_save hshared ho, ?_, fun _ => ?_, hshared.named o ho⟩
    · rw [hnext]
      exact ho.2
    · rw [hobjects]
  exact (Run.exec_invariant (fun _ _ _ h hok hstep => inv_step h hok hstep) hstart hoks
    hrest).continued

deriving instance DecidableEq for SessionState

instance (p : Process D M) : ∀ a, Decidable (NewIds p a)
  | .request sessionId _ newId => inferInstanceAs (Decidable
      (idOf sessionId = none → newId ≠ "" ∧ p.manager.sessions.get newId = none))
  | .change _ _ _ => isTrue trivial
  | .save _ => isTrue trivial
  | .restart => isTrue trivial

instance [DecidableEq M] (dir : String → String → D) (saved : SessionState D M)
    (p : Process D M) : ∀ a, Decidable (NothingElse dir saved p a)
  | .request _ _ _ => isTrue trivial
  | .change _ _ _ => isTrue trivial
  | .save o => inferInstanceAs (Decidable
      (((p.manager.objects o).sessionId = saved.sessionId → p.manager.objects o = saved) ∧
        (p.manager.store = none → (p.manager.objects o).sessionId ≠ saved.sessionId → _ ≠ _)))
  | .restart => isTrue trivial

/-- A server without a store and without sessions. -/
def newServer : SessionManager (String × String) String where
  sessions := []
  objects _ := { sessionId := "", tenantId := "", workDir := ("", "") }
  next := 0
  store := none
  disk := []

/-- The first turn of a conversation. -/
def firstTurn : List (Action String) := [.request none "acme" "5f1c", .change 0 ["make a shop"] ""]

/-- The turn is saved, the server is restarted, another turn is begun, and another session is
saved. -/
def laterTurns : List (Action String) := [
  .restart, .request (some "5f1c") "acme" "", .change 1 ["make a shop", "add a cart"] "",
  .request none "other" "90aa", .save 2]

theorem firstTurn_runs :
    (Run.exec (step Prod.mk) (.boot newServer) firstTurn).isSome = true := by decide +kernel

/-- The server in which the first turn has been made. -/
def afterFirst : Process (String × String) String :=
  (Run.exec (step Prod.mk) (.boot newServer) firstTurn).get firstTurn_runs

theorem laterTurns_runs :
    (Run.exec (step Prod.mk) afterFirst (.save 0 :: laterTurns)).isSome = true := by
  decide +kernel

theorem shop_continued :
    Continued Prod.mk (afterFirst.manager.objects 0) 0
      ((Run.exec (step Prod.mk) afterFirst (.save 0 :: laterTurns)).get laterTurns_runs) :=
  conversation_continued Prod.mk newServer firstTurn afterFirst
    (Option.some_get firstTurn_runs).symm (by decide +kernel) 0 (by decide +kernel) laterTurns _
    (Option.some_get laterTurns_runs).symm (by decide +kernel) (by decide +kernel)

end Sessions
end AgentSwarm
