import AgentSwarm.Lib.Path
import AgentSwarm.Session.Manager
import AgentSwarm.Session.Service

/-!
# The work folders of sessions

Both session stores build the folder of a new session by joining the tenant id
and the session id, as they came with the request, to the base directory.

* `sessionDir`, `contextPath` — the folder, and the file in it.
* `managerDir`, `serviceDir` — the folder in the object that each store makes of
  a session it does not have; `getOrCreate_new` and `step_missing` say so.
* `Inside`, `Separate` — a folder is in the `sessions` directory of its tenant;
  two requests have folders apart from each other.
* `separate_iff_plain` — the folders of a request are inside and apart from
  those of all well-named requests exactly when its own ids are plain names.
* `managerServe`, `serviceServe` — the folders that the stores answer with, one
  request after the other; a session id that is known keeps its folder.
* `folders_separate_iff` — **main result**: for plain ids these are separate
  exactly when no session id is used by two tenants.

The tenant's directory is the one entry of `tenants` that its id names.  Links
in the base directory and what `mkdir` makes of a folder are left out.
-/

namespace AgentSwarm
namespace WorkDirs

open AgentSwarm.Path Sessions

variable (cwd : Location) (base : PurePath)

/-! ## The folders -/

/-- `self._base / "tenants" / tenant_id / "sessions" / session_id`. -/
def sessionDir (tenantId sessionId : String) : PurePath :=
  (((base.join "tenants").join tenantId).join "sessions").join sessionId

/-- `_context_path`. -/
def contextPath (sessionId tenantId : String) : PurePath :=
  ((sessionDir base tenantId sessionId).join "_session").join "context.json"

/-- The folder of a new session of the session manager. -/
def managerDir (tenantId sessionId : String) : PurePath :=
  (SessionManager.blank (M := Unit) (sessionDir base) sessionId tenantId).workDir

/-- The folder of a new session of the session service, which keeps its text. -/
def serviceDir (tenantId sessionId : String) : PurePath :=
  PurePath.ofString
    (SessionService.blank (fun t s => (sessionDir base t s).str) sessionId tenantId 0).workDir

theorem managerDir_eq (tenantId sessionId : String) :
    managerDir base tenantId sessionId = sessionDir base tenantId sessionId := rfl

theorem serviceDir_eq (tenantId sessionId : String) :
    serviceDir base tenantId sessionId = sessionDir base tenantId sessionId :=
  PurePath.ofString_str _

/-- A session that the manager does not find gets the folder of its names. -/
theorem getOrCreate_new (m : SessionManager PurePath Unit) {sessionId : Option String}
    (tenantId newId : String)
    (hnew : ∀ sid, idOf sessionId = some sid → m.sessions.get sid = none ∧
      m.loadPersistent (sessionDir base) sid tenantId = none) :
    let (o, m') := m.getOrCreate (sessionDir base) sessionId tenantId newId
    (m'.objects o).workDir = managerDir base tenantId ((idOf sessionId).getD newId) := by
  unfold SessionManager.getOrCreate
  cases hid : idOf sessionId with
  | none => simp [SessionManager.add, SessionManager.blank, managerDir]
  | some sid =>
      obtain ⟨hmem, hload⟩ := hnew sid hid
      simp [hmem, hload, SessionManager.add, SessionManager.blank, managerDir]

/-- A call of `get_or_create_with_id` that found no row makes a session with the
folder of its names. -/
theorem step_missing {prog : ℕ → SessionService.Call} {s t : SessionService.Svc}
    {a : SessionService.Action} {sessionId tenantId : String}
    (hprog : prog a.call = .getOrCreateWithId sessionId tenantId)
    (hpc : s.pc a.call = .missing)
    (hstep : SessionService.step (fun t s => (sessionDir base t s).str) prog s a = some t) :
    ∃ sess, t.pc a.call = .creating sess ∧
      PurePath.ofString sess.workDir = serviceDir base tenantId sessionId := by
  simp only [SessionService.step, hpc, hprog, Option.some.injEq] at hstep
  subst hstep
  exact ⟨_, Function.update_self _ _ _, rfl⟩

/-- The session's file is in its folder. -/
theorem contextPath_strictlyIn (sessionId tenantId : String) :
    (resolve cwd (contextPath base sessionId tenantId)).StrictlyIn
      (resolve cwd (sessionDir base tenantId sessionId)).names := by
  refine ⟨["_session", "context.json"], by simp, ?_⟩
  rw [contextPath, resolve_join_plain _ _ (by decide), resolve_join_plain _ _ (by decide)]
  simp

/-! ## The property -/

/-- The folder is strictly inside `base/tenants/<tenant>/sessions`. -/
def Inside (build : String → String → PurePath) (tenantId sessionId : String) : Prop :=
  (resolve cwd (build tenantId sessionId)).StrictlyIn
    ((resolve cwd base).names ++ ["tenants", tenantId, "sessions"])

/-- The folders that the two stores build for two requests are inside, and apart
from each other unless the requests have the same ids. -/
def Separate (tenantId sessionId tenantId' sessionId' : String) : Prop :=
  ∀ build ∈ [managerDir base, serviceDir base], ∀ build' ∈ [managerDir base, serviceDir base],
    Inside cwd base build tenantId sessionId ∧ Inside cwd base build' tenantId' sessionId' ∧
      ((tenantId, sessionId) ≠ (tenantId', sessionId') →
        (resolve cwd (build tenantId sessionId)).Apart
          (resolve cwd (build' tenantId' sessionId')))

/-- One definition of the folder is enough, as both stores build the same. -/
theorem separate_iff {tenantId sessionId tenantId' sessionId' : String} :
    Separate cwd base tenantId sessionId tenantId' sessionId' ↔
      Inside cwd base (sessionDir base) tenantId sessionId ∧
        Inside cwd base (sessionDir base) tenantId' sessionId' ∧
        ((tenantId, sessionId) ≠ (tenantId', sessionId') →
          (resolve cwd (sessionDir base tenantId sessionId)).Apart
            (resolve cwd (sessionDir base tenantId' sessionId'))) := by
  simp [Separate, Inside, managerDir_eq, serviceDir_eq]

/-! ## Plain names -/

/-- The folder of plain names. -/
theorem resolve_sessionDir {tenantId sessionId : String} (ht : Plain tenantId)
    (hs : Plain sessionId) :
    (resolve cwd (sessionDir base tenantId sessionId)).names =
      (resolve cwd base).names ++ ["tenants", tenantId, "sessions", sessionId] := by
  rw [sessionDir, resolve_join_plain _ _ hs, resolve_join_plain _ _ (by decide),
    resolve_join_plain _ _ ht, resolve_join_plain _ _ (by decide)]
  simp

theorem inside_of_plain {tenantId sessionId : String} (ht : Plain tenantId)
    (hs : Plain sessionId) : Inside cwd base (sessionDir base) tenantId sessionId := by
  refine ⟨[sessionId], by simp, ?_⟩
  rw [resolve_sessionDir cwd base ht hs]
  simp

theorem apart_of_plain {tenantId sessionId tenantId' sessionId' : String} (ht : Plain tenantId)
    (hs : Plain sessionId) (ht' : Plain tenantId') (hs' : Plain sessionId')
    (hne : (tenantId, sessionId) ≠ (tenantId', sessionId')) :
    (resolve cwd (sessionDir base tenantId sessionId)).Apart
      (resolve cwd (sessionDir base tenantId' sessionId')) := by
  unfold Location.Apart
  rw [resolve_sessionDir cwd base ht hs, resolve_sessionDir cwd base ht' hs']
  constructor <;> rw [List.prefix_append_right_inj]
  · intro hprefix
    obtain ⟨rfl, rfl⟩ : tenantId = tenantId' ∧ sessionId = sessionId' := by
      simpa using hprefix.eq_of_length rfl
    exact hne rfl
  · intro hprefix
    obtain ⟨rfl, rfl⟩ : tenantId' = tenantId ∧ sessionId' = sessionId := by
      simpa using hprefix.eq_of_length rfl
    exact hne rfl

/-! ## Other names -/

/-- A folder that is inside has a plain tenant, and goes through the folder of a
plain session. -/
theorem Inside.plain {tenantId sessionId : String}
    (h : Inside cwd base (sessionDir base) tenantId sessionId) :
    Plain tenantId ∧ ∃ name, Plain name ∧
      (resolve cwd base).names ++ ["tenants", tenantId, "sessions", name] <+:
        (resolve cwd (sessionDir base tenantId sessionId)).names := by
  obtain ⟨rest, hrest, hnames⟩ := h
  obtain ⟨name, rest, rfl⟩ := List.exists_cons_of_ne_nil hrest
  have hplain : ∀ c ∈ (resolve cwd (sessionDir base tenantId sessionId)).names, Plain c :=
    (resolve cwd (sessionDir base tenantId sessionId)).plain
  rw [hnames] at hplain ⊢
  refine ⟨hplain tenantId (by simp), name, hplain name (by simp), rest, ?_⟩
  simp

/-- The folders of a request are inside, and apart from those of every request
with plain ids, exactly when its own ids are plain. -/
theorem separate_iff_plain (tenantId sessionId : String) :
    (∀ tenantId' sessionId', Plain tenantId' → Plain sessionId' →
        Separate cwd base tenantId sessionId tenantId' sessionId') ↔
      Plain tenantId ∧ Plain sessionId := by
  constructor
  · intro h
    have hinside : Inside cwd base (sessionDir base) tenantId sessionId :=
      ((separate_iff cwd base).1 (h "default" "s" (by decide) (by decide))).1
    obtain ⟨ht, name, hname, hprefix⟩ := hinside.plain
    refine ⟨ht, ?_⟩
    by_contra hs
    have hne : (tenantId, sessionId) ≠ (tenantId, name) := by
      intro heq
      cases heq
      exact hs hname
    -- the session of that plain name has a folder on the way to this one
    have hapart := ((separate_iff cwd base).1 (h tenantId name ht hname)).2.2 hne
    rw [← resolve_sessionDir cwd base ht hname] at hprefix
    exact hapart.2 hprefix
  · rintro ⟨ht, hs⟩ tenantId' sessionId' ht' hs'
    rw [separate_iff]
    exact ⟨inside_of_plain cwd base ht hs, inside_of_plain cwd base ht' hs',
      apart_of_plain cwd base ht hs ht' hs'⟩

/-! ## Stores that are asked again -/

/-- The tenant id and the session id of a request. -/
abbrev Ids := String × String

/-- What a store answers that keeps a folder for each session id: the folder it
has, or else a new one, which it keeps. -/
def serve (build : String → String → PurePath) :
    (String → Option PurePath) → List Ids → List (Ids × PurePath)
  | _, [] => []
  | kept, (tenantId, sessionId) :: ids =>
      let dir := (kept sessionId).getD (build tenantId sessionId)
      ((tenantId, sessionId), dir) :: serve build (Function.update kept sessionId (some dir)) ids

/-- `get_or_create` of the session manager, for one request after the other. -/
def managerServe (m : SessionManager PurePath Unit) : List Ids → List (Ids × PurePath)
  | [] => []
  | (tenantId, sessionId) :: ids =>
      let (o, m) := m.getOrCreate (sessionDir base) (some sessionId) tenantId ""
      ((tenantId, sessionId), (m.objects o).workDir) :: managerServe m ids

/-- The answers are inside the folders of their tenants, and those to different
requests are apart. -/
def AllSeparate (answers : List (Ids × PurePath)) : Prop :=
  ∀ a ∈ answers, ∀ b ∈ answers,
    (resolve cwd a.2).StrictlyIn ((resolve cwd base).names ++ ["tenants", a.1.1, "sessions"]) ∧
      (a.1 ≠ b.1 → (resolve cwd a.2).Apart (resolve cwd b.2))

/-- No session id is used by two tenants. -/
def OwnIds (ids : List Ids) : Prop := ∀ a ∈ ids, ∀ b ∈ ids, a.2 = b.2 → a.1 = b.1

variable (build : String → String → PurePath)

theorem serve_map_fst (kept : String → Option PurePath) (ids : List Ids) :
    (serve build kept ids).map Prod.fst = ids := by
  induction ids generalizing kept with
  | nil => rfl
  | cons a ids ih => simp [serve, ih]

/-- The answers for one session id are one folder. -/
theorem serve_same (kept : String → Option PurePath) (ids : List Ids) :
    ∃ dir : String → PurePath, (∀ s d, kept s = some d → dir s = d) ∧
      ∀ a ∈ serve build kept ids, a.2 = dir a.1.2 := by
  induction ids generalizing kept with
  | nil => exact ⟨fun s => (kept s).getD (build "" s), fun s d h => by simp [h], by simp [serve]⟩
  | cons a ids ih =>
      obtain ⟨tenantId, sessionId⟩ := a
      obtain ⟨dir, hkept, hall⟩ := ih
        (Function.update kept sessionId (some ((kept sessionId).getD (build tenantId sessionId))))
      have hhere := hkept sessionId _ (Function.update_self _ _ _)
      refine ⟨dir, ?_, ?_⟩
      · intro s d hd
        by_cases hs : s = sessionId
        · subst hs
          rw [hhere, hd]
          rfl
        · exact hkept s d (by rwa [Function.update_of_ne hs])
      · simpa [serve, hhere] using hall

/-- Without a session id of two tenants, every answer is the folder of its ids. -/
theorem serve_of_ownIds {ids : List Ids} (hown : OwnIds ids) (kept : String → Option PurePath)
    (hkept : ∀ s d, kept s = some d → ∀ a ∈ ids, a.2 = s → d = build a.1 a.2) :
    ∀ a ∈ serve build kept ids, a.2 = build a.1.1 a.1.2 := by
  induction ids generalizing kept with
  | nil => simp [serve]
  | cons a ids ih =>
      obtain ⟨tenantId, sessionId⟩ := a
      have hhere : (kept sessionId).getD (build tenantId sessionId) =
          build tenantId sessionId := by
        cases h : kept sessionId with
        | none => rfl
        | some d => exact hkept sessionId d h _ List.mem_cons_self rfl
      have hkept' : ∀ s d,
          Function.update kept sessionId (some (build tenantId sessionId)) s = some d →
            ∀ a ∈ ids, a.2 = s → d = build a.1 a.2 := by
        intro s d hd a ha hs
        by_cases hsame : s = sessionId
        · subst hsame
          rw [Function.update_self] at hd
          cases hd
          have ht := hown a (List.mem_cons_of_mem _ ha) _ List.mem_cons_self hs
          rw [ht, hs]
        · rw [Function.update_of_ne hsame] at hd
          exact hkept s d hd a (List.mem_cons_of_mem _ ha) hs
      have hown' : OwnIds ids := fun a ha b hb =>
        hown a (List.mem_cons_of_mem _ ha) b (List.mem_cons_of_mem _ hb)
      have hrest := ih hown' _ hkept'
      simpa [serve, hhere] using hrest

/-- For plain ids, a store keeps its folders separate exactly when no session id
is used by two tenants. -/
theorem allSeparate_serve_iff {ids : List Ids} (hplain : ∀ a ∈ ids, Plain a.1 ∧ Plain a.2) :
    AllSeparate cwd base (serve (sessionDir base) (fun _ => none) ids) ↔ OwnIds ids := by
  have hids := serve_map_fst (sessionDir base) (fun _ => none) ids
  constructor
  · intro hsep x hx y hy hsame
    by_contra hne
    obtain ⟨dir, -, hdir⟩ := serve_same (sessionDir base) (fun _ => none) ids
    rw [← hids] at hx hy
    obtain ⟨a, ha, rfl⟩ := List.mem_map.1 hx
    obtain ⟨b, hb, rfl⟩ := List.mem_map.1 hy
    have hapart := (hsep a ha b hb).2 (fun heq => hne (by rw [heq]))
    rw [hdir a ha, hdir b hb, hsame] at hapart
    exact hapart.1 (List.prefix_refl _)
  · intro hown a ha b hb
    have hall := serve_of_ownIds (sessionDir base) hown (fun _ => none) (by simp)
    have hmem : ∀ c ∈ serve (sessionDir base) (fun _ => none) ids, c.1 ∈ ids := by
      intro c hc
      rw [← hids]
      exact List.mem_map_of_mem hc
    obtain ⟨hat, has⟩ := hplain a.1 (hmem a ha)
    obtain ⟨hbt, hbs⟩ := hplain b.1 (hmem b hb)
    rw [hall a ha, hall b hb]
    exact ⟨inside_of_plain cwd base hat has, apart_of_plain cwd base hat has hbt hbs⟩

/-- The session manager is such a store, as long as nothing was saved. -/
theorem managerServe_eq {ids : List Ids} (hids : ∀ a ∈ ids, a.2 ≠ "")
    {m : SessionManager PurePath Unit} {kept : String → Option PurePath}
    (hload : ∀ s t, m.loadPersistent (sessionDir base) s t = none)
    (hlt : ∀ s o, m.sessions.get s = some o → o < m.next)
    (hkept : ∀ s, (m.sessions.get s).map (fun o => (m.objects o).workDir) = kept s) :
    managerServe base m ids = serve (sessionDir base) kept ids := by
  induction ids generalizing m kept with
  | nil => rfl
  | cons a ids ih =>
      obtain ⟨tenantId, sessionId⟩ := a
      have hne : sessionId ≠ "" := hids _ List.mem_cons_self
      have hid : idOf (some sessionId) = some sessionId := by simp [idOf, Option.filter, hne]
      have hids' : ∀ a ∈ ids, a.2 ≠ "" := fun a ha => hids a (List.mem_cons_of_mem _ ha)
      have hhere := hkept sessionId
      rw [managerServe, serve]
      unfold SessionManager.getOrCreate
      simp only [hid]
      cases hmem : m.sessions.get sessionId with
      | some o =>
        rw [hmem] at hhere
        simp only [← hhere, Option.map_some, Option.getD_some]
        rw [ih hids' hload hlt]
        intro s
        rw [hkept s]
        by_cases hs : s = sessionId
        · subst hs
          rw [Function.update_self, ← hhere]
          rfl
        · rw [Function.update_of_ne hs]
      | none =>
        rw [hmem] at hhere
        simp only [hload, ← hhere, Option.map_none, Option.getD_none]
        set blank : SessionState PurePath Unit :=
          SessionManager.blank (sessionDir base) sessionId tenantId with hblank
        have hlt' : ∀ s o, (m.add blank).sessions.get s = some o → o < (m.add blank).next := by
          intro s o ho
          rw [SessionManager.add, Dict.get_set] at ho
          split at ho
          · cases ho
            exact Nat.lt_succ_self _
          · exact (hlt s o ho).trans (Nat.lt_succ_self _)
        have hkept' : ∀ s, ((m.add blank).sessions.get s).map
            (fun o => ((m.add blank).objects o).workDir) =
              Function.update kept sessionId (some (sessionDir base tenantId sessionId)) s := by
          intro s
          rw [SessionManager.add, Dict.get_set]
          by_cases hs : s = sessionId
          · subst hs
            simp [hblank, SessionManager.blank]
          · have hs' : ¬s = blank.sessionId := hs
            rw [if_neg hs', Function.update_of_ne hs, ← hkept s]
            cases hget : m.sessions.get s with
            | none => rfl
            | some o => simp [Function.update_of_ne (hlt s o hget).ne]
        have hload' : ∀ s t, (m.add blank).loadPersistent (sessionDir base) s t = none := hload
        rw [ih hids' hload' hlt' hkept']
        simp [SessionManager.add, hblank, SessionManager.blank]

/-- `get_or_create_with_id` of the session service, for one request after the other. -/
def serviceServe (db : String → Option SessionService.Row) : List Ids → List (Ids × PurePath)
  | [] => []
  | (tenantId, sessionId) :: ids =>
      match db sessionId with
      | some row => ((tenantId, sessionId), PurePath.ofString row.workDir) :: serviceServe db ids
      | none =>
          let sess :=
            SessionService.blank (fun t s => (sessionDir base t s).str) sessionId tenantId 0
          ((tenantId, sessionId), PurePath.ofString sess.workDir) ::
            serviceServe (Function.update db sessionId (some sess.toRow)) ids

/-- The session service is such a store. -/
theorem serviceServe_eq (db : String → Option SessionService.Row) (ids : List Ids) :
    serviceServe base db ids =
      serve (sessionDir base) (fun s => (db s).map fun row => PurePath.ofString row.workDir)
        ids := by
  induction ids generalizing db with
  | nil => rfl
  | cons a ids ih =>
      obtain ⟨tenantId, sessionId⟩ := a
      rw [serviceServe, serve]
      cases hrow : db sessionId with
      | some row =>
        have hsame : Function.update (fun s => (db s).map fun row => PurePath.ofString row.workDir)
            sessionId (some (PurePath.ofString row.workDir)) =
              fun s => (db s).map fun row => PurePath.ofString row.workDir := by
          rw [Function.update_eq_self_iff, hrow]
          rfl
        simp [hsame, ih]
      | none =>
        have hdir := serviceDir_eq base tenantId sessionId
        rw [serviceDir] at hdir
        simp only [Option.map_none, Option.getD_none, hdir, ih]
        congr 2
        funext s
        by_cases hs : s = sessionId
        · subst hs
          simp [← hdir]
        · simp [Function.update_of_ne hs]

/-- A session manager without sessions; `store` tells whether it has a SQLite store. -/
def fresh (store : Bool) : SessionManager PurePath Unit where
  sessions := []
  objects _ := SessionManager.blank (sessionDir base) "" ""
  next := 0
  store := if store then some [] else none
  disk := []

theorem fresh_loadPersistent (store : Bool) (s t : String) :
    (fresh base store).loadPersistent (sessionDir base) s t = none := by
  cases store <;> rfl

/-- **Contained and disjoint.**  The folders of a request are inside, and apart
from those of every request with plain ids, exactly when its own ids are plain;
and requests with plain ids are answered with separate folders exactly when no
session id is used by two tenants. -/
theorem folders_separate_iff (cwd : Location) (base : PurePath) :
    (∀ tenantId sessionId, (∀ tenantId' sessionId', Plain tenantId' → Plain sessionId' →
        Separate cwd base tenantId sessionId tenantId' sessionId') ↔
      Plain tenantId ∧ Plain sessionId) ∧
    ∀ ids : List Ids, (∀ a ∈ ids, Plain a.1 ∧ Plain a.2) →
      (∀ store, AllSeparate cwd base (managerServe base (fresh base store) ids) ↔ OwnIds ids) ∧
        (AllSeparate cwd base (serviceServe base (fun _ => none) ids) ↔ OwnIds ids) := by
  refine ⟨separate_iff_plain cwd base, ?_⟩
  intro ids hplain
  constructor
  · intro store
    have hids : ∀ a ∈ ids, a.2 ≠ "" := fun a ha => (hplain a ha).2.1.1
    have hserve : managerServe base (fresh base store) ids =
        serve (sessionDir base) (fun _ => none) ids :=
      managerServe_eq base hids (fresh_loadPersistent base store) (by simp [fresh])
        (fun _ => rfl)
    rw [hserve]
    exact allSeparate_serve_iff cwd base hplain
  · rw [serviceServe_eq]
    exact allSeparate_serve_iff cwd base hplain

/-- Two tenants with a session each. -/
theorem folders_separate_two :
    AllSeparate ⟨["app"], by decide⟩ (.ofString "/srv/shared_output")
      (managerServe (.ofString "/srv/shared_output") (fresh (.ofString "/srv/shared_output") true)
        [("acme", "s1"), ("globex", "s2")]) :=
  (((folders_separate_iff ⟨["app"], by decide⟩ (.ofString "/srv/shared_output")).2
    [("acme", "s1"), ("globex", "s2")] (by decide)).1 true).2 (by unfold OwnIds; decide)

/-! ## An id that climbs -/

/-- **A session id that leads into another tenant's folder**: the folder of
acme's request is the folder of globex's session. -/
theorem climbing_not_separate :
    ¬Separate ⟨["app"], by decide⟩ (.ofString "/srv/shared_output")
      "acme" "../../globex/sessions/s1" "globex" "s1" := by
  rw [separate_iff]
  rintro ⟨-, -, hapart⟩
  exact (hapart (by decide)).1 (by decide +kernel)

end WorkDirs
end AgentSwarm
