import AgentSwarm.Dispatcher.Base
import AgentSwarm.Lib.Path
import AgentSwarm.Session.WorkDirs
import AgentSwarm.Worker.Settings

/-!
# The config of a checkout

With each checkout the pool writes the `config.json` of the container.  The folder of the
dispatch is a path of the host; the container has the shared output of the host mounted at a
place of its own, so the folder is put below that.

* `relativeTo` — `p.relative_to(base)`.
* `Call`, `Card` — what a checkout is called with, and the agent cards of the settings.
* `sharedDir`, `config` — the folder as the container sees it, and the file.
* `sharedDir_session` — the folder of a session, for plain ids.
* `AtWork` — a request of a worker that has found the file.
* `taken` — **the worker takes what the pool has written**, in every run of it: the folder and the
  role as long as no other config is loaded.
-/

namespace AgentSwarm
namespace Checkout

open AgentSwarm.Path (PurePath Plain)
open Dispatcher (orElse)
open Worker.Settings

/-- `CONTAINER_SHARED_DIR`. -/
def containerSharedDir : String := "/workspace/artifacts"

/-- `CONTAINER_PORT`, by its `str`. -/
def containerPort : String := "9001"

/-- `p.relative_to(base)`, and `none` for the `ValueError`. -/
def relativeTo (p base : PurePath) : Option PurePath :=
  if p.root = base.root ∧ base.parts <+: p.parts then
    some {
      root := .none
      parts := p.parts.drop base.parts.length
      ok := fun c hc => p.ok c (List.mem_of_mem_drop hc) }
  else none

/-- What `checkout` is called with. -/
structure Call where
  agentCardId : String
  taskId : String
  model : String
  baseUrl : String
  apiKey : String
  tenantId : Option String := none
  orchestratorUrl : Option String := none
  sharedDirOverride : Option String := none

/-- A card of `settings.agent_cards`. -/
structure Card where
  id : String
  systemPrompt : String

/-- `container_shared_dir`, for the `shared_output_base` of the pool. -/
def sharedDir (base : String) (c : Call) : String :=
  let override := orElse c.sharedDirOverride ""
  if override ≠ "" then
    match relativeTo (.ofString override) (.ofString base) with
    | some rel => containerSharedDir ++ "/" ++ rel.str
    | none => override
  else containerSharedDir ++ "/tenants/" ++ orElse c.tenantId "default" ++ "/tasks/" ++ c.taskId

/-- The prompt of the role: that of the first card with its id, unless it is empty. -/
def systemPrompt (cards : List Card) (agentCardId : String) : Option String :=
  (cards.find? (·.id = agentCardId)).bind fun card =>
    if card.systemPrompt ≠ "" then some card.systemPrompt else none

/-- The `config` that `checkout` writes. -/
def config (base : String) (cards : List Card) (c : Call) : Config :=
  [("task_id", some c.taskId), ("tenant_id", some (orElse c.tenantId "default")),
    ("agent_role", some c.agentCardId), ("model", some c.model), ("base_url", some c.baseUrl),
    ("api_key", some c.apiKey), ("port", some containerPort),
    ("shared_dir", some (sharedDir base c)), ("orchestrator_url", c.orchestratorUrl)] ++
    ((systemPrompt cards c.agentCardId).map fun text => ("system_prompt", some text)).toList

/-- The setting that the config gives. -/
def Call.setting (base : String) (c : Call) : Setting → String
  | .agentRole => c.agentCardId
  | .model => c.model
  | .baseUrl => c.baseUrl
  | .apiKey => c.apiKey
  | .taskId => c.taskId
  | .sharedDir => sharedDir base c

variable {base : String} {cards : List Card} {call : Call} {toInt : String → Option ℤ}
  {s : Server} {r : ℕ}

theorem get_config (x : Setting) :
    (config base cards call).get x.key = some (some (call.setting base x)) := by
  cases x <;> rfl

/-- The port can be read, so the config gives every setting. -/
theorem gives_config (hport : (toInt containerPort).isSome) (x : Setting) :
    (config base cards call).gives toInt x = some (call.setting base x) := by
  have hfails : (config base cards call).portFails toInt = false := by
    have hget : (config base cards call).get "port" = some (some containerPort) := rfl
    simpa [Config.portFails, hget, Option.isSome_iff_ne_none] using hport
  rw [Config.gives, hfails, get_config]
  simp

/-! ## The folder of a session -/

theorem relativeTo_append {p q : PurePath} (h : q.absolute = false) :
    relativeTo (p.append q) p = some q := by
  obtain ⟨hroot, hparts⟩ := p.append_of_relative h
  rw [relativeTo, if_pos ⟨hroot, hparts ▸ List.prefix_append _ _⟩]
  refine congrArg some (PurePath.ext (PurePath.absolute_eq_false.1 h).symm ?_)
  simp [hparts]

/-- The names from the base to the folder of a session. -/
def sessionPart (tenantId sessionId : String) (ht : Plain tenantId) (hs : Plain sessionId) :
    PurePath where
  root := .none
  parts := ["tenants", tenantId, "sessions", sessionId]
  ok := by
    intro c hc
    simp only [List.mem_cons, List.not_mem_nil, or_false] at hc
    rcases hc with rfl | rfl | rfl | rfl
    · decide
    · exact ht.1
    · decide
    · exact hs.1

theorem sessionDir_eq (base : PurePath) {tenantId sessionId : String} (ht : Plain tenantId)
    (hs : Plain sessionId) :
    WorkDirs.sessionDir base tenantId sessionId =
      base.append (sessionPart tenantId sessionId ht hs) := by
  have htenants : Path.Part "tenants" := by decide
  have hsessions : Path.Part "sessions" := by decide
  obtain ⟨hroot, hparts⟩ := base.append_of_relative (q := sessionPart tenantId sessionId ht hs) rfl
  rw [WorkDirs.sessionDir]
  refine PurePath.ext ?_ ?_
  · rw [(PurePath.join_parts_of_part _ hs.1).1, (PurePath.join_parts_of_part _ hsessions).1,
      (PurePath.join_parts_of_part _ ht.1).1, (PurePath.join_parts_of_part _ htenants).1, hroot]
  · rw [(PurePath.join_parts_of_part _ hs.1).2, (PurePath.join_parts_of_part _ hsessions).2,
      (PurePath.join_parts_of_part _ ht.1).2, (PurePath.join_parts_of_part _ htenants).2, hparts]
    simp [sessionPart]

/-- A folder below the base. -/
theorem sharedDir_of_relative {dir : String} {rel : PurePath} (hdir : dir ≠ "")
    (h : call.sharedDirOverride = some dir)
    (hrel : relativeTo (.ofString dir) (.ofString base) = some rel) :
    sharedDir base call = containerSharedDir ++ "/" ++ rel.str := by
  have hoverride : orElse call.sharedDirOverride "" = dir := by
    rw [h]
    exact if_neg hdir
  rw [sharedDir, hoverride, if_pos hdir, hrel]

/-- **The folder of a session**, as the container sees it. -/
theorem sharedDir_session {tenantId sessionId : String} (ht : Plain tenantId)
    (hs : Plain sessionId)
    (h : call.sharedDirOverride =
      some (WorkDirs.sessionDir (.ofString base) tenantId sessionId).str) :
    PurePath.ofString (sharedDir base call) =
      (PurePath.ofString containerSharedDir).append (sessionPart tenantId sessionId ht hs) := by
  have hrel := relativeTo_append (p := .ofString base) (q := sessionPart tenantId sessionId ht hs) rfl
  rw [← sessionDir_eq _ ht hs, ← PurePath.ofString_str (WorkDirs.sessionDir _ _ _)] at hrel
  have hne : (WorkDirs.sessionDir (.ofString base) tenantId sessionId).str ≠ "" := by
    intro hempty
    rw [hempty, relativeTo] at hrel
    split at hrel
    · have hparts := congrArg PurePath.parts (Option.some.inj hrel)
      simp [sessionPart, PurePath.ofString, Path.components] at hparts
    · cases hrel
  have hrelative : (PurePath.ofString (sessionPart tenantId sessionId ht hs).str).absolute =
      false := by
    rw [PurePath.ofString_str]
    rfl
  rw [sharedDir_of_relative hne h hrel,
    PurePath.ofString_slash ⟨'w', by decide, by decide⟩ hrelative, PurePath.join,
    PurePath.ofString_str]

/-! ## The worker -/

/-- The request runs in a worker that has come to its state by a run of its own, and it has found
the file of the checkout. -/
structure AtWork (toInt : String → Option ℤ) (base : String) (cards : List Card) (call : Call)
    (s : Server) (r : ℕ) : Prop where
  reached : ∃ environ args file events,
    Run.exec (step toInt) (start (main environ args) file) events = some s
  running : (s.requests r).pc = .running
  found : (s.requests r).file = some (config base cards call)

theorem latestOf_of_last {loads : List Config} {cfg : Config} {boot : Process} {x : Setting}
    {text : String} (hlast : loads.getLast? = some cfg) (hgives : cfg.gives toInt x = some text) :
    latestOf toInt boot x loads = text := by
  obtain ⟨before, rfl⟩ := List.getLast?_eq_some_iff.1 hlast
  rw [latestOf, latest_concat, hgives, Option.getD_some]

/-- The worker's server keeps its invariant. -/
theorem AtWork.inv (h : AtWork toInt base cards call s r) :
    ∃ boot, Inv toInt boot s ∧ (s.requests r).Active := by
  obtain ⟨environ, args, file, events, hexec⟩ := h.reached
  refine ⟨main environ args, ?_, by simp [Request.Active, h.running]⟩
  exact Run.throughout_of_preserved (fun s e t => inv_step)
    (inv_start (synced_main environ args) file) events events [] (List.append_nil _).symm s hexec

/-- The folder as the container sees it, and the directory of the role, until another config is
loaded: the role is a global of the process. -/
theorem dirs_taken (hport : (toInt containerPort).isSome)
    (h : AtWork toInt base cards call s r) (hlast : s.loads.getLast? = some (config base cards call)) :
    executeFileTool s r =
      { sharedDir := sharedDir base call, rolePrefix := rolePrefix call.agentCardId } := by
  obtain ⟨boot, hinv, hactive⟩ := h.inv
  have hcontext : s.getContext r .sharedDir = sharedDir base call :=
    getContext_of_given hinv hactive h.found (get_config .sharedDir)
  have hdir : (executeFileTool s r).sharedDir = sharedDir base call := by
    rw [hinv.sharedDir hactive, ← hinv.getContext hactive, hcontext,
      latestOf_of_last hlast (gives_config hport .sharedDir)]
    exact ite_self _
  have hrole : (executeFileTool s r).rolePrefix = rolePrefix call.agentCardId := by
    rw [executeFileTool, hinv.globals, latestOf_of_last hlast (gives_config hport .agentRole)]
    rfl
  rw [← hdir, ← hrole]

/-- **The worker takes what the pool has written**: the task, the model and the credentials,
whatever configs have been loaded since; the folder and the role, if none has. -/
theorem taken (prompts : SystemPrompts) (hport : (toInt containerPort).isSome)
    (h : AtWork toInt base cards call s r) :
    contextId s r = call.taskId ∧
      (callLlm prompts s r).model = call.model ∧
      (callLlm prompts s r).baseUrl = call.baseUrl ∧
      (callLlm prompts s r).apiKey = call.apiKey ∧
      (s.loads.getLast? = some (config base cards call) →
        executeFileTool s r =
          { sharedDir := sharedDir base call, rolePrefix := rolePrefix call.agentCardId }) := by
  obtain ⟨boot, hinv, hactive⟩ := h.inv
  have hcontext (x : Setting) : s.getContext r x = call.setting base x :=
    getContext_of_given hinv hactive h.found (get_config x)
  exact ⟨hcontext .taskId, hcontext .model, hcontext .baseUrl, hcontext .apiKey,
    dirs_taken hport h⟩

/-- `int`, for the port. -/
def readPort (text : String) : Option ℤ := if text = "9001" then some 9001 else none

/-- A dispatch to a `frontend` of a session. -/
def frontendCall : Call where
  agentCardId := "frontend-ux-pro"
  taskId := "t1"
  model := "glm-4.7"
  baseUrl := "https://open.bigmodel.cn/api/coding/paas/v4"
  apiKey := "k1"
  sharedDirOverride := some "/srv/shared_output/tenants/acme/sessions/s1"

/-- A worker that has just been started gets its first request. -/
def firstRequest (base : String) (call : Call) : List Event :=
  [.write (some (config base [] call)), .arrive 0, .opens 0, .runs 0]

theorem atWork_first {base : String} {call : Call} {s : Server}
    (h : Run.exec (step readPort) (start (main [] {}) none) (firstRequest base call) = some s)
    (hrunning : (s.requests 0).pc = .running)
    (hfound : (s.requests 0).file = some (config base [] call)) : AtWork readPort base [] call s 0 :=
  ⟨⟨[], {}, none, _, h⟩, hrunning, hfound⟩

/-- The worker works in the folder of the session as it sees it. -/
theorem frontend_taken :
    ∃ s, AtWork readPort "/srv/shared_output" [] frontendCall s 0 ∧
      (callLlm twoPrompts s 0).model = "glm-4.7" ∧
      executeFileTool s 0 =
        { sharedDir := "/workspace/artifacts/tenants/acme/sessions/s1",
          rolePrefix := "frontend" } := by
  have hwork := @atWork_first "/srv/shared_output" frontendCall _ rfl rfl rfl
  obtain ⟨-, hmodel, -, -, hdirs⟩ := taken twoPrompts rfl hwork
  refine ⟨_, hwork, hmodel, (hdirs rfl).trans ?_⟩
  simp only [ToolDirs.mk.injEq]
  decide +kernel

end Checkout
end AgentSwarm
