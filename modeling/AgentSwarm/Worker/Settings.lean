import Mathlib.Data.Int.Notation
import Mathlib.Logic.Function.Basic
import AgentSwarm.Lib.Dict
import AgentSwarm.Lib.Run

/-!
# The settings of a worker

A worker is kept warm: with each checkout the pool writes a new `config.json`, and the worker
reads it again when a request arrives.  What it reads goes to the module's globals, to
`os.environ` and to the context of the request, and the execution of the request takes each of
its settings from one of them or another.

* `Config`, `Process` — the file, and the globals and the environment of the process.
* `reloadConfig` — the file is read again; `_set` takes the global for a missing field.
* `Server`, `Event`, `step` — requests arrive, are opened, start, and call tools.
* `contextId`, `callLlm`, `executeFileTool` — the settings that are taken.
* `Isolated` — they are those of the config in force when the request arrived.
* `latest` — the value that the latest of the loaded configs gives which gives one.
* `Undisturbed` — the latest value is the request's own.
* `isolated_iff_undisturbed` — requests do not interfere in **exactly** the runs that meet it.
* `prompt_of_earlier_request` — a role without a prompt gets that of the role before it.

A request that uses `tasks/get` or another method reads the file as well, and is not opened.
-/

namespace AgentSwarm
namespace Worker
namespace Settings

/-! ## The process -/

/-- `config.json`: each value by its `str`, and `none` for `null`. -/
abbrev Config := Dict String (Option String)

/-- The settings that have a global. -/
inductive Setting where
  | agentRole
  | model
  | baseUrl
  | apiKey
  | taskId
  | sharedDir
  deriving DecidableEq

/-- The field of the config. -/
def Setting.key : Setting → String
  | .agentRole => "agent_role"
  | .model => "model"
  | .baseUrl => "base_url"
  | .apiKey => "api_key"
  | .taskId => "task_id"
  | .sharedDir => "shared_dir"

/-- `key.upper()`. -/
def Setting.envKey : Setting → String
  | .agentRole => "AGENT_ROLE"
  | .model => "MODEL"
  | .baseUrl => "BASE_URL"
  | .apiKey => "API_KEY"
  | .taskId => "TASK_ID"
  | .sharedDir => "SHARED_DIR"

/-- The module's globals and `os.environ`. -/
structure Process where
  globals : Setting → String
  agentPort : ℤ
  environ : Dict String String

/-- The arguments of the command line. -/
structure Args where
  role : String := "general"
  model : String := "glm-coding-plan"
  baseUrl : String := "https://open.bigmodel.cn/api/coding/paas/v4"
  apiKey : String := ""
  port : ℤ := 9001
  taskId : String := ""
  sharedDir : String := ""

/-- The `shared_dir` of a worker that is given none. -/
def defaultSharedDir : String := "/workspace/artifacts"

/-- The process once `main` has set its globals. -/
def main (environ : Dict String String) (args : Args) : Process where
  globals
    | .agentRole => args.role
    | .model => args.model
    | .baseUrl => args.baseUrl
    | .apiKey => args.apiKey
    | .taskId => args.taskId
    | .sharedDir =>
        if args.sharedDir ≠ "" then args.sharedDir
        else (environ.get "SHARED_DIR").getD defaultSharedDir
  agentPort := args.port
  environ := if args.sharedDir ≠ "" then environ.set "SHARED_DIR" args.sharedDir else environ

/-- `X = _set(key, X)`. -/
def Process.set (cfg : Config) (p : Process) (x : Setting) : Process :=
  match cfg.get x.key with
  | none => { p with environ := p.environ.set x.envKey (p.globals x) }
  | some none => p
  | some (some text) =>
      { p with
        globals := Function.update p.globals x text
        environ := p.environ.set x.envKey text }

/-- `AGENT_PORT = int(_set("port", str(AGENT_PORT)))`, and whether `int` takes the text. -/
def Process.setPort (toInt : String → Option ℤ) (cfg : Config) (p : Process) : Bool × Process :=
  match cfg.get "port" with
  | none => (true, { p with environ := p.environ.set "PORT" (toString p.agentPort) })
  | some none => (true, p)
  | some (some text) =>
      let p := { p with environ := p.environ.set "PORT" text }
      match toInt text with
      | some port => (true, { p with agentPort := port })
      | none => (false, p)

/-- `os.environ["AGENT_SYSTEM_PROMPT"] = str(cfg["system_prompt"])`. -/
def Process.setPrompt (cfg : Config) (p : Process) : Process :=
  match cfg.get "system_prompt" with
  | none => p
  | some prompt => { p with environ := p.environ.set "AGENT_SYSTEM_PROMPT" (prompt.getD "None") }

/-- `reload_config` of a file that can be read, less the context, and whether it comes to its
end. -/
def reloadConfig (toInt : String → Option ℤ) (cfg : Config) (p : Process) : Bool × Process :=
  let p := [.agentRole, .model, .baseUrl, .apiKey].foldl (Process.set cfg) p
  match p.setPort toInt cfg with
  | (false, p) => (false, p)
  | (true, p) => (true, ([.taskId, .sharedDir].foldl (Process.set cfg) p).setPrompt cfg)

/-! ## Requests -/

/-- Where a request is. -/
inductive Pc where
  | waiting
  /-- Its handler has read the config, and then the body. -/
  | arrived
  /-- `int` has raised. -/
  | failed
  /-- `message/send` has made the record of the task. -/
  | opened
  /-- In the tool loop, of the handler or in the background. -/
  | running
  deriving DecidableEq

/-- A request, with its context variables, the file that it found, and the configs that
had been loaded once it had arrived. -/
structure Request where
  pc : Pc := .waiting
  vars : Setting → Option String := fun _ => none
  file : Option Config := none
  loads : List Config := []

/-- The worker.  `file` is `none` if it cannot be read, and `base` the context that every
request starts with. -/
structure Server where
  file : Option Config
  process : Process
  base : Setting → Option String
  requests : ℕ → Request
  /-- The configs loaded so far. -/
  loads : List Config

/-- The server once it has started. -/
def start (p : Process) (file : Option Config) : Server where
  file := file
  process := p
  base x := if x = .sharedDir then some (p.globals .sharedDir) else none
  requests _ := {}
  loads := []

/-- What happens next. -/
inductive Event where
  /-- The pool writes the file. -/
  | write (file : Option Config)
  | arrive (r : ℕ)
  | opens (r : ℕ)
  | runs (r : ℕ)
  | tool (r : ℕ)

/-- The server after request `r` has changed. -/
def Server.put (s : Server) (r : ℕ) (q : Request) : Server :=
  { s with requests := Function.update s.requests r q }

/-- Request `r` arrives. -/
def Server.arrive (toInt : String → Option ℤ) (s : Server) (r : ℕ) : Server :=
  match s.file with
  | none => s.put r { pc := .arrived, vars := s.base, file := none, loads := s.loads }
  | some cfg =>
      let loads := s.loads ++ [cfg]
      match reloadConfig toInt cfg s.process with
      | (true, p) =>
          { s with process := p, loads := loads }.put r {
            pc := .arrived, vars := fun x => some (p.globals x), file := some cfg, loads := loads }
      | (false, p) =>
          { s with process := p, loads := loads }.put r {
            pc := .failed, vars := s.base, file := some cfg, loads := loads }

/-- One step.  What a request takes from the server changes nothing there. -/
def step (toInt : String → Option ℤ) (s : Server) : Event → Option Server
  | .write file => some { s with file := file }
  | .arrive r => if (s.requests r).pc = .waiting then some (s.arrive toInt r) else none
  | .opens r =>
      if (s.requests r).pc = .arrived then some (s.put r { s.requests r with pc := .opened })
      else none
  | .runs r =>
      if (s.requests r).pc = .opened then some (s.put r { s.requests r with pc := .running })
      else none
  | .tool r => if (s.requests r).pc = .running then some s else none

/-! ## What an execution takes -/

/-- `SYSTEM_PROMPTS`, with its entry for `general-agent`. -/
structure SystemPrompts where
  table : Dict String String
  general : String
  general_eq : table.get "general-agent" = some general

/-- `resolve_prompt`, of the text in the environment. -/
def SystemPrompts.resolvePrompt (prompts : SystemPrompts) (injected : Option String)
    (role : String) : String :=
  match injected with
  | none => (prompts.table.get role).getD prompts.general
  | some text => if text ≠ "" then text else (prompts.table.get role).getD prompts.general

/-- `_get_context`. -/
def Server.getContext (s : Server) (r : ℕ) (x : Setting) : String :=
  ((s.requests r).vars x).getD (s.process.globals x)

/-- The `contextId` of the task. -/
def contextId (s : Server) (r : ℕ) : String := s.getContext r .taskId

/-- What `call_llm` starts the loop with. -/
structure LlmSettings where
  systemPrompt : String
  apiKey : String
  baseUrl : String
  model : String

/-- `call_llm`, up to the loop. -/
def callLlm (prompts : SystemPrompts) (s : Server) (r : ℕ) : LlmSettings where
  systemPrompt :=
    prompts.resolvePrompt (s.process.environ.get "AGENT_SYSTEM_PROMPT") (s.process.globals .agentRole)
  apiKey := s.getContext r .apiKey
  baseUrl := s.getContext r .baseUrl
  model := s.getContext r .model

/-- `role.split("-")[0]`. -/
def rolePrefix (role : String) : String := String.ofList (role.toList.takeWhile (· ≠ '-'))

/-- The `shared_dir` of a tool, by the context variable and the environment. -/
def sharedDirOf (shared env : String) : String :=
  if (shared = "" ∨ shared = defaultSharedDir) ∧ env ≠ "" then env else shared

/-- The directories of a tool: `role_dir` is the second in the first. -/
structure ToolDirs where
  sharedDir : String
  rolePrefix : String

/-- `execute_file_tool`, up to the tool.  The variable always has a value here, and without one
in the environment it stays. -/
def executeFileTool (s : Server) (r : ℕ) : ToolDirs where
  sharedDir :=
    sharedDirOf (s.getContext r .sharedDir) ((s.process.environ.get "SHARED_DIR").getD "")
  rolePrefix := rolePrefix (s.process.globals .agentRole)

/-! ## The property and the condition -/

/-- What a request should take for a setting: what the config in force at its arrival gives, or
what the process started with. -/
def own (boot : Process) (file : Option Config) (x : Setting) : String :=
  (file.bind fun cfg => (cfg.get x.key).join).getD (boot.globals x)

/-- The same for the prompt that is injected. -/
def ownPrompt (boot : Process) (file : Option Config) : Option String :=
  (file.bind fun cfg => (cfg.get "system_prompt").join).or (boot.environ.get "AGENT_SYSTEM_PROMPT")

/-- What is taken in the step is a function of the config in force when the request
arrived. -/
def Isolated (prompts : SystemPrompts) (boot : Process) (s : Server) : Event → Prop
  | .opens r => contextId s r = own boot (s.requests r).file .taskId
  | .runs r =>
      callLlm prompts s r = {
        systemPrompt := prompts.resolvePrompt (ownPrompt boot (s.requests r).file)
          (own boot (s.requests r).file .agentRole)
        apiKey := own boot (s.requests r).file .apiKey
        baseUrl := own boot (s.requests r).file .baseUrl
        model := own boot (s.requests r).file .model }
  | .tool r =>
      executeFileTool s r = {
        sharedDir := own boot (s.requests r).file .sharedDir
        rolePrefix := rolePrefix (own boot (s.requests r).file .agentRole) }
  | _ => True

/-- `int` does not take the port of the config. -/
def Config.portFails (toInt : String → Option ℤ) (cfg : Config) : Bool :=
  ((cfg.get "port").join).any fun text => (toInt text).isNone

/-- What a config that is loaded gives for a setting. -/
def Config.gives (toInt : String → Option ℤ) (x : Setting) (cfg : Config) : Option String :=
  if (x = .taskId ∨ x = .sharedDir) ∧ cfg.portFails toInt then none else (cfg.get x.key).join

/-- What it gives for the prompt; `null` gives a text as well. -/
def Config.givesPrompt (toInt : String → Option ℤ) (cfg : Config) : Option (Option String) :=
  if cfg.portFails toInt then none
  else (cfg.get "system_prompt").map fun prompt => some (prompt.getD "None")

/-- The value that the latest of the configs gives which gives one. -/
def latest {V : Type} (gives : Config → Option V) (default : V) (loads : List Config) : V :=
  loads.foldl (fun v cfg => (gives cfg).getD v) default

/-- The latest value of a setting. -/
def latestOf (toInt : String → Option ℤ) (boot : Process) (x : Setting) (loads : List Config) :
    String :=
  latest (Config.gives toInt x) (boot.globals x) loads

/-- The latest prompt. -/
def latestPrompt (toInt : String → Option ℤ) (boot : Process) (loads : List Config) :
    Option String :=
  latest (Config.givesPrompt toInt) (boot.environ.get "AGENT_SYSTEM_PROMPT") loads

/-- The configs that decide a context variable of a request: those loaded up to its arrival,
or, if it could not read the file, all of them, and for `shared_dir` none. -/
def decisive (s : Server) (r : ℕ) (x : Setting) : List Config :=
  if (s.requests r).file.isSome then (s.requests r).loads
  else if x = .sharedDir then [] else s.loads

/-- The latest values agree with the request's own: for the task id, the model and the
credentials among the configs that decide them; for the role and the prompt among all that
have been loaded by now; and for `shared_dir` among those that decide it, unless its latest
value is empty or the default and all that have been loaded give another. -/
def Undisturbed (toInt : String → Option ℤ) (prompts : SystemPrompts) (boot : Process) (s : Server) :
    Event → Prop
  | .opens r => (s.requests r).pc = .arrived →
      latestOf toInt boot .taskId (decisive s r .taskId) = own boot (s.requests r).file .taskId
  | .runs r => (s.requests r).pc = .opened →
      (∀ x, x = .apiKey ∨ x = .baseUrl ∨ x = .model →
        latestOf toInt boot x (decisive s r x) = own boot (s.requests r).file x) ∧
      prompts.resolvePrompt (latestPrompt toInt boot s.loads)
          (latestOf toInt boot .agentRole s.loads) =
        prompts.resolvePrompt (ownPrompt boot (s.requests r).file)
          (own boot (s.requests r).file .agentRole)
  | .tool r => (s.requests r).pc = .running →
      sharedDirOf (latestOf toInt boot .sharedDir (decisive s r .sharedDir))
          (latestOf toInt boot .sharedDir s.loads) = own boot (s.requests r).file .sharedDir ∧
      rolePrefix (latestOf toInt boot .agentRole s.loads) =
        rolePrefix (own boot (s.requests r).file .agentRole)
  | _ => True

variable {toInt : String → Option ℤ} {prompts : SystemPrompts} {cfg : Config} {p : Process}
  {s t : Server} {r : ℕ}

/-! ## The reload -/

theorem latest_concat {V : Type} (gives : Config → Option V) (default : V) (loads : List Config)
    (cfg : Config) :
    latest gives default (loads ++ [cfg]) = (gives cfg).getD (latest gives default loads) := by
  simp [latest]

theorem globals_set (cfg : Config) (p : Process) (x y : Setting) :
    (p.set cfg x).globals y =
      if y = x then ((cfg.get x.key).join).getD (p.globals x) else p.globals y := by
  rw [Process.set]
  split
  · rename_i hget
    rw [hget]
    split <;> simp [*]
  · rename_i hget
    rw [hget]
    split <;> simp [*]
  · rename_i text hget
    rw [hget]
    simp [Function.update_apply]

theorem environ_set (cfg : Config) (p : Process) (x : Setting) {k : String} (hk : k ≠ x.envKey) :
    (p.set cfg x).environ.get k = p.environ.get k := by
  rw [Process.set]
  split
  · exact Dict.get_set_of_ne _ _ hk
  · rfl
  · exact Dict.get_set_of_ne _ _ hk

/-- `SHARED_DIR` in the environment is the global, if it is there. -/
def Synced (p : Process) : Prop :=
  p.environ.get "SHARED_DIR" = some (p.globals .sharedDir) ∨
    p.environ.get "SHARED_DIR" = none ∧ p.globals .sharedDir = defaultSharedDir

theorem synced_set (h : Synced p) (x : Setting) : Synced (p.set cfg x) := by
  by_cases hx : x = .sharedDir
  · subst hx
    rw [Synced, Process.set]
    split
    · exact .inl (Dict.get_set_self _ _ _)
    · exact h
    · exact .inl (by simp [Setting.envKey])
  · have hk : "SHARED_DIR" ≠ x.envKey := by cases x <;> first | decide | exact absurd rfl hx
    rw [Synced, environ_set _ _ _ hk, globals_set, if_neg (Ne.symm hx)]
    exact h

/-- The port changes no other setting. -/
theorem setPort_spec (toInt : String → Option ℤ) (cfg : Config) (p : Process) :
    (p.setPort toInt cfg).1 = !cfg.portFails toInt ∧
      (p.setPort toInt cfg).2.globals = p.globals ∧
      ∀ k, k ≠ "PORT" → (p.setPort toInt cfg).2.environ.get k = p.environ.get k := by
  rw [Process.setPort, Config.portFails]
  split
  · rename_i hget
    simp +contextual [hget, Dict.get_set]
  · rename_i hget
    simp [hget]
  · rename_i text hget
    dsimp only
    split <;> rename_i hint <;> simp +contextual [hget, hint, Dict.get_set]

theorem setPrompt_spec (cfg : Config) (p : Process) :
    (p.setPrompt cfg).globals = p.globals ∧
      (p.setPrompt cfg).environ.get "AGENT_SYSTEM_PROMPT" =
        ((cfg.get "system_prompt").map fun prompt => some (prompt.getD "None")).getD
          (p.environ.get "AGENT_SYSTEM_PROMPT") ∧
      (p.setPrompt cfg).environ.get "SHARED_DIR" = p.environ.get "SHARED_DIR" := by
  rw [Process.setPrompt]
  split
  · rename_i hget
    simp [hget]
  · rename_i prompt hget
    simp [hget, Dict.get_set]

theorem globals_foldl_set (cfg : Config) (xs : List Setting) (p : Process) (y : Setting) :
    (xs.foldl (Process.set cfg) p).globals y =
      if y ∈ xs then ((cfg.get y.key).join).getD (p.globals y) else p.globals y := by
  induction xs generalizing p with
  | nil => simp
  | cons x xs ih =>
      rw [List.foldl_cons, ih, globals_set]
      by_cases hyx : y = x
      · subst hyx
        cases (cfg.get y.key).join <;> simp
      · simp [hyx]

theorem environ_foldl_set (cfg : Config) (xs : List Setting) (p : Process) {k : String}
    (hk : ∀ x ∈ xs, k ≠ x.envKey) :
    (xs.foldl (Process.set cfg) p).environ.get k = p.environ.get k := by
  induction xs generalizing p with
  | nil => rfl
  | cons x xs ih =>
      rw [List.foldl_cons, ih _ fun y hy => hk y (List.mem_cons_of_mem _ hy)]
      exact environ_set cfg p x (hk x List.mem_cons_self)

/-- What is in the environment stays there. -/
theorem unset_foldl_set (cfg : Config) (xs : List Setting) (p : Process) {k : String}
    (h : (xs.foldl (Process.set cfg) p).environ.get k = none) : p.environ.get k = none := by
  induction xs generalizing p with
  | nil => exact h
  | cons x xs ih =>
      have hset := ih _ h
      by_cases hk : k = x.envKey
      · subst hk
        rw [Process.set] at hset
        split at hset
        · simp at hset
        · exact hset
        · simp at hset
      · rwa [environ_set cfg p x hk] at hset

theorem synced_foldl_set (cfg : Config) (xs : List Setting) (h : Synced p) :
    Synced (xs.foldl (Process.set cfg) p) := by
  induction xs generalizing p with
  | nil => exact h
  | cons x xs ih => exact ih (synced_set h x)

/-- What a reload does: the globals and the prompt are what the config gives, and stay where it
gives nothing. -/
structure Reloaded (toInt : String → Option ℤ) (cfg : Config) (p q : Process) : Prop where
  globals : ∀ x, q.globals x = (cfg.gives toInt x).getD (p.globals x)
  prompt : q.environ.get "AGENT_SYSTEM_PROMPT" =
    (cfg.givesPrompt toInt).getD (p.environ.get "AGENT_SYSTEM_PROMPT")
  synced : Synced p → Synced q
  unset : q.environ.get "SHARED_DIR" = none → p.environ.get "SHARED_DIR" = none

/-- **A reload.** -/
theorem reloadConfig_spec (toInt : String → Option ℤ) (cfg : Config) (p : Process) :
    (reloadConfig toInt cfg p).1 = !cfg.portFails toInt ∧
      Reloaded toInt cfg p (reloadConfig toInt cfg p).2 := by
  have hfirst : ∀ k, k = "AGENT_SYSTEM_PROMPT" ∨ k = "SHARED_DIR" →
      ([.agentRole, .model, .baseUrl, .apiKey].foldl (Process.set cfg) p).environ.get k =
        p.environ.get k := by
    rintro k (rfl | rfl) <;> exact environ_foldl_set cfg _ p (by decide)
  obtain ⟨hfails, hglobals, henviron⟩ := setPort_spec toInt cfg
    ([.agentRole, .model, .baseUrl, .apiKey].foldl (Process.set cfg) p)
  have hshared := henviron "SHARED_DIR" (by decide)
  rw [hfirst _ (.inr rfl)] at hshared
  have hkept : Synced p → Synced (([.agentRole, .model, .baseUrl, .apiKey].foldl
      (Process.set cfg) p).setPort toInt cfg).2 := by
    intro h
    rw [Synced, hglobals, henviron _ (by decide)]
    exact synced_foldl_set cfg _ h
  rw [reloadConfig]
  cases hport : ([.agentRole, .model, .baseUrl, .apiKey].foldl (Process.set cfg) p).setPort toInt cfg
    with
  | mk ok q =>
      simp only [hport] at hfails hglobals henviron hkept hshared
      cases ok with
      | false =>
          have hfailed : cfg.portFails toInt = true := by simpa using hfails
          refine ⟨by simp [hfailed], ?_, ?_, hkept, fun h => by rwa [hshared] at h⟩
          · intro x
            rw [hglobals, globals_foldl_set, Config.gives]
            cases x <;> simp [hfailed]
          · rw [henviron _ (by decide), hfirst _ (.inl rfl), Config.givesPrompt]
            simp [hfailed]
      | true =>
          have hpassed : cfg.portFails toInt = false := by simpa using hfails
          obtain ⟨hsame, hprompt, hleft⟩ :=
            setPrompt_spec cfg ([.taskId, .sharedDir].foldl (Process.set cfg) q)
          refine ⟨by simp [hpassed], ?_, ?_, ?_, ?_⟩
          · intro x
            dsimp only
            rw [hsame, globals_foldl_set, hglobals, globals_foldl_set, Config.gives]
            cases x <;> simp [hpassed]
          · dsimp only
            rw [hprompt, environ_foldl_set cfg _ q (by decide), henviron _ (by decide),
              hfirst _ (.inl rfl), Config.givesPrompt]
            simp [hpassed]
          · intro h
            have hset := synced_foldl_set cfg [.taskId, .sharedDir] (hkept h)
            rw [Synced, hsame, hleft]
            exact hset
          · intro h
            rw [← hshared]
            exact unset_foldl_set cfg _ q (hleft.symm.trans h)

/-! ## Whole runs -/

/-- The request takes its settings. -/
def Request.Active (q : Request) : Prop := q.pc ≠ .waiting ∧ q.pc ≠ .failed

/-- What a request holds: the latest values at its arrival, the last config among them its own;
or, if it could not read the file, the context it started with. -/
structure Holds (toInt : String → Option ℤ) (boot p : Process) (base : Setting → Option String)
    (q : Request) : Prop where
  vars : q.vars =
    if q.file.isSome then fun x => some (latestOf toInt boot x q.loads) else base
  ends : ∀ cfg, q.file = some cfg →
    cfg.portFails toInt = false ∧ ∃ before, q.loads = before ++ [cfg]
  /-- Without `SHARED_DIR` in the environment there is no `shared_dir` but the default. -/
  unset : p.environ.get "SHARED_DIR" = none → q.vars .sharedDir = some defaultSharedDir

/-- What the process and the requests hold, by the configs that have been loaded. -/
structure Inv (toInt : String → Option ℤ) (boot : Process) (s : Server) : Prop where
  base : s.base = fun x => if x = .sharedDir then some (boot.globals .sharedDir) else none
  globals : ∀ x, s.process.globals x = latestOf toInt boot x s.loads
  prompt : s.process.environ.get "AGENT_SYSTEM_PROMPT" = latestPrompt toInt boot s.loads
  synced : Synced s.process
  unset : s.process.environ.get "SHARED_DIR" = none → boot.globals .sharedDir = defaultSharedDir
  requests : ∀ r, (s.requests r).Active → Holds toInt boot s.process s.base (s.requests r)

variable {boot : Process}

theorem Synced.default (h : Synced p) (hunset : p.environ.get "SHARED_DIR" = none) :
    p.globals .sharedDir = defaultSharedDir := by
  rcases h with hset | ⟨-, hdefault⟩
  · exact absurd (hset.symm.trans hunset) (by simp)
  · exact hdefault

theorem inv_start (h : Synced boot) (file : Option Config) : Inv toInt boot (start boot file) where
  base := rfl
  globals _ := rfl
  prompt := rfl
  synced := h
  unset := h.default
  requests _ hactive := absurd rfl hactive.1

/-- A request changes, and what it holds is right. -/
theorem inv_put (h : Inv toInt boot s) (r : ℕ) {q : Request}
    (hq : q.Active → Holds toInt boot s.process s.base q) : Inv toInt boot (s.put r q) where
  base := h.base
  globals := h.globals
  prompt := h.prompt
  synced := h.synced
  unset := h.unset
  requests j hactive := by
    by_cases hj : j = r
    · subst hj
      simp only [Server.put, Function.update_self] at hactive ⊢
      exact hq hactive
    · simp only [Server.put, Function.update_of_ne hj] at hactive ⊢
      exact h.requests j hactive

/-- A config is loaded. -/
theorem inv_load (h : Inv toInt boot s) {q : Process}
    (hload : Reloaded toInt cfg s.process q) :
    Inv toInt boot { s with process := q, loads := s.loads ++ [cfg] } where
  base := h.base
  globals x := by
    rw [hload.globals, h.globals, latestOf, latestOf, latest_concat]
  prompt := by
    rw [hload.prompt, h.prompt, latestPrompt, latestPrompt, latest_concat]
  synced := hload.synced h.synced
  unset hnone := h.unset (hload.unset hnone)
  requests r hactive := by
    obtain ⟨hvars, hends, hunset⟩ := h.requests r hactive
    exact ⟨hvars, hends, fun hnone => hunset (hload.unset hnone)⟩

theorem inv_arrive (h : Inv toInt boot s) (r : ℕ) : Inv toInt boot (s.arrive toInt r) := by
  rw [Server.arrive]
  split
  · refine inv_put h r fun _ => ⟨rfl, ?_, fun hnone => ?_⟩
    · intro cfg hcfg
      cases hcfg
    · simp [h.base, h.unset hnone]
  · rename_i cfg hfile
    obtain ⟨hpasses, hload⟩ := reloadConfig_spec toInt cfg s.process
    dsimp only
    split
    · rename_i q hreload
      rw [hreload] at hload hpasses
      have hloaded := inv_load h hload
      refine inv_put hloaded r fun _ => ⟨?_, ?_, ?_⟩
      · exact funext fun x => congrArg some (hloaded.globals x)
      · intro cfg' hfile'
        cases hfile'
        exact ⟨by simpa using hpasses, s.loads, rfl⟩
      · exact fun hnone => congrArg some (hloaded.synced.default hnone)
    · rename_i q hreload
      rw [hreload] at hload
      exact inv_put (inv_load h hload) r fun hactive => absurd rfl hactive.2

/-- A request goes on. -/
theorem inv_goto (h : Inv toInt boot s) (hactive : (s.requests r).Active) (pc : Pc) :
    Inv toInt boot (s.put r { s.requests r with pc := pc }) := by
  obtain ⟨hvars, hends, hunset⟩ := h.requests r hactive
  exact inv_put h r fun _ => ⟨hvars, hends, hunset⟩

/-- **One step.** -/
theorem inv_step {e : Event} (h : Inv toInt boot s) (hstep : step toInt s e = some t) :
    Inv toInt boot t := by
  cases e with
  | write file =>
      cases hstep
      exact ⟨h.base, h.globals, h.prompt, h.synced, h.unset, h.requests⟩
  | arrive r =>
      rw [step] at hstep
      split at hstep <;> cases hstep
      exact inv_arrive h r
  | opens r =>
      rw [step] at hstep
      split at hstep <;> cases hstep
      rename_i hpc
      exact inv_goto h (by simp [Request.Active, hpc]) _
  | runs r =>
      rw [step] at hstep
      split at hstep <;> cases hstep
      rename_i hpc
      exact inv_goto h (by simp [Request.Active, hpc]) _
  | tool r =>
      rw [step] at hstep
      split at hstep <;> cases hstep
      exact h

/-! ## What the executions take -/

/-- **A context variable.** -/
theorem Inv.getContext (h : Inv toInt boot s) (hactive : (s.requests r).Active) (x : Setting) :
    s.getContext r x = latestOf toInt boot x (decisive s r x) := by
  rw [Server.getContext, (h.requests r hactive).vars, decisive, h.globals]
  split
  · rfl
  · rw [h.base]
    by_cases hx : x = .sharedDir
    · subst hx
      rfl
    · simp [hx]

/-- **The directory of a tool.** -/
theorem Inv.sharedDir (h : Inv toInt boot s) (hactive : (s.requests r).Active) :
    (executeFileTool s r).sharedDir =
      sharedDirOf (latestOf toInt boot .sharedDir (decisive s r .sharedDir))
        (latestOf toInt boot .sharedDir s.loads) := by
  rw [executeFileTool, ← h.getContext hactive, ← h.globals]
  rcases h.synced with hset | ⟨hnone, hdefault⟩
  · rw [hset, Option.getD_some]
  · have hvar : s.getContext r .sharedDir = defaultSharedDir := by
      rw [Server.getContext, (h.requests r hactive).unset hnone, Option.getD_some]
    rw [hnone, Option.getD_none, hdefault, hvar]
    simp [sharedDirOf]

/-- **One step, exactly.** -/
theorem isolated_iff {e : Event} (h : Inv toInt boot s) (hstep : step toInt s e = some t) :
    Isolated prompts boot s e ↔ Undisturbed toInt prompts boot s e := by
  cases e with
  | write file => exact Iff.rfl
  | arrive r => exact Iff.rfl
  | opens r =>
      rw [step] at hstep
      split at hstep <;> cases hstep
      rename_i hpc
      have hactive : (s.requests r).Active := by simp [Request.Active, hpc]
      simp only [Isolated, Undisturbed, contextId, h.getContext hactive, hpc, forall_const]
  | runs r =>
      rw [step] at hstep
      split at hstep <;> cases hstep
      rename_i hpc
      have hactive : (s.requests r).Active := by simp [Request.Active, hpc]
      simp only [Isolated, Undisturbed, callLlm, LlmSettings.mk.injEq, h.getContext hactive,
        h.prompt, h.globals, hpc, forall_const]
      constructor
      · rintro ⟨hprompt, hkey, hurl, hmodel⟩
        refine ⟨?_, hprompt⟩
        rintro x (rfl | rfl | rfl)
        · exact hkey
        · exact hurl
        · exact hmodel
      · rintro ⟨hheld, hprompt⟩
        exact ⟨hprompt, hheld _ (.inl rfl), hheld _ (.inr (.inl rfl)), hheld _ (.inr (.inr rfl))⟩
  | tool r =>
      rw [step] at hstep
      split at hstep <;> cases hstep
      rename_i hpc
      have hdir := h.sharedDir (r := r) (by simp [Request.Active, hpc])
      have hrole : (executeFileTool s r).rolePrefix =
          rolePrefix (latestOf toInt boot .agentRole s.loads) := by
        rw [executeFileTool, h.globals]
      rw [Isolated, Undisturbed, ← hdir, ← hrole]
      simp only [hpc, forall_const]
      constructor
      · intro heq
        rw [heq]
        exact ⟨rfl, rfl⟩
      · rintro ⟨hdir, hrole⟩
        rw [← hdir, ← hrole]

/-- `main` leaves the environment in step with the global. -/
theorem synced_main (environ : Dict String String) (args : Args) : Synced (main environ args) := by
  by_cases hargs : args.sharedDir = ""
  · cases hget : environ.get "SHARED_DIR" with
    | none => exact .inr (by simp [main, hargs, hget])
    | some dir => exact .inl (by simp [main, hargs, hget])
  · exact .inl (by simp [main, hargs])

/-- **Worker requests do not interfere** in exactly the runs in which, whenever a request takes
a setting, the latest of the configs that decide it agrees with the request's own. -/
theorem isolated_iff_undisturbed (toInt : String → Option ℤ) (prompts : SystemPrompts)
    (environ : Dict String String) (args : Args) (file : Option Config) (events : List Event) :
    Run.Obeys (step toInt) (fun s e _ => Isolated prompts (main environ args) s e)
        (start (main environ args) file) events ↔
      Run.Along (step toInt) (Undisturbed toInt prompts (main environ args))
        (start (main environ args) file) events := by
  refine Run.obeys_iff_along (fun s e t => inv_step) (fun s e t => isolated_iff) ?_
    (inv_start (synced_main environ args) file)
  intro s e _ hstep
  cases e with
  | write file => simp [step] at hstep
  | arrive r => trivial
  | opens r =>
      intro hpc
      simp [step, hpc] at hstep
  | runs r =>
      intro hpc
      simp [step, hpc] at hstep
  | tool r =>
      intro hpc
      simp [step, hpc] at hstep

/-- A context variable that a request's own config gives is never disturbed. -/
theorem getContext_of_given (h : Inv toInt boot s) (hactive : (s.requests r).Active) {x : Setting}
    {text : String} (hfile : (s.requests r).file = some cfg)
    (hgiven : cfg.get x.key = some (some text)) : s.getContext r x = text := by
  obtain ⟨hport, before, hloads⟩ := (h.requests r hactive).ends cfg hfile
  rw [h.getContext hactive, decisive, hfile, hloads, latestOf, Option.isSome_some, if_pos rfl,
    latest_concat, Config.gives, hport]
  simp [hgiven]

/-- **The model, the credentials and the task id.**  A request whose config gives one of them
finds it in its context in every run. -/
theorem context_isolated (toInt : String → Option ℤ) (environ : Dict String String) (args : Args)
    (file : Option Config) (events : List Event) :
    Run.Throughout (step toInt)
      (fun s => ∀ r cfg x text, (s.requests r).Active → (s.requests r).file = some cfg →
        cfg.get x.key = some (some text) → s.getContext r x = text)
      (start (main environ args) file) events := by
  have hinv : Run.Throughout (step toInt) (Inv toInt (main environ args))
      (start (main environ args) file) events :=
    Run.throughout_of_preserved (fun s e t => inv_step) (inv_start (synced_main environ args) file)
      events
  refine hinv.mono ?_
  intro s h r cfg x text hactive hfile hgiven
  exact getContext_of_given h hactive hfile hgiven

/-! ## A role without a prompt -/

/-- What the pool writes for a role, with the prompt of its card if there is one, less the
fields that a worker does not read. -/
def checkoutConfig (role : String) (prompt : Option String) : Config :=
  [("task_id", some "t1"), ("agent_role", some role), ("model", some "glm-4.7"),
    ("base_url", some "https://open.bigmodel.cn/api/coding/paas/v4"), ("api_key", some "k1"),
    ("port", some "9001"), ("shared_dir", some "/workspace/tenants/default/tasks/t1")] ++
    (prompt.map fun text => ("system_prompt", some text)).toList

/-- The prompts of two of the built-in roles. -/
def twoPrompts : SystemPrompts where
  table := [("frontend-ux-pro", "frontend"), ("general-agent", "general")]
  general := "general"
  general_eq := rfl

/-- The first request has a role with a prompt of its own, the second, after it, a role
without one: it runs with the prompt of the first. -/
theorem prompt_of_earlier_request :
    ¬ Run.Obeys (step fun text => if text = "9001" then some 9001 else none)
        (fun s e _ => Isolated twoPrompts (main [] {}) s e) (start (main [] {}) none)
        [.write (some (checkoutConfig "data-analyst" (some "You analyse data."))), .arrive 0,
          .write (some (checkoutConfig "frontend-ux-pro" none)), .arrive 1, .opens 1, .runs 1] := by
  intro h
  have hruns := h
    [.write (some (checkoutConfig "data-analyst" (some "You analyse data."))), .arrive 0,
      .write (some (checkoutConfig "frontend-ux-pro" none)), .arrive 1, .opens 1] (.runs 1) [] rfl
    _ _ rfl rfl
  exact absurd (congrArg LlmSettings.systemPrompt hruns) (by decide)

end Settings
end Worker
end AgentSwarm
