import AgentSwarm.Lib.Path
import AgentSwarm.TaskManager.Manager

/-!
# Reading artifacts

Two readers serve the files of a task: the route `read_artifact`, and the tool
`read_artifacts` of the orchestrator.  Both join a path to the work directory;
the route then checks that the result lies in it, and the tool does not.

* `Node`, `FileSystem` — the files, and where the system leads a path to.
* `readArtifact` — the route.
* `Reader`, `getArtifactsDir`, `toolReadArtifacts` — the tool.
* `Confined` — the tool gives the content of a file only where the route would,
  and the route only gives what is in the work directory.
* `confined_iff` — **main result**: this holds of a path exactly when whatever
  it makes the tool read is a regular file in the work directory of the task.
* `leadsInside_of_downward` — as a relative path without `..` does, when no name
  on the way is a link.
-/

namespace AgentSwarm
namespace Artifacts

open AgentSwarm.Path (PurePath Location)
open Tasks (TaskManager)

/-- What there is at a place.  A file that is not regular is a device, a pipe or
a socket; `text` is what `read_text` gives or raises. -/
inductive Node where
  | directory
  | file (regular : Bool) (text : Except String String)

namespace Node

/-- `p.is_file()`, from what is found under `p`. -/
def isFile : Option Node → Bool
  | some (.file regular _) => regular
  | _ => false

/-- `p.read_text(…)`, from what is found under `p`. -/
def readText : Option Node → Except String String
  | some (.file _ text) => text
  | some .directory => .error "Is a directory"
  | none => .error "No such file or directory"

/-- There is a file that can be read. -/
def Readable (found : Option Node) : Prop := ∃ content, readText found = .ok content

theorem isSome_of_readText {found : Option Node} {content : String}
    (h : readText found = .ok content) : found.isSome = true := by
  cases found with
  | none => cases h
  | some n => rfl

end Node

/-- The files of the host.  `resolve` is `p.resolve()`, which follows the links
and the `..` of a path; `reaches` tells whether every directory on the way is
there, so that a system call on the path comes to the same place. -/
structure FileSystem where
  resolve : PurePath → Location
  reaches : PurePath → Bool
  node : Location → Option Node

namespace FileSystem

variable (fs : FileSystem)

/-- What a system call finds under a path. -/
def lookUp (p : PurePath) : Option Node := if fs.reaches p then fs.node (fs.resolve p) else none

/-- `p.resolve().relative_to(dir.resolve())` does not raise. -/
def inside (p dir : PurePath) : Bool := (fs.resolve dir).names.isPrefixOf (fs.resolve p).names

theorem lookUp_of_readable {p : PurePath} (h : Node.Readable (fs.lookUp p)) :
    fs.lookUp p = fs.node (fs.resolve p) := by
  unfold lookUp at h ⊢
  split
  · rfl
  · rename_i hreach
    rw [if_neg hreach] at h
    obtain ⟨content, hcontent⟩ := h
    cases hcontent

end FileSystem

/-- A work directory as a path. -/
def ofDir (dir : Tasks.Path) : PurePath := .ofString dir.str

/-! ## The route -/

/-- An answer of the route that is an error: its status and its detail. -/
structure HTTPException where
  status : ℕ
  detail : String
  deriving DecidableEq

/-- `read_artifact`, less the name and the size in its answer. -/
def readArtifact (fs : FileSystem) (m : TaskManager) (taskId filePath : String) :
    Except HTTPException String :=
  match (m.getTask taskId).1 with
  | none => .error ⟨404, "Task not found"⟩
  | some task =>
      match task.workDir with
      | none => .error ⟨404, "Task has no work directory"⟩
      | some workDir =>
          let full := (ofDir workDir).join filePath
          if fs.inside full (ofDir workDir) then
            let found := fs.node (fs.resolve full)
            if found.isSome && Node.isFile found then
              match Node.readText found with
              | .ok content => .ok content
              | .error e => .error ⟨500, e⟩
            else .error ⟨404, "File not found: " ++ filePath⟩
          else .error ⟨400, "Invalid file path"⟩

/-! ## The tool -/

/-- What the tool reads of its orchestrator. -/
structure Reader where
  taskManager : Option TaskManager
  currentTaskId : String
  currentSessionWorkDir : Option Tasks.Path

/-- `_get_artifacts_dir`: the task's directory, or else the session's. -/
def Reader.getArtifactsDir (o : Reader) : Option Tasks.Path :=
  match o.taskManager.bind (·.getArtifactsDir o.currentTaskId) with
  | some dir => some dir
  | none => o.currentSessionWorkDir

/-- `content[:5000] + "\n... (截断)"`, for a content that is longer. -/
def truncate (content : String) : String :=
  if 5000 < content.length then
    String.ofList (content.toList.take 5000) ++ "\n... (截断)"
  else content

/-- `_tool_read_artifacts`.  The content of a file is an `ok`; the notices that
are not are an `error`. -/
def toolReadArtifacts (fs : FileSystem) (o : Reader) (filePath : String) : Except String String :=
  match o.taskManager with
  | none => .error "错误：TaskManager 未初始化"
  | some _ =>
      match o.getArtifactsDir with
      | none => .error "错误：未找到任务工作目录"
      | some artifactsDir =>
          let found := fs.lookUp ((ofDir artifactsDir).join filePath)
          if found.isSome then
            match Node.readText found with
            | .ok content => .ok (truncate content)
            | .error e => .error ("读取文件失败: " ++ e)
          else .error ("文件不存在: " ++ filePath)

/-! ## The property and the condition -/

/-- The route answers with the content of a file. -/
def Accepts (fs : FileSystem) (m : TaskManager) (taskId filePath : String) : Prop :=
  ∃ content, readArtifact fs m taskId filePath = .ok content

/-- The work directory that the route finds for a task. -/
def workDirOf (m : TaskManager) (taskId : String) : Option Tasks.Path :=
  (m.getTask taskId).1.bind Tasks.Task.workDir

/-- The path leads from the directory to a place in it. -/
def Within (fs : FileSystem) (dir : Tasks.Path) (filePath : String) : Prop :=
  (fs.resolve (ofDir dir)).names <+: (fs.resolve ((ofDir dir).join filePath)).names

/-- **Reads are confined.**  Where the tool gives the content of a file, so does
the route for the same task and path; and the route gives nothing that is not in
the work directory. -/
def Confined (fs : FileSystem) (o : Reader) (filePath : String) : Prop :=
  (∀ content, toolReadArtifacts fs o filePath = .ok content →
      ∃ m, o.taskManager = some m ∧ Accepts fs m o.currentTaskId filePath) ∧
    ∀ m taskId, Accepts fs m taskId filePath →
      ∃ dir, workDirOf m taskId = some dir ∧ Within fs dir filePath

/-- The condition on a path: if it leads from the artifacts directory to a file
that can be read, then it leads from the work directory of the task to a regular
file in it that can be read. -/
def LeadsInside (fs : FileSystem) (o : Reader) (filePath : String) : Prop :=
  ∀ m dir, o.taskManager = some m → o.getArtifactsDir = some dir →
    Node.Readable (fs.lookUp ((ofDir dir).join filePath)) →
      ∃ workDir, workDirOf m o.currentTaskId = some workDir ∧ Within fs workDir filePath ∧
        Node.isFile (fs.node (fs.resolve ((ofDir workDir).join filePath))) = true ∧
        Node.Readable (fs.node (fs.resolve ((ofDir workDir).join filePath)))

variable {fs : FileSystem} {o : Reader} {m : TaskManager} {taskId filePath : String}

/-! ## What each reader gives -/

/-- **What the route gives**: a regular file that leads inside. -/
theorem accepts_iff :
    Accepts fs m taskId filePath ↔
      ∃ workDir, workDirOf m taskId = some workDir ∧ Within fs workDir filePath ∧
        Node.isFile (fs.node (fs.resolve ((ofDir workDir).join filePath))) = true ∧
        Node.Readable (fs.node (fs.resolve ((ofDir workDir).join filePath))) := by
  unfold Accepts readArtifact workDirOf
  cases htask : (m.getTask taskId).1 with
  | none => simp
  | some task =>
    dsimp only
    cases hdir : task.workDir with
    | none => simp [hdir]
    | some workDir =>
      simp only [Option.bind_some, hdir, Option.some.injEq, exists_eq_left', Within,
        FileSystem.inside, List.isPrefixOf_iff_prefix]
      generalize fs.node (fs.resolve ((ofDir workDir).join filePath)) = found
      split
      · rename_i hin
        cases hread : Node.readText found with
        | error e => cases hfile : found.isSome && Node.isFile found <;> simp [Node.Readable, hread]
        | ok content =>
          have hsome := Node.isSome_of_readText hread
          cases hfile : Node.isFile found <;> simp [Node.Readable, hread, hin, hsome]
      · rename_i hin
        simp [hin]

/-- **What the tool gives**: whatever can be read. -/
theorem toolReadArtifacts_iff :
    (∃ content, toolReadArtifacts fs o filePath = .ok content) ↔
      ∃ m dir, o.taskManager = some m ∧ o.getArtifactsDir = some dir ∧
        Node.Readable (fs.lookUp ((ofDir dir).join filePath)) := by
  unfold toolReadArtifacts
  cases o.taskManager with
  | none => simp
  | some m =>
    cases o.getArtifactsDir with
    | none => simp
    | some dir =>
      simp only [Option.some.injEq, exists_eq_left', exists_and_left]
      generalize fs.lookUp ((ofDir dir).join filePath) = found
      cases hread : Node.readText found with
      | error e => cases found <;> simp [Node.Readable, hread]
      | ok content => simp [Node.Readable, hread, Node.isSome_of_readText hread]

/-- **Confinement.**  A path is confined exactly when whatever it makes the tool
read is a regular file in the work directory of the task. -/
theorem confined_iff (fs : FileSystem) (o : Reader) (filePath : String) :
    Confined fs o filePath ↔ LeadsInside fs o filePath := by
  constructor
  · rintro ⟨htool, -⟩ m dir hm hdir hread
    obtain ⟨content, hcontent⟩ := toolReadArtifacts_iff.2 ⟨m, dir, hm, hdir, hread⟩
    obtain ⟨m', hm', haccepts⟩ := htool content hcontent
    obtain rfl : m = m' := by
      rw [hm] at hm'
      cases hm'
      rfl
    exact accepts_iff.1 haccepts
  · intro hleads
    constructor
    · intro content hcontent
      obtain ⟨m, dir, hm, hdir, hread⟩ := toolReadArtifacts_iff.1 ⟨content, hcontent⟩
      exact ⟨m, hm, accepts_iff.2 (hleads m dir hm hdir hread)⟩
    · intro m taskId haccepts
      obtain ⟨workDir, hdir, hwithin, -⟩ := accepts_iff.1 haccepts
      exact ⟨workDir, hdir, hwithin⟩

/-- **A relative path without `..` is fine**, in the task's own directory and
where no name on the way is a link. -/
theorem leadsInside_of_downward {cwd : Location} (hlinks : ∀ p, fs.resolve p = Path.resolve cwd p)
    (hregular : ∀ l, Node.Readable (fs.node l) → Node.isFile (fs.node l) = true)
    (hm : o.taskManager = some m) (hown : (m.getArtifactsDir o.currentTaskId).isSome)
    (hrel : (PurePath.ofString filePath).absolute = false)
    (hdown : ∀ c ∈ (PurePath.ofString filePath).parts, c ≠ "..") : LeadsInside fs o filePath := by
  intro m' dir hm' hdir hread
  obtain rfl : m = m' := by
    rw [hm] at hm'
    cases hm'
    rfl
  obtain ⟨own, hown⟩ := Option.isSome_iff_exists.1 hown
  obtain rfl : own = dir := by simpa [Reader.getArtifactsDir, hm, hown] using hdir
  have hnode := fs.lookUp_of_readable hread
  rw [hnode] at hread
  refine ⟨own, ?_, ?_, hregular _ hread, hread⟩
  · obtain ⟨task, htask, hwork⟩ := Option.bind_eq_some_iff.1 hown
    simp [workDirOf, TaskManager.getTask, htask, hwork]
  · rw [Within, hlinks, hlinks, PurePath.join, Path.resolve_append_downward cwd _ hrel hdown]
    exact List.prefix_append _ _

/-! ## A path that climbs -/

/-- A host with one file, the database. -/
def dbHost : FileSystem :=
  let node : Location → Option Node := fun l =>
    if l.names = ["srv", "shared_output", "swarm.db"] then
      some (.file true (.ok "the rows of every tenant"))
    else none
  { resolve := Path.resolve ⟨["app"], by decide⟩
    reaches := fun p => (node (Path.resolve ⟨["app"], by decide⟩ p)).isSome
    node := node }

/-- A task of one session. -/
def oneTask : TaskManager where
  sharedOutputBase := ⟨"/srv/shared_output", by decide⟩
  tasks := [("t1", {
    taskId := "t1", tenantId := "acme", userMessage := "build", createdAt := 0
    workDir := some ⟨"/srv/shared_output/tenants/acme/sessions/s1", by decide⟩ })]
  store := []

/-- The orchestrator at work on it. -/
def atWork : Reader where
  taskManager := some oneTask
  currentTaskId := "t1"
  currentSessionWorkDir := none

/-- **The tool reads the database**, which the route refuses. -/
theorem climbing_not_confined : ¬Confined dbHost atWork "../../../../swarm.db" := by
  rintro ⟨htool, -⟩
  obtain ⟨m, hm, content, hcontent⟩ := htool "the rows of every tenant" (by decide +kernel)
  obtain rfl : oneTask = m := Option.some.inj hm
  have hrefused : readArtifact dbHost oneTask "t1" "../../../../swarm.db" =
      .error ⟨400, "Invalid file path"⟩ := by decide +kernel
  cases hrefused.symm.trans hcontent

end Artifacts
end AgentSwarm
