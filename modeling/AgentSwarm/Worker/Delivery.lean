import AgentSwarm.ContainerPool.Checkout
import AgentSwarm.Orchestrator.Finalize
import AgentSwarm.Orchestrator.ReadArtifacts
import AgentSwarm.Worker.FileRoundTrip

/-!
# What a worker writes reaches its session

The worker of a dispatch writes below the folder that its config names, in its container.  On the
host that is the folder of the session, where the orchestrator reads, reviews, and serves.

* `Mounted` — a directory of the container is one of the host.
* `files`, `Walks` — the files of the host, as the readers and the review see them.
* `OfSession` — the dispatch is one of a session, with ids that are names.
* `delivered` — **what the worker has written, the orchestrator reads**, serves, and counts in its
  review, under the name that the other workers have for it.
-/

namespace AgentSwarm
namespace Delivery

open AgentSwarm.Path (PurePath Location Plain)
open Artifacts (FileSystem Node Reader ofDir readArtifact toolReadArtifacts truncate workDirOf)
open Checkout (Call Card AtWork containerPort containerSharedDir)
open FileTools (Disk ToolCall Kept newlines sharedName textField writtenAnswer)
open Orchestrator.Finalize (Look HasFile)
open ParallelDispatch (firstWord)
open Worker.Settings (Server executeFileTool)

/-! ## The host -/

/-- The directory `there` of the container is `here` on the host. -/
def Mounted (host : FileTree) (here : List String) (container : FileTree) (there : List String) :
    Prop :=
  ∀ names, container.entry (there ++ names) = host.entry (here ++ names)

/-- What a reader finds; the files of the tree are regular ones.  A path is resolved first, so a
link is never at its end. -/
def found : Option FileTree.Entry → Option Node
  | some .dir => some .directory
  | some (.file text) => some (.file true (.ok (String.ofList (newlines text.toList))))
  | _ => none

/-- `p.resolve()`, links followed; a path with too many of them is left as it is. -/
def resolved (t : FileTree) (cwd : Location) (p : PurePath) : Location :=
  match h : t.follow FileTree.maxLinks (FileTree.start cwd.names p) p.parts with
  | some r => ⟨r.1, FileTree.plain_follow (FileTree.plain_start cwd.plain p) p.ok h⟩
  | none => Path.resolve cwd p

/-- The files of a tree. -/
def files (t : FileTree) (cwd : Location) : FileSystem where
  resolve := resolved t cwd
  reaches p := (t.place cwd.names p).isSome
  node l := found (t.entry l.names)

/-- The walk of the review finds every file below a path, with its size. -/
def Walks (look : Look) (t : FileTree) (cwd : Location) : Prop :=
  ∀ p names text, (files t cwd).reaches p → names ≠ [] →
    t.content ((resolved t cwd p).names ++ names) = some text →
      ∃ found, look p = some found ∧ ⟨names, true, text.utf8ByteSize⟩ ∈ found

/-- The dispatch has the work directory of a session as its folder; the ids of the session are
names, and so is the role. -/
structure OfSession (base : String) (call : Call) (workDir : Tasks.Path) : Prop where
  override : call.sharedDirOverride = some workDir.str
  folder : ∃ tenantId sessionId, Plain tenantId ∧ Plain sessionId ∧
    workDir.str = (WorkDirs.sessionDir (.ofString base) tenantId sessionId).str
  role : Plain (firstWord call.agentCardId)

variable {base : String} {cards : List Card} {call : Call} {toInt : String → Option ℤ}
  {s : Server} {r : ℕ} {workDir : Tasks.Path} {d : Disk} {cwd hostCwd : Location}
  {path text : String} {args : Json} {t t' host : FileTree} {p : PurePath}

/-! ## Files of the host -/

/-- A path that is found is resolved to where it is found. -/
theorem names_resolved {names : List String} (h : t.place cwd.names p = some names) :
    (resolved t cwd p).names = names := by
  obtain ⟨r, hfollow, rfl⟩ := Option.map_eq_some_iff.1 (FileTree.leads_of_place h)
  unfold resolved
  split
  · rename_i r' hr
    exact congrArg Prod.fst (Option.some.inj (hr.symm.trans hfollow))
  · rename_i hnone
    cases hnone.symm.trans hfollow

/-- A reader finds the text. -/
theorem lookUp_file {names : List String} (hplace : t.place cwd.names p = some names)
    (h : t.entry names = some (.file text)) :
    (files t cwd).lookUp p = some (.file true (.ok (String.ofList (newlines text.toList)))) ∧
      (files t cwd).node ((files t cwd).resolve p) =
        some (.file true (.ok (String.ofList (newlines text.toList)))) := by
  have hreach : (files t cwd).reaches p = true := by
    show (t.place cwd.names p).isSome = true
    rw [hplace]
    rfl
  have hnode : (files t cwd).node ((files t cwd).resolve p) =
      some (.file true (.ok (String.ofList (newlines text.toList)))) := by
    show found (t.entry (resolved t cwd p).names) = _
    rw [names_resolved hplace, h]
    rfl
  exact ⟨by rw [FileSystem.lookUp, if_pos hreach, hnode], hnode⟩

/-- The file is inside of a directory that is above it. -/
theorem inside_of_place {q : PurePath} {names dir : List String}
    (hplace : t.place cwd.names p = some names) (hdir : t.place cwd.names q = some dir)
    (h : dir <+: names) : (files t cwd).inside p q = true := by
  show (resolved t cwd q).names.isPrefixOf (resolved t cwd p).names = true
  rwa [names_resolved hplace, names_resolved hdir, List.isPrefixOf_iff_prefix]

/-- The review finds it below a directory that is above it. -/
theorem found_of_walks {look : Look} {dir names : List String} (hwalks : Walks look t cwd)
    (hdir : t.place cwd.names p = some dir) (hne : names ≠ [])
    (h : t.entry (dir ++ names) = some (.file text)) :
    ∃ found, look p = some found ∧ ⟨names, true, text.utf8ByteSize⟩ ∈ found := by
  have hreaches : (files t cwd).reaches p = true := by
    show (t.place cwd.names p).isSome = true
    rw [hdir]
    rfl
  refine hwalks p names text hreaches hne ?_
  rw [names_resolved hdir]
  exact FileTree.content_of_entry h

/-- The orchestrator reads it. -/
theorem toolReadArtifacts_of_lookUp {fs : FileSystem} {o : Reader} {m : Tasks.TaskManager}
    {name content : String} (hm : o.taskManager = some m) (hdir : o.getArtifactsDir = some workDir)
    (h : fs.lookUp ((ofDir workDir).join name) = some (.file true (.ok content))) :
    toolReadArtifacts fs o name = .ok (truncate content) := by
  simp [toolReadArtifacts, hm, hdir, h, Node.readText]

/-- The route serves it. -/
theorem readArtifact_of_node {fs : FileSystem} {m : Tasks.TaskManager} {taskId name content : String}
    (hdir : workDirOf m taskId = some workDir)
    (hin : fs.inside ((ofDir workDir).join name) (ofDir workDir) = true)
    (h : fs.node (fs.resolve ((ofDir workDir).join name)) = some (.file true (.ok content))) :
    readArtifact fs m taskId name = .ok content := by
  obtain ⟨task, htask, hwork⟩ := Option.bind_eq_some_iff.1 hdir
  simp [readArtifact, htask, hwork, hin, h, Node.isFile, Node.readText]

/-! ## The folder on both sides -/

/-- The folder of the dispatch is at the same names below the shared output, on the host and in
the container. -/
theorem OfSession.part (h : OfSession base call workDir) :
    ∃ part : PurePath, part.absolute = false ∧ (∀ c ∈ part.parts, c ≠ "..") ∧
      PurePath.ofString (Checkout.sharedDir base call) =
        (PurePath.ofString containerSharedDir).append part ∧
      ofDir workDir = (PurePath.ofString base).append part := by
  obtain ⟨tenantId, sessionId, ht, hs, hfolder⟩ := h.folder
  refine ⟨Checkout.sessionPart tenantId sessionId ht hs, rfl, ?_, ?_, ?_⟩
  · intro c hc
    simp only [Checkout.sessionPart, List.mem_cons, List.not_mem_nil, or_false] at hc
    rcases hc with rfl | rfl | rfl | rfl
    · decide
    · exact ht.2
    · decide
    · exact hs.2
  · exact Checkout.sharedDir_session ht hs (hfolder ▸ h.override)
  · rw [ofDir, hfolder, PurePath.ofString_str, Checkout.sessionDir_eq _ ht hs]

/-- **What is kept in the container is on the host**, under the name below the folder, when no
name on its way in the container is a link. -/
theorem entry_of_kept {dirs : Worker.Settings.ToolDirs} {names here : List String}
    {part : PurePath} (hpart : part.absolute = false) (hpartDown : ∀ c ∈ part.parts, c ≠ "..")
    (hshared : FileTools.sharedPath dirs = (PurePath.ofString containerSharedDir).append part)
    (hrole : Plain dirs.rolePrefix) (hdown : ∀ c ∈ Path.components path, c ≠ "..")
    (hkept : Kept cwd dirs (FileTools.resolvePath dirs path) names text t)
    (hlinks : ∀ n, n <+: (FileTools.resolvePath dirs path).parts → t.link n = none)
    (hmounted : Mounted host here t ["workspace", "artifacts"]) :
    ∃ rest, rest ≠ [] ∧ (∀ c ∈ rest, c ≠ "..") ∧
      (PurePath.ofString (sharedName dirs path)).absolute = false ∧
      (PurePath.ofString (sharedName dirs path)).parts = dirs.rolePrefix :: rest ∧
      host.entry (here ++ (part.parts ++ dirs.rolePrefix :: rest)) = some (.file text) := by
  obtain ⟨rest, hrel, hparts, hrest⟩ := FileTools.sharedName_parts hrole hdown
  have hbase : (PurePath.ofString containerSharedDir).parts = ["workspace", "artifacts"] := by
    decide +kernel
  obtain ⟨hsharedRoot, hsharedParts⟩ :=
    (PurePath.ofString containerSharedDir).append_of_relative hpart
  obtain ⟨hroot, htarget⟩ := (FileTools.sharedPath dirs).append_of_relative hrel
  rw [← PurePath.join, FileTools.join_sharedName path hrole.1.exists_ne_slash] at hroot htarget
  rw [hshared, hsharedParts, hbase, hparts, List.append_assoc] at htarget
  have habs : (FileTools.resolvePath dirs path).absolute = true := by
    rw [PurePath.absolute, hroot, hshared, hsharedRoot]
    decide +kernel
  have htargetDown : ∀ c ∈ (FileTools.resolvePath dirs path).parts, c ≠ ".." := by
    rw [htarget]
    exact List.forall_mem_append.2 ⟨by decide,
      List.forall_mem_append.2 ⟨hpartDown, List.forall_mem_cons.2 ⟨hrole.2, hrest⟩⟩⟩
  obtain rfl : (FileTools.resolvePath dirs path).parts = names := Option.some.inj
    ((FileTree.leads_of_down habs htargetDown hlinks).symm.trans
      (FileTree.leads_of_place hkept.place))
  have hentry := FileTree.entry_of_content hkept.content
  refine ⟨rest, ?_, hrest, hrel, hparts, ?_⟩
  · rintro rfl
    -- then the path is that of the directory of the role
    obtain ⟨dir, hdirPlace, hdir⟩ := hkept.role
    obtain ⟨hroleRel, hroleParts⟩ := PurePath.ofString_of_part hrole.1
    have hsame : FileTools.roleDir dirs = FileTools.resolvePath dirs path := by
      obtain ⟨hroleRoot, hroleDir⟩ := (FileTools.sharedPath dirs).append_of_relative hroleRel
      refine PurePath.ext (hroleRoot.trans hroot.symm) (hroleDir.trans ?_)
      rw [htarget, hshared, hsharedParts, hbase, hroleParts, List.append_assoc]
    rw [hsame, hkept.place] at hdirPlace
    obtain rfl := Option.some.inj hdirPlace
    exact absurd (hentry.symm.trans hdir) (by simp)
  · rw [← hmounted, ← htarget]
    exact hentry

/-- The folder, the directory of the role and the file are found on the host. -/
theorem places_on_host {here cs : List String} {part : PurePath} {role name c : String}
    (hfolder : ofDir workDir = (PurePath.ofString base).append part)
    (hpart : part.absolute = false) (hpartDown : ∀ c ∈ part.parts, c ≠ "..") (hrole : Plain role)
    (hrel : (PurePath.ofString name).absolute = false)
    (hparts : (PurePath.ofString name).parts = role :: c :: cs) (hrest : ∀ d ∈ c :: cs, d ≠ "..")
    (hhost : host.place hostCwd.names (.ofString base) = some here)
    (hentry : host.entry (here ++ (part.parts ++ role :: c :: cs)) = some (.file text)) :
    host.place hostCwd.names (ofDir workDir) = some (here ++ part.parts) ∧
      host.place hostCwd.names ((ofDir workDir).join role) =
        some (here ++ part.parts ++ [role]) ∧
      host.place hostCwd.names ((ofDir workDir).join name) =
        some (here ++ (part.parts ++ role :: c :: cs)) := by
  have hsome : host.entry (here ++ (part.parts ++ role :: c :: cs)) ≠ none := by
    rw [hentry]
    exact Option.some_ne_none _
  have hdirHere : host.IsDir here := by
    obtain ⟨x, xs, hx⟩ := List.exists_cons_of_ne_nil (l := part.parts ++ role :: c :: cs) (by simp)
    rw [hx] at hsome
    exact FileTree.isDir_of_entry hsome
  have hdirFolder : host.IsDir (here ++ part.parts) := by
    rw [← List.append_assoc] at hsome
    exact FileTree.isDir_of_entry hsome
  have hdirRole : host.IsDir (here ++ part.parts ++ [role]) := by
    have hassoc : here ++ (part.parts ++ role :: c :: cs) =
        here ++ part.parts ++ [role] ++ c :: cs := by simp
    rw [hassoc] at hsome
    exact FileTree.isDir_of_entry hsome
  have hplaceFolder : host.place hostCwd.names (ofDir workDir) = some (here ++ part.parts) := by
    rw [hfolder]
    exact FileTree.place_append hhost hdirHere hpart hpartDown
      (by rw [hdirFolder]; exact Option.some_ne_none _) hdirFolder.link_eq_none
  obtain ⟨hroleRel, hroleParts⟩ := PurePath.ofString_of_part hrole.1
  refine ⟨hplaceFolder, ?_, ?_⟩
  · rw [← hroleParts] at hdirRole ⊢
    exact FileTree.place_append hplaceFolder hdirFolder hroleRel
      (hroleParts ▸ List.forall_mem_singleton.2 hrole.2)
      (by rw [hdirRole]; exact Option.some_ne_none _) hdirRole.link_eq_none
  · rw [← hparts, ← List.append_assoc] at hentry hsome ⊢
    exact FileTree.place_append hplaceFolder hdirFolder hrel
      (hparts ▸ List.forall_mem_cons.2 ⟨hrole.2, hrest⟩) hsome (by rw [FileTree.link, hentry])

/-! ## The delivery -/

/-- **What the worker has written is delivered.**  When `write_file` has answered that it has
written, by a path without `..`, then after any calls of any workers that do not overwrite the
file, and if no name on its way is a link then, the orchestrator reads it below the folder of the
session, the route serves it for each task of the session, and the role passes the review unless
the text is empty. -/
theorem delivered {here : List String} (hport : (toInt containerPort).isSome)
    (hwork : AtWork toInt base cards call s r)
    (hlast : s.loads.getLast? = some (Checkout.config base cards call))
    (hsession : OfSession base call workDir)
    (hdown : ∀ c ∈ Path.components path, c ≠ "..") (hcwd : t.IsDir cwd.names)
    (hpath : textField args "path" = some path) (htext : textField args "content" = some text)
    (hwritten : FileTools.executeFileTool (executeFileTool s r) (d.host cwd) "write_file" args t =
      (.ok (writtenAnswer path text), t'))
    (calls : List ToolCall)
    (hkeep : Run.Along (d.step cwd) (fun t c => ¬ c.Overwrites d cwd (executeFileTool s r)
      (FileTools.resolvePath (executeFileTool s r) path) t) t' calls)
    (hrun : Run.exec (d.step cwd) t' calls = some later)
    (hlinks : ∀ names, names <+: (FileTools.resolvePath (executeFileTool s r) path).parts →
      later.link names = none)
    (hhost : host.place hostCwd.names (.ofString base) = some here)
    (hmounted : Mounted host here later ["workspace", "artifacts"]) :
    let name := sharedName (executeFileTool s r) path
    let content := String.ofList (newlines text.toList)
    (∀ (o : Reader) m, o.taskManager = some m → o.getArtifactsDir = some workDir →
        toolReadArtifacts (files host hostCwd) o name = .ok (truncate content)) ∧
      (∀ m taskId, workDirOf m taskId = some workDir →
        readArtifact (files host hostCwd) m taskId name = .ok content) ∧
      (text ≠ "" → ∀ look, Walks look host hostCwd →
        HasFile look (ofDir workDir) call.agentCardId) := by
  have hdirs := Checkout.dirs_taken hport hwork hlast
  obtain ⟨-, -, names, hkept⟩ := FileTools.kept_of_write hcwd hpath htext hwritten
  replace hkept := FileTools.kept_calls hkept hkeep hrun
  rw [hdirs] at hkept hlinks ⊢
  obtain ⟨part, hpart, hpartDown, hcontainer, hfolder⟩ := hsession.part
  have hshared : FileTools.sharedPath
      { sharedDir := Checkout.sharedDir base call
        rolePrefix := Worker.Settings.rolePrefix call.agentCardId } =
      (PurePath.ofString containerSharedDir).append part := hcontainer
  obtain ⟨rest, hne, hrest, hrel, hparts, hentry⟩ :=
    entry_of_kept hpart hpartDown hshared hsession.role hdown hkept hlinks hmounted
  intro name content
  obtain ⟨c, cs, rfl⟩ := List.exists_cons_of_ne_nil hne
  obtain ⟨hplaceFolder, hplaceRole, hplace⟩ := places_on_host hfolder hpart hpartDown hsession.role
    hrel hparts hrest hhost hentry
  obtain ⟨hlookUp, hnode⟩ := lookUp_file hplace hentry
  refine ⟨fun o m hm hdir => ?_, fun m taskId hdir => ?_, fun hfull look hwalks => ?_⟩
  · exact toolReadArtifacts_of_lookUp hm hdir hlookUp
  · refine readArtifact_of_node hdir (inside_of_place hplace hplaceFolder ?_) hnode
    rw [← List.append_assoc]
    exact List.prefix_append _ _
  · rw [← List.append_assoc, List.append_cons] at hentry
    obtain ⟨below, hfound, hmem⟩ := found_of_walks hwalks hplaceRole hne hentry
    exact ⟨below, hfound, _, hmem, rfl, Nat.pos_of_ne_zero (by simpa using hfull)⟩

/-- A `frontend` of a session writes its first file, and the orchestrator reads it. -/
theorem app_delivered :
    let base := "/workspace/artifacts"
    let workDir : Tasks.Path := ⟨"/workspace/artifacts/tenants/acme/sessions/s1", by decide⟩
    let call : Call := { Checkout.frontendCall with sharedDirOverride := some workDir.str }
    let disk : Disk :=
      { refuses := fun _ => none, walk := fun _ _ => .ok [], run := fun _ _ => pure "" }
    let cwd : Location := { names := ["app"], plain := by decide }
    let args : Json := .obj [("path", .str "src/app.py"), ("content", .str "x")]
    let orchestrator : Reader :=
      { taskManager := some { sharedOutputBase := ⟨base, by decide⟩, tasks := [], store := [] },
        currentTaskId := "t1", currentSessionWorkDir := some workDir }
    ∃ s t', AtWork Checkout.readPort base [] call s 0 ∧
      FileTools.executeFileTool (executeFileTool s 0) (disk.host cwd) "write_file" args
        (.bare ["app"]) = (.ok (writtenAnswer "src/app.py" "x"), t') ∧
      toolReadArtifacts (files t' cwd) orchestrator "frontend/src/app.py" = .ok "x" := by
  intro base workDir call disk cwd args orchestrator
  obtain ⟨s, hwork, hlast⟩ : ∃ s, AtWork Checkout.readPort base [] call s 0 ∧
      s.loads.getLast? = some (Checkout.config base [] call) :=
    ⟨_, @Checkout.atWork_first base call _ rfl rfl rfl, rfl⟩
  have hsession : OfSession base call workDir :=
    ⟨rfl, ⟨"acme", "s1", by decide, by decide, by decide +kernel⟩, by decide⟩
  have hdirs := Checkout.dirs_taken rfl hwork hlast
  have hcwd : (FileTree.bare ["app"]).IsDir cwd.names := FileTree.isDir_bare.2 (List.prefix_refl _)
  have hname : sharedName (executeFileTool s 0) "src/app.py" = "frontend/src/app.py" := by
    rw [hdirs]
    decide +kernel
  obtain ⟨t', hwritten, hhost, hlinks⟩ : ∃ t',
      FileTools.executeFileTool (executeFileTool s 0) (disk.host cwd)
        "write_file" args (.bare ["app"]) = (.ok (writtenAnswer "src/app.py" "x"), t') ∧
      t'.place cwd.names (.ofString base) = some ["workspace", "artifacts"] ∧
      ∀ names, names <+: (FileTools.resolvePath (executeFileTool s 0) "src/app.py").parts →
        t'.link names = none := by
    rw [hdirs]
    refine ⟨_, Prod.fst_eq_iff.1 (by decide +kernel), by decide +kernel, fun names hnames => ?_⟩
    have hall : ∀ names ∈ (FileTools.resolvePath
        { sharedDir := Checkout.sharedDir base call
          rolePrefix := Worker.Settings.rolePrefix call.agentCardId } "src/app.py").parts.inits,
        FileTree.link (FileTools.executeFileTool
          { sharedDir := Checkout.sharedDir base call
            rolePrefix := Worker.Settings.rolePrefix call.agentCardId } (disk.host cwd)
          "write_file" args (.bare ["app"])).2 names = none := by decide +kernel
    exact hall names ((List.mem_inits _ _).2 hnames)
  refine ⟨s, t', hwork, hwritten, ?_⟩
  have hdelivered := delivered rfl hwork hlast hsession (by decide +kernel) hcwd rfl rfl hwritten []
    trivial rfl hlinks hhost (fun _ => rfl)
  have hread := hdelivered.1 orchestrator _ rfl rfl
  rw [hname] at hread
  exact hread.trans (by decide +kernel)

end Delivery
end AgentSwarm
