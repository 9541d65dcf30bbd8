import Mathlib.Data.Prod.Basic
import AgentSwarm.Lib.Run
import AgentSwarm.Worker.WritePaths

/-!
# What a worker writes, it and the others read

The file tools of all workers of a task work on one tree, each below the directory of its role,
and read all of it.  What `write_file` has written is read with its line ends made plain, and
cut.

* `Disk`, `Disk.host` — the tree as the tools see it.
* `newlines` — how `read_text` reads line ends.
* `Spares`, `Overwrites` — a change that leaves the file where it is, and a call that does not.
* `Kept` — the invariant: the path leads to the file, which has the text.
* `read_back` — **what has been written is read back**, by the worker and by every other one,
  until a call overwrites it.
-/

namespace AgentSwarm
namespace FileTools

open AgentSwarm.Path (PurePath Location)
open FileTree (Extends)
open Worker.Settings (ToolDirs)

/-! ## The disk -/

/-- What is open about the system: the paths it refuses, what a walk finds, and commands. -/
structure Disk where
  refuses : PurePath → Option Exn
  walk : FileTree → PurePath → Except Exn (List (List String))
  run : List String → PurePath → Eff FileTree Exn String

/-- What there is at the end of a path. -/
def lookUp (t : FileTree) (cwd : Location) (p : PurePath) : Option FileTree.Entry :=
  (t.place cwd.names p).bind t.entry

/-- Line ends as `read_text` gives them. -/
def newlines : List Char → List Char
  | [] => []
  | '\r' :: '\n' :: text => '\n' :: newlines text
  | '\r' :: text => '\n' :: newlines text
  | c :: text => c :: newlines text

/-- The calls that look at the tree.  A path that is refused is not there, unless that is an
error of the system. -/
def Disk.reading (d : Disk) (cwd : Location) : Host FileTree where
  mkdir _ := pure ()
  writeText _ _ := pure ()
  isThere p t :=
    match d.refuses p with
    | some (.osError e) => (.error (.osError e), t)
    | some _ => (.ok false, t)
    | none => (.ok (lookUp t cwd p).isSome, t)
  readText p t :=
    match d.refuses p with
    | some e => (.error e, t)
    | none =>
        match lookUp t cwd p with
        | some (.file text) => (.ok (String.ofList (newlines text.toList)), t)
        | _ => (.error (.osError p.str), t)
  files p t := (d.walk t p, t)
  run := d.run

/-- All calls. -/
def Disk.host (d : Disk) (cwd : Location) : Host FileTree :=
  treeHost d.refuses cwd (d.reading cwd)

/-! ## Calls -/

/-- A call of a tool by a worker. -/
structure ToolCall where
  dirs : ToolDirs
  name : String
  args : Json

/-- The tree after a call. -/
def Disk.call (d : Disk) (cwd : Location) (t : FileTree) (c : ToolCall) : FileTree :=
  (executeFileTool c.dirs (d.host cwd) c.name c.args t).2

/-- What `write_file` answers when it has written. -/
def writtenAnswer (path text : String) : String :=
  "Written to " ++ path ++ " (" ++ toString text.length ++ " bytes)"

/-- The call of one worker after the other. -/
def Disk.step (d : Disk) (cwd : Location) (t : FileTree) (c : ToolCall) : Option FileTree :=
  some (d.call cwd t c)

/-- The path leads where it led, to what was there, and the directories of the worker and of its
role are still there. -/
structure Spares (cwd : Location) (dirs : ToolDirs) (target : PurePath) (t t' : FileTree) :
    Prop where
  home : t.IsDir cwd.names → t'.IsDir cwd.names
  role : ∀ dir, t.place cwd.names (roleDir dirs) = some dir → t.IsDir dir →
    t'.place cwd.names (roleDir dirs) = some dir ∧ t'.IsDir dir
  target : ∀ names, t.place cwd.names target = some names →
    t'.place cwd.names target = some names ∧ t'.content names = t.content names

/-- The call overwrites the file: it writes where the path leads, or it runs a command that does
not spare it. -/
def ToolCall.Overwrites (d : Disk) (cwd : Location) (dirs : ToolDirs) (target : PurePath)
    (t : FileTree) (c : ToolCall) : Prop :=
  (c.name = "write_file" ∧ ∃ path names, textField c.args "path" = some path ∧
    t.leads cwd.names (resolvePath c.dirs path) = some names ∧
    t.place cwd.names target = some names) ∨
  (c.name = "run_command" ∧ ¬ Spares cwd dirs target t (d.call cwd t c))

/-- The path leads to the file, which has the text, and the directories of the worker and of its
role are there. -/
structure Kept (cwd : Location) (dirs : ToolDirs) (target : PurePath) (names : List String)
    (text : String) (t : FileTree) : Prop where
  home : t.IsDir cwd.names
  role : ∃ dir, t.place cwd.names (roleDir dirs) = some dir ∧ t.IsDir dir
  place : t.place cwd.names target = some names
  content : t.content names = some text

variable {d : Disk} {cwd : Location} {dirs : ToolDirs} {path text : String} {args : Json}
  {t t' later : FileTree} {target : PurePath} {names : List String}

/-! ## What a call leaves -/

theorem Kept.of_spares (h : Kept cwd dirs target names text t)
    (hspares : Spares cwd dirs target t t') : Kept cwd dirs target names text t' := by
  obtain ⟨dir, hplace, hdir⟩ := h.role
  obtain ⟨hsame, hcontent⟩ := hspares.target names h.place
  exact ⟨hspares.home h.home, ⟨dir, hspares.role dir hplace hdir⟩, hsame, hcontent.trans h.content⟩

/-- A change that loses no directory, keeps the links and does not write to the file. -/
theorem spares_of_extends (hext : Extends t t')
    (hcontent : ∀ names, t.place cwd.names target = some names → t'.content names = t.content names) :
    Spares cwd dirs target t t' where
  home := hext.dirs _
  role := fun dir hplace hdir => ⟨hext.place hplace, hext.dirs dir hdir⟩
  target := fun names hplace => ⟨hext.place hplace, hcontent names hplace⟩

theorem reads_isThere (p : PurePath) : Eff.Reads ((d.host cwd).isThere p) := by
  intro t
  simp only [Disk.host, treeHost, Disk.reading]
  split <;> rfl

theorem reads_readText (p : PurePath) : Eff.Reads ((d.host cwd).readText p) := by
  intro t
  simp only [Disk.host, treeHost, Disk.reading]
  split
  · rfl
  · split <;> rfl

theorem reads_listBelow (target : PurePath) (name : String) :
    Eff.Reads (listBelow dirs (d.host cwd) target name) := by
  refine Eff.reads_bind (reads_isThere target) fun there => ?_
  split
  · refine Eff.reads_bind (fun _ => rfl) fun found => ?_
    exact Eff.reads_bind (Eff.reads_ofExcept _) fun files => Eff.reads_pure _
  · exact Eff.reads_pure _

theorem reads_readBelow (target : PurePath) (answer : String) :
    Eff.Reads (do
      let there ← (d.host cwd).isThere target
      if there then do
        let content ← (d.host cwd).readText target
        pure (cut content)
      else pure answer) := by
  refine Eff.reads_bind (reads_isThere target) fun there => ?_
  split
  · exact Eff.reads_bind (reads_readText target) fun content => Eff.reads_pure _
  · exact Eff.reads_pure _

/-- The tools that read change nothing, and neither does a command that only looks around. -/
theorem reads_runTool {name : String} (hwrite : name ≠ "write_file")
    (hrun : name = "run_command" → ∀ command p, Eff.Reads (d.run command p)) (args : Json) :
    Eff.Reads (runTool dirs (d.host cwd) name args) := by
  unfold runTool
  rw [if_neg hwrite]
  split
  · refine Eff.reads_catching (Eff.reads_bind (Eff.reads_ofExcept _) fun value => ?_) _
    exact Eff.reads_bind (Eff.reads_ofExcept _) fun target => reads_readBelow target _
  · split
    · refine Eff.reads_catching (Eff.reads_bind (Eff.reads_ofExcept _) fun value => ?_) _
      exact Eff.reads_bind (Eff.reads_ofExcept _) fun target => reads_listBelow target _
    · split
      · rename_i hname
        refine Eff.reads_catching (Eff.reads_bind (Eff.reads_ofExcept _) fun value => ?_) _
        refine Eff.reads_bind (Eff.reads_ofExcept _) fun command => ?_
        exact Eff.reads_bind (hrun hname command _) fun output => Eff.reads_pure _
      · split
        · refine Eff.reads_catching (Eff.reads_bind (Eff.reads_ofExcept _) fun value => ?_) _
          exact Eff.reads_bind (Eff.reads_ofExcept _) fun target => reads_readBelow target _
        · split
          · refine Eff.reads_catching (Eff.reads_bind (Eff.reads_ofExcept _) fun value => ?_) _
            exact Eff.reads_bind (Eff.reads_ofExcept _) fun target => reads_listBelow target _
          · exact Eff.reads_pure _

/-- A call of `write_file` loses no directory and keeps the links. -/
theorem written_extends {refuses : PurePath → Option Exn} {other : Host FileTree}
    (hcwd : t.IsDir cwd.names) : Extends t (written refuses cwd other dirs args t) := by
  have hrole := (mkdir_extends refuses cwd other t (roleDir dirs)).1
  rw [written, writeFile_leaves]
  rcases hmade : (treeHost refuses cwd other).mkdir (roleDir dirs) t with ⟨e | u, t₁⟩ <;>
    rw [hmade] at hrole
  · exact hrole
  · cases hpath : textField args "path" with
    | none => exact hrole
    | some path =>
        have hboth := hrole.trans
          (mkdir_extends refuses cwd other t₁ (parent (resolvePath dirs path))).1
        dsimp only
        rcases hmade' : (treeHost refuses cwd other).mkdir (parent (resolvePath dirs path)) t₁ with
          ⟨e | u', t₂⟩ <;> rw [hmade'] at hboth
        · exact hboth
        · cases htext : textField args "content" with
          | none => exact hboth
          | some text =>
              dsimp only
              rcases hput : (treeHost refuses cwd other).writeText (resolvePath dirs path) text t₂
                with ⟨e | u'', t₃⟩
              · obtain rfl := writeText_error hput
                exact hboth
              · obtain ⟨names, hplace, hwrite⟩ :=
                  Option.bind_eq_some_iff.1 (writeText_ok_iff.1 hput).2
                have hlink := (FileTree.place_spec (hboth.dirs _ hcwd) hplace).2
                exact hboth.trans (FileTree.write_extends hwrite hlink)

/-- A tool that changes nothing, after the directory of the role has been made. -/
theorem spares_of_reads {c : ToolCall} (h : Eff.Reads (runTool c.dirs (d.host cwd) c.name c.args)) :
    Spares cwd dirs target t (d.call cwd t c) := by
  obtain ⟨hrole, hcontent⟩ := mkdir_extends d.refuses cwd (d.reading cwd) t (roleDir c.dirs)
  rw [← Disk.host] at hrole hcontent
  rw [Disk.call, executeFileTool, Eff.bind_snd]
  rcases hmade : (d.host cwd).mkdir (roleDir c.dirs) t with ⟨e | u, t₁⟩ <;>
    rw [hmade] at hrole hcontent
  · exact spares_of_extends hrole fun n _ => hcontent n
  · dsimp only
    rw [h]
    exact spares_of_extends hrole fun n _ => hcontent n

/-- **One call** that does not overwrite the file. -/
theorem kept_call {c : ToolCall} (h : Kept cwd dirs target names text t)
    (hkeep : ¬ c.Overwrites d cwd dirs target t) :
    Kept cwd dirs target names text (d.call cwd t c) := by
  by_cases hrun : c.name = "run_command"
  · exact h.of_spares (not_not.1 fun hnot => hkeep (.inr ⟨hrun, hnot⟩))
  · refine h.of_spares ?_
    by_cases hwrite : c.name = "write_file"
    · rw [Disk.call, hwrite]
      refine spares_of_extends (written_extends h.home) fun n hn => ?_
      refine (written_content n).resolve_right ?_
      rintro ⟨path, text, hpath, -, hopens, -⟩
      exact hkeep (.inl ⟨hwrite, path, n, hpath, hopens.leads, hn⟩)
    · exact spares_of_reads (reads_runTool hwrite (fun h => absurd h hrun) c.args)

/-- **Many calls.** -/
theorem kept_calls {calls : List ToolCall} (h : Kept cwd dirs target names text t)
    (hkeep : Run.Along (d.step cwd) (fun t c => ¬ c.Overwrites d cwd dirs target t) t calls)
    (hrun : Run.exec (d.step cwd) t calls = some later) :
    Kept cwd dirs target names text later := by
  refine Run.exec_invariant (I := Kept cwd dirs target names text) ?_ h hkeep hrun
  intro t c t' hkept hnot hstep
  obtain rfl := Option.some.inj hstep
  exact kept_call hkept hnot

/-! ## The write -/

theorem error_ne_written (path text e : String) :
    "Error writing " ++ path ++ ": " ++ e ≠ writtenAnswer path text := by
  intro h
  have hhead : ("Error writing " ++ path ++ ": " ++ e).toList.head? =
      ("Written to " ++ path ++ " (" ++ toString text.length ++ " bytes)").toList.head? :=
    congrArg (fun s => s.toList.head?) h
  simp at hhead

theorem item_of_textField {key : String} (h : textField args key = some text) :
    item args key = .ok (.str text) := by
  rw [textField] at h
  cases args with
  | obj fields =>
      rw [item]
      rw [field] at h
      cases hget : Dict.get fields key with
      | none =>
          rw [hget] at h
          cases h
      | some value =>
          rw [hget] at h
          cases value with
          | str found =>
              cases h
              rfl
          | _ => cases h
  | _ => cases h

theorem writeFile_eq {W : Type} (host : Host W) (hpath : textField args "path" = some path)
    (htext : textField args "content" = some text) :
    writeFile dirs host args = Eff.catching (do
      host.mkdir (parent (resolvePath dirs path))
      host.writeText (resolvePath dirs path) text
      pure (writtenAnswer path text))
      (onOSError fun e => "Error writing " ++ path ++ ": " ++ e) := by
  rw [writeFile, item_of_textField hpath, item_of_textField htext]
  rfl

/-- An exception in `write_file` does not become the answer that it has written. -/
theorem caught_ne_written {W : Type} {x : Eff W Exn String} {e : Exn} {w w₁ w' : W}
    (h : x w = (.error e, w₁)) :
    Eff.catching x (onOSError fun e => "Error writing " ++ path ++ ": " ++ e) w ≠
      (.ok (writtenAnswer path text), w') := by
  rw [Eff.catching_error h]
  intro hwritten
  cases e with
  | osError error =>
      exact error_ne_written path text error (Except.ok.inj (congrArg Prod.fst hwritten))
  | _ => cases hwritten

/-- When the tool answers that it has written, its three calls have returned. -/
theorem writeFile_ok {W : Type} {host : Host W} {w w' : W}
    (hpath : textField args "path" = some path) (htext : textField args "content" = some text)
    (h : executeFileTool dirs host "write_file" args w = (.ok (writtenAnswer path text), w')) :
    ∃ w₁ w₂, host.mkdir (roleDir dirs) w = (.ok (), w₁) ∧
      host.mkdir (parent (resolvePath dirs path)) w₁ = (.ok (), w₂) ∧
      host.writeText (resolvePath dirs path) text w₂ = (.ok (), w') := by
  rw [executeFileTool] at h
  rcases hrole : host.mkdir (roleDir dirs) w with ⟨e | u, w₁⟩
  · rw [Eff.bind_error hrole] at h
    cases h
  · rw [Eff.bind_ok hrole] at h
    have hwrite : writeFile dirs host args w₁ = (.ok (writtenAnswer path text), w') := h
    rw [writeFile_eq host hpath htext] at hwrite
    rcases hparent : host.mkdir (parent (resolvePath dirs path)) w₁ with ⟨e | u', w₂⟩
    · exact absurd hwrite (caught_ne_written (Eff.bind_error hparent))
    · rcases hput : host.writeText (resolvePath dirs path) text w₂ with ⟨e | u'', w₃⟩
      · exact absurd hwrite
          (caught_ne_written ((Eff.bind_ok hparent).trans (Eff.bind_error hput)))
      · rw [Eff.catching_ok ((Eff.bind_ok hparent).trans (Eff.bind_ok hput))] at hwrite
        obtain rfl : w₃ = w' := congrArg Prod.snd hwrite
        exact ⟨w₁, w₂, rfl, hparent, hput⟩

/-- **What has been written is kept**, and no path on its way is refused. -/
theorem kept_of_write (hcwd : t.IsDir cwd.names) (hpath : textField args "path" = some path)
    (htext : textField args "content" = some text)
    (h : executeFileTool dirs (d.host cwd) "write_file" args t =
      (.ok (writtenAnswer path text), t')) :
    d.refuses (roleDir dirs) = none ∧ d.refuses (resolvePath dirs path) = none ∧
      ∃ names, Kept cwd dirs (resolvePath dirs path) names text t' := by
  obtain ⟨t₁, t₂, hrole, hparent, hput⟩ := writeFile_ok hpath htext h
  obtain ⟨hrefuses, hmade⟩ := mkdir_ok_iff.1 hrole
  obtain ⟨hrefuses', hwrite⟩ := writeText_ok_iff.1 hput
  obtain ⟨names, hplace, hwritten⟩ := Option.bind_eq_some_iff.1 hwrite
  obtain ⟨dir, hdirPlace, hdir⟩ := FileTree.place_of_mkdirs hcwd hmade
  have hext₁ : Extends t t₁ := by
    have hext := (FileTree.mkdirs_extends t cwd.names (roleDir dirs)).1
    rwa [hmade] at hext
  have hext₂ : Extends t₁ t₂ := by
    have hext := (FileTree.mkdirs_extends t₁ cwd.names (parent (resolvePath dirs path))).1
    rwa [(mkdir_ok_iff.1 hparent).2] at hext
  have hcwd₂ : t₂.IsDir cwd.names := hext₂.dirs _ (hext₁.dirs _ hcwd)
  have hext₃ : Extends t₂ t' :=
    FileTree.write_extends hwritten (FileTree.place_spec hcwd₂ hplace).2
  have hlater := hext₂.trans hext₃
  refine ⟨hrefuses, hrefuses', names, hext₃.dirs _ hcwd₂, ⟨dir, hlater.place hdirPlace, ?_⟩,
    hext₃.place hplace, ?_⟩
  · exact hlater.dirs dir hdir
  · rw [FileTree.write_content hwritten, if_pos rfl]

/-! ## Reading -/

theorem Kept.lookUp_eq (h : Kept cwd dirs target names text t) :
    lookUp t cwd target = some (.file text) := by
  rw [lookUp, h.place, Option.bind_some]
  exact FileTree.entry_of_content h.content

/-- The system finds it there. -/
theorem Kept.found (h : Kept cwd dirs target names text t) (hrefuses : d.refuses target = none) :
    (d.host cwd).isThere target t = (.ok true, t) ∧
      (d.host cwd).readText target t = (.ok (String.ofList (newlines text.toList)), t) := by
  simp [Disk.host, treeHost, Disk.reading, hrefuses, h.lookUp_eq]

end FileTools
end AgentSwarm
