import AgentSwarm.Worker.AgentLoop
import AgentSwarm.Worker.FileTools

/-!
# Bad tool calls

The loop of a worker runs `execute_file_tool` on whatever the LLM sends for arguments, and a
tool that raises ends the loop and with it the task.

* `Harmless` — no tool has ended the run, and every call is answered.
* `Fits` — the calls of a file tool that do not raise: an object with the fields the tool
  reads, of the types it takes, and no error of the system but those it takes.
* `executeFileTool_returns_iff` — a call returns exactly when it fits.
* `harmless_iff` — **a run is harmless exactly when every call it comes to fits**.
* `missing_path_aborts` — `write_file` without a path, or with arguments that are not JSON.
-/

namespace AgentSwarm
namespace FileTools

open Adapters (truthy)
open AgentSwarm.Path (PurePath)
open AgentLoop (Chat Failure InOrder RunFits runAgentLoop)
open Orchestrator (Completion Loaded)
open Worker.Settings (ToolDirs)

/-! ## The property -/

/-- No tool has ended the run, and each response of its messages is followed by the answers to
its calls. -/
structure Harmless {W : Type} (run : Except (Failure Exn) String × Chat W) : Prop where
  not_by_tool : ∀ e, run.1 ≠ .error (.tool e)
  answered : InOrder run.2.messages

/-! ## The condition -/

/-- The value of a field, of an object that has it. -/
def field (args : Json) (key : String) : Option Json :=
  match args with
  | .obj fields => Dict.get fields key
  | _ => none

/-- The text of a field, of an object that has it with a text. -/
def textField (args : Json) (key : String) : Option String :=
  match field args key with
  | some (.str text) => some text
  | _ => none

/-- The directory to list: the field may be missing, and a value that is not true stands for
the whole. -/
def listed (whole : PurePath) (place : String → PurePath) : Json → Option PurePath
  | .obj fields =>
      match (Dict.get fields "path").getD (.str "") with
      | .str path => some (if path = "" then whole else place path)
      | value => if truthy value then none else some whole
  | _ => none

/-- A text, a list of texts or an object. -/
def runnable (args : Json) : Option (List String) :=
  (field args "command").bind fun value => (commandArgs value).toOption

/-- An error of the system. -/
def Exn.IsOSError (e : Exn) : Prop := ∃ text, e = .osError text

/-- An error of the system, or of a subprocess. -/
def Exn.IsCommandError (e : Exn) : Prop :=
  e.IsOSError ∨ ∃ text, e = .subprocessError text

variable {W : Type}

/-- The call raises nothing but errors of the system, and is followed by what `next` asks
for. -/
def OrOSError {α : Type} (x : Eff W Exn α) (w : W) (next : α → W → Prop) : Prop :=
  x.Leads w next fun e _ => e.IsOSError

variable (dirs : ToolDirs) (host : Host W)

/-- `write_file`: the content is looked at once the directory is there. -/
def WriteFits (args : Json) (w : W) : Prop :=
  ∃ path, textField args "path" = some path ∧
    OrOSError (host.mkdir (parent (resolvePath dirs path))) w fun _ w =>
      ∃ text, textField args "content" = some text ∧
        OrOSError (host.writeText (resolvePath dirs path) text) w fun _ _ => True

/-- `read_file` and `read_shared_file`. -/
def ReadFits (place : String → PurePath) (args : Json) (w : W) : Prop :=
  ∃ path, textField args "path" = some path ∧
    OrOSError (host.isThere (place path)) w fun there w =>
      there = true → OrOSError (host.readText (place path)) w fun _ _ => True

/-- `list_directory` and `list_shared`: what is found has to be below the shared directory, by
its path. -/
def ListFits (whole : PurePath) (place : String → PurePath) (args : Json) (w : W) : Prop :=
  ∃ target, listed whole place args = some target ∧
    OrOSError (host.isThere target) w fun there w =>
      there = true → OrOSError (host.files target) w fun found _ =>
        ∀ names ∈ found, target.root = (sharedPath dirs).root ∧
          (sharedPath dirs).parts <+: target.parts ++ names

/-- `run_command`. -/
def RunCommandFits (args : Json) (w : W) : Prop :=
  ∃ command, runnable args = some command ∧
    (host.run command (roleDir dirs)).Leads w (fun _ _ => True) fun e _ => e.IsCommandError

/-- The tool of a name; a name that is not known needs nothing. -/
def ToolFits (name : String) (args : Json) (w : W) : Prop :=
  if name = "write_file" then WriteFits dirs host args w
  else if name = "read_file" then ReadFits host (resolvePath dirs) args w
  else if name = "list_directory" then
    ListFits dirs host (roleDir dirs) (resolvePath dirs) args w
  else if name = "run_command" then RunCommandFits dirs host args w
  else if name = "read_shared_file" then ReadFits host (sharedPath dirs).join args w
  else if name = "list_shared" then
    ListFits dirs host (sharedPath dirs) (sharedPath dirs).join args w
  else True

/-- A call fits: the directory of the role is there or can be made, and the arguments are what
the tool takes. -/
def Fits (name : String) (args : Json) (w : W) : Prop :=
  (host.mkdir (roleDir dirs)).Leads w (fun _ w => ToolFits dirs host name args w) fun _ _ => False

/-! ## Each tool -/

/-- A `try` whose clause takes the errors of the system returns exactly when its body raises
nothing else. -/
theorem returns_onOSError_iff (x : Eff W Exn String) (answer : String → String) (w : W) :
    (Eff.catching x (onOSError answer)).Returns w ↔ OrOSError x w fun _ _ => True := by
  rw [Eff.Returns, Eff.leads_catching, OrOSError]
  constructor <;> intro h <;> refine h.mono (fun _ _ _ => trivial) ?_
  · intro e w' he
    cases e <;> simp_all [onOSError, Exn.IsOSError]
  · rintro e w' ⟨text, rfl⟩
    trivial

section

variable {α β : Type} {w : W} {next : α → W → Prop}

@[simp] theorem orOSError_pure (a : α) : OrOSError (pure a) w next ↔ next a w := Iff.rfl

@[simp] theorem orOSError_ofExcept_ok (a : α) :
    OrOSError (Eff.ofExcept (.ok a)) w next ↔ next a w := Iff.rfl

@[simp] theorem orOSError_bind (x : Eff W Exn β) (f : β → Eff W Exn α) :
    OrOSError (x >>= f) w next ↔ OrOSError x w fun b w => OrOSError (f b) w next :=
  Eff.leads_bind x f

end

theorem not_isOSError {e : Exn} (h : ∀ text, e ≠ .osError text) : ¬e.IsOSError := by
  rintro ⟨text, he⟩
  exact h text he

theorem not_isCommandError {e : Exn} (hos : ∀ text, e ≠ .osError text)
    (hsub : ∀ text, e ≠ .subprocessError text) : ¬e.IsCommandError := by
  rintro (he | ⟨text, he⟩)
  · exact not_isOSError hos he
  · exact hsub text he

theorem field_of_item {args value : Json} {key : String} (h : item args key = .ok value) :
    field args key = some value := by
  cases args with
  | obj fields =>
      rw [item] at h
      rw [field]
      split at h
      · rename_i found hfound
        rw [hfound]
        exact congrArg some (Except.ok.inj h)
      · cases h
  | _ => cases h

/-- What raises where a field is read: it is not there. -/
theorem field_of_item_error {args : Json} {key : String} {e : Exn}
    (h : item args key = .error e) :
    field args key = none ∧ (e = .keyError key ∨ e = .typeError) := by
  cases args with
  | obj fields =>
      rw [item] at h
      rw [field]
      split at h
      · cases h
      · rename_i hnone
        exact ⟨hnone, .inl (Except.error.inj h).symm⟩
  | _ => exact ⟨rfl, .inr (Except.error.inj h).symm⟩

/-- Reading a field raises nothing that is taken: it has to be there. -/
theorem orOSError_item {args : Json} {key : String} {w : W} {next : Json → W → Prop} :
    OrOSError (Eff.ofExcept (item args key)) w next ↔
      ∃ value, field args key = some value ∧ next value w := by
  rw [OrOSError, Eff.leads_ofExcept]
  cases hitem : item args key with
  | ok value => simp [field_of_item hitem]
  | error e =>
      obtain ⟨hnone, he⟩ := field_of_item_error hitem
      have hnot : ¬e.IsOSError := by
        rcases he with rfl | rfl <;> exact not_isOSError nofun
      simpa [hnone] using hnot

/-- A function of a text that raises for other values: the field has to be a text. -/
theorem orOSError_item_text {args : Json} {key : String} {w : W} {α : Type}
    {f : Json → Eff W Exn α} {next : α → W → Prop} {e : Exn} (he : ¬e.IsOSError)
    (hf : ∀ value, (∀ text, value ≠ .str text) → f value = Eff.raise e) :
    (OrOSError (Eff.ofExcept (item args key)) w fun value w => OrOSError (f value) w next) ↔
      ∃ text, textField args key = some text ∧ OrOSError (f (.str text)) w next := by
  rw [orOSError_item]
  constructor
  · rintro ⟨value, hvalue, hnext⟩
    by_cases htext : ∃ text, value = .str text
    · obtain ⟨text, rfl⟩ := htext
      exact ⟨text, by rw [textField, hvalue], hnext⟩
    · rw [hf value (fun text ht => htext ⟨text, ht⟩)] at hnext
      exact absurd hnext he
  · rintro ⟨text, htext, hnext⟩
    refine ⟨.str text, ?_, hnext⟩
    rw [textField] at htext
    split at htext
    · rename_i found hfound
      rw [hfound]
      exact congrArg (fun t => some (Json.str t)) (Option.some.inj htext)
    · cases htext

theorem resolve_of_not_text (value : Json) (h : ∀ text, value ≠ .str text) :
    resolve dirs value = .error .attributeError := by
  cases value with
  | str text => exact absurd rfl (h text)
  | _ => rfl

theorem joinShared_of_not_text (value : Json) (h : ∀ text, value ≠ .str text) :
    joinShared dirs value = .error .typeError := by
  cases value with
  | str text => exact absurd rfl (h text)
  | _ => rfl

theorem writeFile_returns_iff (args : Json) (w : W) :
    (writeFile dirs host args).Returns w ↔ WriteFits dirs host args w := by
  rw [writeFile, returns_onOSError_iff, WriteFits]
  simp only [orOSError_bind]
  rw [orOSError_item_text (e := .attributeError) (not_isOSError nofun)
    (fun value h => congrArg Eff.ofExcept (resolve_of_not_text dirs value h))]
  refine exists_congr fun path => and_congr_right fun _ => ?_
  rw [resolve, orOSError_ofExcept_ok]
  refine iff_of_eq (congrArg _ (funext fun _ => funext fun w => propext ?_))
  refine (orOSError_item_text (e := .typeError) (not_isOSError nofun) ?_).trans ?_
  · intro value hvalue
    cases value with
    | str text => exact absurd rfl (hvalue text)
    | _ => rfl
  · simp only [orOSError_bind, orOSError_pure]

/-- Reading a file, where `place` gives a text its path. -/
theorem read_returns_iff (place : String → PurePath) (missing : String) (w : W) (path : String) :
    (OrOSError (do
        let there ← host.isThere (place path)
        if there then do
          let content ← host.readText (place path)
          pure (cut content)
        else pure missing) w fun _ _ => True) ↔
      OrOSError (host.isThere (place path)) w fun there w =>
        there = true → OrOSError (host.readText (place path)) w fun _ _ => True := by
  rw [orOSError_bind]
  refine iff_of_eq (congrArg _ (funext fun there => funext fun w => propext ?_))
  cases there <;> simp

theorem readFile_returns_iff (args : Json) (w : W) :
    (readFile dirs host args).Returns w ↔ ReadFits host (resolvePath dirs) args w := by
  rw [readFile, returns_onOSError_iff, ReadFits, orOSError_bind]
  simp only [orOSError_bind (Eff.ofExcept (resolve dirs _))]
  rw [orOSError_item_text (e := .attributeError) (not_isOSError nofun)
    (fun value h => congrArg Eff.ofExcept (resolve_of_not_text dirs value h))]
  refine exists_congr fun path => and_congr_right fun _ => ?_
  exact read_returns_iff host (resolvePath dirs) _ w path

theorem readSharedFile_returns_iff (args : Json) (w : W) :
    (readSharedFile dirs host args).Returns w ↔ ReadFits host (sharedPath dirs).join args w := by
  rw [readSharedFile, returns_onOSError_iff, ReadFits, orOSError_bind]
  simp only [orOSError_bind (Eff.ofExcept (joinShared dirs _))]
  rw [orOSError_item_text (e := .typeError) (not_isOSError nofun)
    (fun value h => congrArg Eff.ofExcept (joinShared_of_not_text dirs value h))]
  refine exists_congr fun path => and_congr_right fun _ => ?_
  exact read_returns_iff host (sharedPath dirs).join _ w path

/-- The paths of what is found have to begin with the shared directory. -/
theorem relativeTo_mapM_ok_iff (target : PurePath) (found : List (List String)) :
    (∃ files, found.mapM (relativeTo (sharedPath dirs) target) = Except.ok files) ↔
      ∀ names ∈ found, target.root = (sharedPath dirs).root ∧
        (sharedPath dirs).parts <+: target.parts ++ names := by
  induction found with
  | nil => simp [pure, Except.pure]
  | cons names found ih =>
      rw [List.forall_mem_cons, ← ih, List.mapM_cons, relativeTo]
      split
      · rename_i hbelow
        rw [and_iff_right hbelow]
        cases found.mapM (relativeTo (sharedPath dirs) target) with
        | error e => simp [bind, Except.bind]
        | ok files => simp [bind, Except.bind, pure, Except.pure]
      · rename_i hbelow
        refine iff_of_false ?_ (fun h => hbelow h.1)
        rintro ⟨files, hfiles⟩
        cases hfiles

/-- What raises there is a `ValueError`. -/
theorem relativeTo_mapM_error {target : PurePath} {found : List (List String)} {e : Exn}
    (h : found.mapM (relativeTo (sharedPath dirs) target) = Except.error e) : e = .valueError := by
  obtain ⟨names, -, hnames⟩ := Eff.mapM_error h
  rw [relativeTo] at hnames
  split at hnames
  · cases hnames
  · exact (Except.error.inj hnames).symm

theorem listBelow_iff (target : PurePath) (name : String) (w : W) :
    (OrOSError (listBelow dirs host target name) w fun _ _ => True) ↔
      OrOSError (host.isThere target) w fun there w =>
        there = true → OrOSError (host.files target) w fun found _ =>
          ∀ names ∈ found, target.root = (sharedPath dirs).root ∧
            (sharedPath dirs).parts <+: target.parts ++ names := by
  rw [listBelow, orOSError_bind]
  refine iff_of_eq (congrArg _ (funext fun there => funext fun w => propext ?_))
  cases there with
  | false => simp
  | true =>
      simp only [if_true, orOSError_bind, true_imp_iff]
      refine iff_of_eq (congrArg _ (funext fun found => funext fun w => propext ?_))
      rw [← relativeTo_mapM_ok_iff]
      cases hfound : found.mapM (relativeTo (sharedPath dirs) target) with
      | ok files => exact iff_of_true trivial ⟨files, rfl⟩
      | error e =>
          obtain rfl := relativeTo_mapM_error dirs hfound
          exact iff_of_false (not_isOSError nofun) (fun ⟨files, h⟩ => by cases h)

/-- Listing a directory, where `choose` gives a value its directory. -/
theorem list_returns_iff {whole : PurePath} {place : String → PurePath}
    {choose : Json → Except Exn PurePath} (htext : ∀ path, choose (.str path) = .ok (place path))
    (hother : ∀ value, (∀ text, value ≠ .str text) → ∃ e, choose value = .error e ∧ ¬e.IsOSError)
    (name : String) (args : Json) (w : W) :
    (OrOSError (do
        let value ← Eff.ofExcept (subPath args)
        let target ← Eff.ofExcept (if truthy value then choose value else .ok whole)
        listBelow dirs host target name) w fun _ _ => True) ↔
      ListFits dirs host whole place args w := by
  rw [ListFits, orOSError_bind]
  cases args with
  | obj fields =>
      have hvalue : (Eff.ofExcept (subPath (.obj fields)) : Eff W Exn Json) =
        pure ((Dict.get fields "path").getD (.str "")) := rfl
      rw [hvalue, orOSError_pure, orOSError_bind, listed]
      generalize (Dict.get fields "path").getD (.str "") = value
      by_cases htrue : truthy value
      · rw [if_pos htrue]
        by_cases hstr : ∃ path, value = .str path
        · obtain ⟨path, rfl⟩ := hstr
          have hne : path ≠ "" := by simpa [truthy] using htrue
          rw [htext]
          simpa [hne] using listBelow_iff dirs host (place path) name w
        · obtain ⟨e, he, hos⟩ := hother value (fun path hpath => hstr ⟨path, hpath⟩)
          rw [he]
          refine iff_of_false hos ?_
          rintro ⟨target, htarget, -⟩
          cases value <;> simp_all
      · rw [if_neg htrue]
        have hwhole := listBelow_iff dirs host whole name w
        cases value with
        | str path =>
            have hempty : path = "" := by simpa [truthy] using htrue
            simpa [hempty] using hwhole
        | _ => simpa [htrue] using hwhole
  | _ => exact iff_of_false (not_isOSError nofun) (fun ⟨_, h, _⟩ => by cases h)

theorem listDirectory_returns_iff (args : Json) (w : W) :
    (listDirectory dirs host args).Returns w ↔
      ListFits dirs host (roleDir dirs) (resolvePath dirs) args w := by
  rw [listDirectory, returns_onOSError_iff]
  refine list_returns_iff dirs host (fun _ => rfl) ?_ _ args w
  intro value hvalue
  exact ⟨.attributeError, resolve_of_not_text dirs value hvalue, not_isOSError nofun⟩

theorem listShared_returns_iff (args : Json) (w : W) :
    (listShared dirs host args).Returns w ↔
      ListFits dirs host (sharedPath dirs) (sharedPath dirs).join args w := by
  rw [listShared, returns_onOSError_iff]
  refine list_returns_iff dirs host (fun _ => rfl) ?_ _ args w
  intro value hvalue
  exact ⟨.typeError, joinShared_of_not_text dirs value hvalue, not_isOSError nofun⟩

theorem commandArgs_error {value : Json} {e : Exn} (h : commandArgs value = .error e) :
    e = .typeError := by
  cases value with
  | arr values =>
      obtain ⟨value, -, hvalue⟩ := Eff.mapM_error h
      cases value with
      | str text => cases hvalue
      | _ => exact (Except.error.inj hvalue).symm
  | str text => cases h
  | obj fields => cases h
  | _ => exact (Except.error.inj h).symm

/-- The same for `run_command`, which takes the errors of subprocesses as well. -/
theorem returns_onCommandError_iff (x : Eff W Exn String) (w : W) :
    (Eff.catching x onCommandError).Returns w ↔
      x.Leads w (fun _ _ => True) fun e _ => e.IsCommandError := by
  rw [Eff.Returns, Eff.leads_catching]
  constructor <;> intro h <;> refine h.mono (fun _ _ _ => trivial) ?_
  · intro e w' he
    cases e <;> simp_all [onCommandError, Exn.IsCommandError, Exn.IsOSError]
  · rintro e w' (⟨text, rfl⟩ | ⟨text, rfl⟩) <;> trivial

theorem runCommand_returns_iff (args : Json) (w : W) :
    (runCommand dirs host args).Returns w ↔ RunCommandFits dirs host args w := by
  rw [runCommand, returns_onCommandError_iff, RunCommandFits, runnable, Eff.leads_bind,
    Eff.leads_ofExcept]
  cases hitem : item args "command" with
  | error e =>
      obtain ⟨hnone, he⟩ := field_of_item_error hitem
      have hnot : ¬e.IsCommandError := by
        rcases he with rfl | rfl <;> exact not_isCommandError nofun nofun
      simpa [hnone] using hnot
  | ok value =>
      rw [field_of_item hitem]
      simp only [Eff.leads_bind, Eff.leads_ofExcept, Eff.leads_pure, Option.bind_some]
      cases hcommand : commandArgs value with
      | error e =>
          obtain rfl := commandArgs_error hcommand
          have hnot : ¬Exn.typeError.IsCommandError := not_isCommandError nofun nofun
          simpa [Except.toOption] using hnot
      | ok command => simp [Except.toOption]

/-- **A call returns exactly when it fits.** -/
theorem executeFileTool_returns_iff (name : String) (args : Json) (w : W) :
    Fits dirs host name args w ↔ (executeFileTool dirs host name args).Returns w := by
  rw [Fits, executeFileTool, Eff.Returns, Eff.leads_bind]
  refine iff_of_eq (congrArg (fun next => (host.mkdir (roleDir dirs)).Leads w next _)
    (funext fun _ => funext fun w => propext ?_))
  have hwrite := writeFile_returns_iff dirs host args w
  have hread := readFile_returns_iff dirs host args w
  have hlist := listDirectory_returns_iff dirs host args w
  have hrun := runCommand_returns_iff dirs host args w
  have hshared := readSharedFile_returns_iff dirs host args w
  have hlistShared := listShared_returns_iff dirs host args w
  unfold ToolFits runTool
  split
  · exact hwrite.symm
  · split
    · exact hread.symm
    · split
      · exact hlist.symm
      · split
        · exact hrun.symm
        · split
          · exact hshared.symm
          · split
            · exact hlistShared.symm
            · exact iff_of_true trivial trivial

/-! ## The runs -/

/-- The iterations of `call_llm`. -/
def maxIterations : ℕ := 20

/-- `call_llm`: the loop over the file tools. -/
def callLlm (loads : String → Loaded) (llm : ℕ → Completion) (systemPrompt userMessage : String)
    (w : W) : Except (Failure Exn) String × Chat W :=
  runAgentLoop (executeFileTool dirs host) loads llm systemPrompt userMessage maxIterations w

/-- **A run is harmless exactly when every call it comes to fits.** -/
theorem harmless_iff (loads : String → Loaded) (llm : ℕ → Completion)
    (systemPrompt userMessage : String) (w : W) :
    Harmless (callLlm dirs host loads llm systemPrompt userMessage w) ↔
      RunFits (executeFileTool dirs host) loads (Fits dirs host) llm maxIterations 0 w := by
  have hrun := AgentLoop.loop_no_tool_raises_iff (executeFileTool dirs host) loads
    (Fits dirs host) llm (executeFileTool_returns_iff dirs host) maxIterations 0
    (AgentLoop.initial systemPrompt userMessage w)
  constructor
  · intro h
    exact hrun.1 h.not_by_tool
  · intro h
    have hend := hrun.2 h
    exact ⟨hend, AgentLoop.loop_inOrder (executeFileTool dirs host) loads llm trivial hend⟩

/-- A host where everything succeeds. -/
def idleHost : Host Unit where
  mkdir _ := pure ()
  writeText _ _ := pure ()
  isThere _ := pure false
  readText _ := pure ""
  files _ := pure []
  run _ _ := pure ""

-- two slashes are a root of their own, so what is found there is not below the shared directory
example :
    let dirs : ToolDirs := { sharedDir := "/workspace/artifacts/t1", rolePrefix := "frontend" }
    let host : Host Unit :=
      { idleHost with isThere := fun _ => pure true, files := fun _ => pure [["a.txt"]] }
    executeFileTool dirs host "list_shared"
      (.obj [("path", .str "//workspace/artifacts/t1")]) () = (.error .valueError, ()) := by
  rfl

/-- **A missing path aborts the task**: `write_file` with `{}`, which also stands for arguments
that are not JSON. -/
theorem missing_path_aborts :
    ¬∀ (dirs : ToolDirs) (loads : String → Loaded) (llm : ℕ → Completion),
      Harmless (callLlm dirs idleHost loads llm "" "" ()) := by
  intro h
  let dirs : ToolDirs := { sharedDir := "/workspace/artifacts/t1", rolePrefix := "frontend" }
  let loads (_ : String) : Loaded := .decodeError
  let llm (_ : ℕ) : Completion :=
    .reply none [{ id := "1", name := "write_file", arguments := "path: a.txt" }]
  have hrun := h dirs loads llm
  exact hrun.not_by_tool (.keyError "path") rfl

end FileTools
end AgentSwarm
