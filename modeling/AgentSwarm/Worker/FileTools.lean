import AgentSwarm.Lib.Effect
import AgentSwarm.Lib.Path
import AgentSwarm.Adapters.AdapterManager
import AgentSwarm.Worker.Settings

/-!
# The file tools of a worker

`execute_file_tool` runs one tool with the arguments of a call, which are any JSON value.
Each tool looks at its arguments inside a `try` that takes the errors of the system, and
nothing else.

* `Exn` — what may be raised.
* `Host` — the system calls, on the states `W` of the host.
* `resolvePath` — `_resolve_path`.
* `writeFile`, `readFile`, `listDirectory`, `runCommand`, `readSharedFile`, `listShared` —
  the tools.
* `executeFileTool` — the dispatch, after the directory of the role has been made.
-/

namespace AgentSwarm
namespace FileTools

open Adapters (truthy)
open AgentSwarm.Path (PurePath)
open Worker.Settings (ToolDirs)

/-- An exception.  The errors of the system are the `OSError`s, and for a command the
`SubprocessError`s; a path or an output that cannot be encoded or decoded is a
`ValueError`. -/
inductive Exn where
  | osError (text : String)
  | subprocessError (text : String)
  | keyError (key : String)
  | typeError
  | attributeError
  | valueError
  deriving DecidableEq

/-- The system calls.  `files` is `rglob` with the regular files it finds, by the names on the
way to them; `run` gives what the command prints. -/
structure Host (W : Type) where
  mkdir : PurePath → Eff W Exn Unit
  writeText : PurePath → String → Eff W Exn Unit
  isThere : PurePath → Eff W Exn Bool
  readText : PurePath → Eff W Exn String
  files : PurePath → Eff W Exn (List (List String))
  run : List String → PurePath → Eff W Exn String

/-! ## Arguments -/

/-- `args[key]`. -/
def item (args : Json) (key : String) : Except Exn Json :=
  match args with
  | .obj fields =>
      match Dict.get fields key with
      | some value => .ok value
      | none => .error (.keyError key)
  | _ => .error .typeError

/-- `args.get("path", "")`. -/
def subPath : Json → Except Exn Json
  | .obj fields => .ok ((Dict.get fields "path").getD (.str ""))
  | _ => .error .attributeError

/-- `str(value)`, for a text and for the values that are not true. -/
def falsyText : Json → String
  | .str text => text
  | .null => "None"
  | .bool _ => "False"
  | .num _ => "0"
  | .arr _ => "[]"
  | .obj _ => "{}"

/-- `s[:5000]`. -/
def cut (s : String) : String := String.ofList (s.toList.take 5000)

/-- `"\n".join(files) if files else "(empty)"`. -/
def listing (files : List String) : String :=
  if files = [] then "(empty)" else "\n".intercalate files

/-- The `except OSError` clause. -/
def onOSError (answer : String → String) : Exn → Option String
  | .osError text => some (answer text)
  | _ => none

/-- The `except (OSError, subprocess.SubprocessError)` clause. -/
def onCommandError : Exn → Option String
  | .osError text => some ("Command error: " ++ text)
  | .subprocessError text => some ("Command error: " ++ text)
  | _ => none

/-! ## Paths -/

variable (dirs : ToolDirs)

/-- `Path(shared_dir)`. -/
def sharedPath : PurePath := .ofString dirs.sharedDir

/-- `role_dir`. -/
def roleDir : PurePath := (sharedPath dirs).join dirs.rolePrefix

/-- `_resolve_path`: a path that begins with the prefix of the role is not put below it once
more. -/
def resolvePath (filePath : String) : PurePath :=
  let p := filePath.toList.dropWhile (· = '/')
  if String.ofList (p.takeWhile (· ≠ '/')) = dirs.rolePrefix then
    (sharedPath dirs).join (String.ofList p)
  else (roleDir dirs).join (String.ofList p)

/-- `_resolve_path`, of a value that need not be a text. -/
def resolve : Json → Except Exn PurePath
  | .str filePath => .ok (resolvePath dirs filePath)
  | _ => .error .attributeError

/-- `p.parent`. -/
def parent (p : PurePath) : PurePath where
  root := p.root
  parts := p.parts.dropLast
  ok := fun c hc => p.ok c (List.mem_of_mem_dropLast hc)

/-- `str(f.relative_to(base))`, for the file `f` found below `p` by these names. -/
def relativeTo (base p : PurePath) (names : List String) : Except Exn String :=
  if p.root = base.root ∧ base.parts <+: p.parts ++ names then
    .ok (Path.joined ((p.parts ++ names).drop base.parts.length))
  else .error .valueError

/-! ## The tools -/

variable {W : Type} (host : Host W)

/-- `write_file`. -/
def writeFile (args : Json) : Eff W Exn String :=
  let path := match item args "path" with
    | .ok value => falsyText value
    | .error _ => ""
  Eff.catching (do
    let value ← .ofExcept (item args "path")
    let target ← .ofExcept (resolve dirs value)
    host.mkdir (parent target)
    let content ← .ofExcept (item args "content")
    match content with
    | .str text => do
        host.writeText target text
        pure ("Written to " ++ path ++ " (" ++ toString text.length ++ " bytes)")
    | _ => .raise .typeError)
    (onOSError fun e => "Error writing " ++ path ++ ": " ++ e)

/-- `read_file`. -/
def readFile (args : Json) : Eff W Exn String :=
  let path := match item args "path" with
    | .ok value => falsyText value
    | .error _ => ""
  Eff.catching (do
    let value ← .ofExcept (item args "path")
    let target ← .ofExcept (resolve dirs value)
    let there ← host.isThere target
    if there then do
      let content ← host.readText target
      pure (cut content)
    else pure ("File not found: " ++ path))
    (onOSError fun e => "Error reading " ++ path ++ ": " ++ e)

/-- The files below a directory, if it is there. -/
def listBelow (target : PurePath) (name : String) : Eff W Exn String := do
  let there ← host.isThere target
  if there then do
    let found ← host.files target
    let files ← .ofExcept (found.mapM (relativeTo (sharedPath dirs) target))
    pure (listing files)
  else pure ("Directory not found: " ++ name)

/-- `list_directory`. -/
def listDirectory (args : Json) : Eff W Exn String :=
  let name := match subPath args with
    | .ok value => falsyText value
    | .error _ => ""
  Eff.catching (do
    let value ← .ofExcept (subPath args)
    let target ← .ofExcept (if truthy value then resolve dirs value else .ok (roleDir dirs))
    listBelow dirs host target name)
    (onOSError fun e => "Error listing directory " ++ name ++ ": " ++ e)

/-- A value that has to be a text. -/
def textArg : Json → Except Exn String
  | .str text => .ok text
  | _ => .error .typeError

/-- What `subprocess.run` makes of a command; the values of a list have to be texts. -/
def commandArgs : Json → Except Exn (List String)
  | .str command => .ok [command]
  | .arr values => values.mapM textArg
  | .obj fields => .ok (fields.map Prod.fst)
  | _ => .error .typeError

/-- `run_command`. -/
def runCommand (args : Json) : Eff W Exn String :=
  Eff.catching (do
    let value ← .ofExcept (item args "command")
    let command ← .ofExcept (commandArgs value)
    let output ← host.run command (roleDir dirs)
    pure (if output = "" then "(no output)" else cut output))
    onCommandError

/-- `shared / value`, of a value that need not be a text. -/
def joinShared : Json → Except Exn PurePath
  | .str path => .ok ((sharedPath dirs).join path)
  | _ => .error .typeError

/-- `read_shared_file`. -/
def readSharedFile (args : Json) : Eff W Exn String :=
  let path := match item args "path" with
    | .ok value => falsyText value
    | .error _ => ""
  Eff.catching (do
    let value ← .ofExcept (item args "path")
    let target ← .ofExcept (joinShared dirs value)
    let there ← host.isThere target
    if there then do
      let content ← host.readText target
      pure (cut content)
    else pure ("File not found: " ++ path))
    (onOSError fun e => "Error reading shared file " ++ path ++ ": " ++ e)

/-- `list_shared`. -/
def listShared (args : Json) : Eff W Exn String :=
  let name := match subPath args with
    | .ok value => falsyText value
    | .error _ => ""
  Eff.catching (do
    let value ← .ofExcept (subPath args)
    let target ← .ofExcept (if truthy value then joinShared dirs value else .ok (sharedPath dirs))
    listBelow dirs host target name)
    (onOSError fun e => "Error listing shared directory " ++ name ++ ": " ++ e)

/-- The tool of a name. -/
def runTool (name : String) (args : Json) : Eff W Exn String :=
  if name = "write_file" then writeFile dirs host args
  else if name = "read_file" then readFile dirs host args
  else if name = "list_directory" then listDirectory dirs host args
  else if name = "run_command" then runCommand dirs host args
  else if name = "read_shared_file" then readSharedFile dirs host args
  else if name = "list_shared" then listShared dirs host args
  else pure ("Unknown tool: " ++ name)

/-- `execute_file_tool`. -/
def executeFileTool (name : String) (args : Json) : Eff W Exn String := do
  host.mkdir (roleDir dirs)
  runTool dirs host name args

end FileTools
end AgentSwarm
