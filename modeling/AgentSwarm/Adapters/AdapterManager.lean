import Mathlib.Data.List.DropRight
import AgentSwarm.Common.Json

/-!
# The adapters

An adapter is built from the connection settings that an agent registers with.

* `AgentBackend` — an adapter, by its class and what its constructor keeps.
* `protocolRegistry`, `createAdapter` — the class for a protocol, and its call with the
  settings as keyword arguments.
* `protocol_of_createAdapter` — an adapter is built for one of these protocols only.

Numbers do not tell `int` from `float` here, and the constructors do not either.  The
constructors take any further keyword and leave it alone.
-/

namespace AgentSwarm
namespace Adapters

/-- An adapter. -/
inductive AgentBackend where
  | openAIAdapter (baseUrl : String) (apiKey model timeout : Json)
  | cliAdapter (command args timeout workdir : Json)
  | mcpAdapter (serverUrl : String) (timeout : Json)
  | a2aAdapter (baseUrl : String) (timeout : Json)

/-- What is raised instead. -/
inductive CreateError where
  | typeError (text : String)
  | valueError (text : String)
  | attributeError
  deriving DecidableEq

/-! ## Constructors -/

/-- `bool(value)`. -/
def truthy : Json → Bool
  | .null => false
  | .bool b => b
  | .num q => q ≠ 0
  | .str s => s ≠ ""
  | .arr xs => !xs.isEmpty
  | .obj o => !o.isEmpty

/-- `value.rstrip("/")`, of a value that need not be a string. -/
def rstrip : Json → Except CreateError String
  | .str s => .ok (String.ofList (s.toList.rdropWhile (· = '/')))
  | _ => .error .attributeError

/-- The argument for the one parameter without a default.  A keyword `self` meets the
object itself. -/
def required (cls parameter : String) (config : JsonObj) : Except CreateError Json :=
  match config.get "self", config.get parameter with
  | some _, _ => .error (.typeError (cls ++ ".__init__() got multiple values for argument 'self'"))
  | none, some value => .ok value
  | none, none =>
      .error (.typeError
        (cls ++ ".__init__() missing 1 required positional argument: '" ++ parameter ++ "'"))

/-- `OpenAIAdapter(**config)`. -/
def openAIAdapter (config : JsonObj) : Except CreateError AgentBackend := do
  let baseUrl ← required "OpenAIAdapter" "base_url" config
  let baseUrl ← rstrip baseUrl
  return .openAIAdapter baseUrl ((config.get "api_key").getD (.str ""))
    ((config.get "model").getD (.str "default")) ((config.get "timeout").getD (.num 300))

/-- `CLIAdapter(**config)`. -/
def cliAdapter (config : JsonObj) : Except CreateError AgentBackend := do
  let command ← required "CLIAdapter" "command" config
  let args := (config.get "args").getD .null
  return .cliAdapter command (if truthy args then args else .arr [])
    ((config.get "timeout").getD (.num 300)) ((config.get "workdir").getD .null)

/-- `MCPAdapter(**config)`. -/
def mcpAdapter (config : JsonObj) : Except CreateError AgentBackend := do
  let serverUrl ← required "MCPAdapter" "server_url" config
  let serverUrl ← rstrip serverUrl
  return .mcpAdapter serverUrl ((config.get "timeout").getD (.num 30))

/-- `A2AAdapter(**config)`. -/
def a2aAdapter (config : JsonObj) : Except CreateError AgentBackend := do
  let baseUrl ← required "A2AAdapter" "base_url" config
  let baseUrl ← rstrip baseUrl
  return .a2aAdapter baseUrl ((config.get "timeout").getD (.num 300))

/-! ## The factory -/

/-- `PROTOCOL_REGISTRY`. -/
def protocolRegistry : Dict String (JsonObj → Except CreateError AgentBackend) :=
  [("openai", openAIAdapter), ("cli", cliAdapter), ("mcp", mcpAdapter), ("a2a", a2aAdapter)]

/-- `protocol.lower()`, for the letters that the known protocols have. -/
def lower (protocol : String) : String := String.ofList (protocol.toList.map Char.toLower)

/-- `create_adapter`. -/
def createAdapter (agentInfo : JsonObj) : Except CreateError AgentBackend :=
  match (agentInfo.get "protocol").getD (.str "") with
  | .str protocol =>
      let protocol := lower protocol
      match protocolRegistry.get protocol with
      | none =>
          .error (.valueError ("Unknown protocol '" ++ protocol ++ "'. Supported protocols: " ++
            ", ".intercalate protocolRegistry.keys))
      | some adapterCls =>
          let config := agentInfo.filter fun item => item.1 ≠ "protocol" ∧ item.1 ≠ "metadata"
          match adapterCls config with
          | .error (.typeError e) =>
              .error (.valueError ("Invalid configuration for protocol '" ++ protocol ++ "': " ++ e))
          | outcome => outcome
  | _ => .error .attributeError

/-- An adapter is only built for a protocol that has a class. -/
theorem protocol_of_createAdapter {agentInfo : JsonObj} {backend : AgentBackend}
    (h : createAdapter agentInfo = .ok backend) :
    ∃ protocol, agentInfo.get "protocol" = some (.str protocol) ∧
      lower protocol ∈ protocolRegistry.keys := by
  rw [createAdapter] at h
  split at h
  · rename_i protocol hprotocol
    dsimp only at h
    split at h
    · cases h
    · rename_i adapterCls hcls
      have hmem : lower protocol ∈ protocolRegistry.keys := Dict.mem_keys_of_get hcls
      cases hget : agentInfo.get "protocol" with
      | none =>
          rw [hget] at hprotocol
          cases hprotocol
          exact absurd hmem (by decide)
      | some value =>
          rw [hget] at hprotocol
          cases hprotocol
          exact ⟨protocol, rfl, hmem⟩
  · cases h

end Adapters
end AgentSwarm
