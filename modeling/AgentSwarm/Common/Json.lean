import Mathlib.Data.Rat.Init
import AgentSwarm.Lib.Dict

/-!
# JSON values

The values that travel between the modules as Python `dict`s and are kept in
SQLite as text.  A text column written with `json.dumps` and read back with
`json.loads` holds the same value, so a column is modelled by the value in it.

* `Json`, `JsonObj` — values, and objects as insertion-ordered dictionaries.
* `deepMerge` — `_deep_merge` of the session service.
-/

namespace AgentSwarm

/-- A JSON value.  Numbers are the rational a Python `int` or `float` stands for. -/
inductive Json where
  | null
  | bool (b : Bool)
  | num (q : ℚ)
  | str (s : String)
  | arr (xs : List Json)
  | obj (o : List (String × Json))
  deriving Inhabited, Repr

/-- A JSON object. -/
abbrev JsonObj := Dict String Json

mutual

/-- `_deep_merge(target, delta)`: the entries of `delta` in order, each merged
into the entry of `target` under its key. -/
def deepMerge (target : JsonObj) : JsonObj → JsonObj
  | [] => target
  | (k, v) :: delta => deepMerge (target.set k (mergeEntry (target.get k) v)) delta

/-- The value left under a key: two objects are merged, anything else of
`delta` replaces what was there. -/
def mergeEntry (old : Option Json) : Json → Json
  | .obj d =>
      match old with
      | some (.obj t) => .obj (deepMerge t d)
      | _ => .obj d
  | v => v

end

@[simp] theorem deepMerge_nil (target : JsonObj) : deepMerge target [] = target := by
  simp [deepMerge]

end AgentSwarm
