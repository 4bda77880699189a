/-
  AutoTrader/Python/Json.lean
  ===========================
  **JSON values, and what the `json` module makes of texts.**

  The module itself is a parameter: what `loads` and `dumps` answer on a text or a value,
  or raise, is left open.  `str` of a value is part of it.
-/
import AutoTrader.Python.Values

namespace AutoTrader

/-- A parsed JSON value. -/
inductive Json where
  | null
  | bool (b : Bool)
  | int (n : Int)
  | float (x : PyFloat)
  | text (s : String)
  | list (items : List Json)
  | dict (fields : List (String × Json))

namespace Json

/-- `bool(value)`. -/
def truthy : Json → Bool
  | .null => false
  | .bool b => b
  | .int n => n ≠ 0
  | .float x => x.truthy
  | .text s => s ≠ ""
  | .list items => !items.isEmpty
  | .dict fields => !fields.isEmpty

/-- The value of a key, if it is there. -/
def field? (fields : List (String × Json)) (key : String) : Option Json :=
  (fields.find? (·.1 = key)).map (·.2)

end Json

/-- What `json.loads`, `json.dumps` and `str` answer or raise. -/
structure JsonModule where
  loads : String → Except Exn Json
  dumps : Json → Except Exn String
  str : Json → Except Exn String

end AutoTrader
