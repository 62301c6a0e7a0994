import FlowGraph.Dict
import FlowGraph.Number.Binary64

/-!
JSON values. Integers and floating point numbers are told apart: `5` and `5.0` are different values.
The fields of an object are listed in ascending order of their names.
-/

namespace FlowGraph

inductive Json where
  | null
  | bool (value : Bool)
  | int (value : Int)
  | float (value : Binary64)
  | string (value : String)
  | array (items : List Json)
  | object (fields : List (String × Json))
  deriving Inhabited

namespace Json

def ofFields (fields : List (String × Json)) : Json := .object (Dict.ofList fields).entries

def ofNat (n : Nat) : Json := .int n

def ofStrings (texts : List String) : Json := .array (texts.map .string)

def ofOption {α : Type} (write : α → Json) : Option α → Json
  | none => .null
  | some value => write value

/-- A floating point number, or `null` for one that is not finite. -/
def ofFloat (x : Binary64) : Json := if x.isFinite then .float x else .null

def lookup (name : String) : List (String × Json) → Option Json
  | [] => none
  | entry :: rest => if entry.1 = name then some entry.2 else lookup name rest

def field? (name : String) : Json → Option Json
  | .object fields => lookup name fields
  | _ => none

def toFloat? : Json → Option Binary64
  | .int value => some (.ofInt value)
  | .float value => some value
  | _ => none

mutual

/-- Equality of values. Floating point numbers compare as numbers, so the two zeros are equal. -/
def same : Json → Json → Bool
  | .null, .null => true
  | .bool a, .bool b => a == b
  | .int a, .int b => a == b
  | .float a, .float b => a.same b
  | .string a, .string b => a == b
  | .array a, .array b => sameItems a b
  | .object a, .object b => sameFields a b
  | _, _ => false

def sameItems : List Json → List Json → Bool
  | [], [] => true
  | a :: as, b :: bs => same a b && sameItems as bs
  | _, _ => false

def sameFields : List (String × Json) → List (String × Json) → Bool
  | [], [] => true
  | (m, a) :: as, (n, b) :: bs => m == n && same a b && sameFields as bs
  | _, _ => false

end

end Json

end FlowGraph
