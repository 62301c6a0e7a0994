import FlowGraph.Json.Basic

/-!
Loading values of a type from JSON. A record loads from an object, whose fields are taken in ascending
order of their names, or from an array with the fields in the order they are declared. The first field
that does not load decides the message; fields that are missing come last.
-/

namespace FlowGraph.Json

abbrev Load (α : Type) := Json → Except String α

def mismatch {α : Type} : Except String α := .error "unexpected value"

def loadJson : Load Json := .ok

def loadString : Load String
  | .string text => .ok text
  | _ => mismatch

def loadBool : Load Bool
  | .bool value => .ok value
  | _ => mismatch

def loadInt (low high : Int) : Load Int
  | .int value => if low ≤ value && value ≤ high then .ok value else mismatch
  | _ => mismatch

def wordLimit : Nat := 0x10000000000000000

def loadNat (json : Json) : Except String Nat :=
  (loadInt 0 (wordLimit - 1) json).map Int.toNat

def loadFloat (json : Json) : Except String Binary64 :=
  match json.toFloat? with
  | some value => .ok value
  | none => mismatch

def loadOption {α : Type} (load : Load α) : Load (Option α)
  | .null => .ok none
  | json => (load json).map some

def loadList {α : Type} (load : Load α) : Load (List α)
  | .array items => items.mapM load
  | _ => mismatch

def loadDict {κ α : Type} [Key κ] (key : String → Except String κ) (load : Load α) :
    Load (Dict κ α)
  | .object fields => do
    let entries ← fields.mapM fun field => do
      let name ← key field.1
      let value ← load field.2
      pure (name, value)
    pure (.ofList entries)
  | _ => mismatch

/-- A plain choice is written as its name, or as an object that gives its name the value `null`. -/
def loadName {α : Type} (named : String → Option α) : Load α
  | .string name | .object [(name, .null)] =>
    match named name with
    | some value => .ok value
    | none => mismatch
  | _ => mismatch

/-- The parts of a record in one of its two layouts. -/
inductive Layout where
  | named (fields : List (String × Json))
  | listed (items : List Json)

/-- What stands for a field that is missing. -/
inductive Absence (α : Type) where
  | refused
  /-- Only an object may leave the field out. -/
  | nullable (value : α)
  | defaulted (value : α)

/-- Why a record does not load, and where in the order of checks that was found. -/
structure Fault where
  place : Nat
  message : String

def Fault.earlier (a b : Fault) : Fault := if b.place < a.place then b else a

/-- Loads some fields of a record, the first of which is declared at place `start`. -/
structure Fields (α : Type) where
  count : Nat
  read : (start : Nat) → Layout → Except Fault α

namespace Fields
variable {α β : Type}

def apply (f : Fields (α → β)) (x : Fields α) : Fields β where
  count := f.count + x.count
  read := fun start layout =>
    match f.read start layout, x.read (start + f.count) layout with
    | .ok f, .ok x => .ok (f x)
    | .error a, .error b => .error (a.earlier b)
    | .error a, .ok _ => .error a
    | .ok _, .error b => .error b

def map (f : α → β) (x : Fields α) : Fields β := ⟨x.count, fun start layout => (x.read start layout).map f⟩

instance : Functor Fields := ⟨Fields.map, fun value => Fields.map fun _ => value⟩
instance : Seq Fields := ⟨fun f x => f.apply (x ())⟩

end Fields

def placed {α : Type} (place : Nat) : Except String α → Except Fault α
  | .ok value => .ok value
  | .error message => .error ⟨place, message⟩

def missing {α : Type} (place : Nat) : Absence α → Except Fault α
  | .refused => .error ⟨place, "missing field"⟩
  | .nullable value | .defaulted value => .ok value

def position (name : String) (fields : List (String × Json)) : Nat :=
  fields.findIdx fun field => field.1 == name

def field {α : Type} (name : String) (absence : Absence α) (load : Load α) : Fields α where
  count := 1
  read := fun start layout =>
    match layout with
    | .named fields =>
      match lookup name fields with
      | some json => placed (position name fields) (load json)
      | none => missing fields.length absence
    | .listed items =>
      match items[start]?, absence with
      | some json, _ => placed start (load json)
      | none, .defaulted value => .ok value
      | none, _ => .error ⟨start, "missing field"⟩

def required {α : Type} (name : String) (load : Load α) : Fields α := field name .refused load

def nullable {α : Type} (name : String) (load : Load α) : Fields (Option α) :=
  field name (.nullable none) (loadOption load)

def defaulted {α : Type} (name : String) (value : α) (load : Load α) : Fields α :=
  field name (.defaulted value) load

/-- Loads a record; `exact` refuses an array with more items than there are fields. -/
def loadRecord {α : Type} (exact : Bool) (fields : Fields α) : Load α
  | .object entries => ((fields.read 0 (.named entries)).mapError Fault.message)
  | .array items => do
    let value ← (fields.read 0 (.listed items)).mapError Fault.message
    if exact && fields.count < items.length then mismatch else pure value
  | _ => mismatch

end FlowGraph.Json
