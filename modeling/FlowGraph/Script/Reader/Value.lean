import FlowGraph.Snapshot

/-!
Reading scripts, which are written as JSON. A part that is missing counts as `null`. Reading fails on a
script that is malformed, and with the error of the library if the library refuses what the script asks
for.
-/

namespace FlowGraph.Script

inductive Refusal where
  | malformed
  | failed (error : Error)

abbrev Reading (α : Type) := Except Refusal α

namespace Reading

def malformed {α : Type} : Reading α := .error .malformed

def ofOption {α : Type} : Option α → Reading α
  | some value => .ok value
  | none => malformed

def ofExcept {α : Type} : Except Error α → Reading α
  | .ok value => .ok value
  | .error error => .error (.failed error)

/-- Keeps an error of the library for the time when the part is used. -/
def deferred {α : Type} : Reading α → Reading (Except Error α)
  | .ok value => .ok (.ok value)
  | .error (.failed error) => .ok (.error error)
  | .error .malformed => malformed

end Reading

open Reading

def part (json : Json) (name : String) : Json := (json.field? name).getD .null

def given (json : Json) (name : String) : Option Json :=
  match part json name with
  | .null => none
  | value => some value

def asText : Json → Reading String
  | .string text => .ok text
  | _ => malformed

def asNat : Json → Reading Nat
  | .int value => if 0 ≤ value then .ok value.toNat else malformed
  | _ => malformed

def asInt : Json → Reading Int
  | .int value => if value < 0x8000000000000000 then .ok value else malformed
  | _ => malformed

def asFlag : Json → Reading Bool
  | .bool value => .ok value
  | _ => malformed

def asList : Json → Reading (List Json)
  | .array items => .ok items
  | _ => malformed

def orElse {α : Type} (read : Json → Reading α) (otherwise : α) (json : Json) (name : String) :
    Reading α :=
  match given json name with
  | none => .ok otherwise
  | some value => read value

def text (json : Json) (name : String) : Reading String := asText (part json name)

def textOr (json : Json) (name otherwise : String) : Reading String :=
  orElse asText otherwise json name

def nat (json : Json) (name : String) : Reading Nat := asNat (part json name)

def natOr (json : Json) (name : String) (otherwise : Nat) : Reading Nat :=
  orElse asNat otherwise json name

def flag (json : Json) (name : String) : Reading Bool := orElse asFlag false json name

def list (json : Json) (name : String) : Reading (List Json) := asList (part json name)

def listOr (json : Json) (name : String) : Reading (List Json) := orElse asList [] json name

def optional {α : Type} (read : Json → Reading α) (json : Json) (name : String) :
    Reading (Option α) :=
  (given json name).mapM read

def asIdent {kind : IdentKind} (json : Json) : Reading (Ident kind) := do
  ofExcept (Ident.ofText (← asText json))

def ident {kind : IdentKind} (json : Json) (name : String) : Reading (Ident kind) :=
  asIdent (part json name)

def loaded {α : Type} (load : Json.Load α) (json : Json) : Reading α :=
  ofExcept (Json.loaded load json)

def asFloat : Json → Reading Binary64
  | .string "nan" => .ok .nan
  | .string "inf" => .ok .infinity
  | .string "-inf" => .ok (-.infinity)
  | json => ofOption json.toFloat?

def asKind : Json → Reading Kind
  | .string "string" => .ok .string
  | .string "bool" => .ok .bool
  | .string "i64" => .ok (.int .i64)
  | .string "i32" => .ok (.int .i32)
  | .string "u8" => .ok (.int .u8)
  | .string "u32" => .ok (.int .u32)
  | .string "u64" => .ok (.int .u64)
  | .string "f64" => .ok .float
  | .string "char" => .ok .char
  | .string "strings" => .ok (.list .string)
  | .string "opt_i64" => .ok (.option (.int .i64))
  | .string "map" => .ok (.map .string (.int .i64))
  | .string "pair_map" => .ok .pairMap
  | .string "json" => .ok .json
  | _ => malformed

def asPairEntry : Json → Reading ((Int × Int) × Int)
  | .array [a, b, value] => do pure ((← asInt a, ← asInt b), ← asInt value)
  | _ => malformed

def asValue (kind : Kind) (json : Json) : Reading kind.Value :=
  match kind with
  | .float => asFloat json
  | .pairMap => do
    let entries ← (← asList json).mapM asPairEntry
    pure (.ofList entries)
  | kind => ofOption (kind.decode json)

structure Assignment where
  kind : Kind
  key : ContextKey kind
  value : kind.Value

def asAssignment (name kind value : Json) : Reading Assignment := do
  let kind ← asKind kind
  let value ← asValue kind value
  pure ⟨kind, ⟨← asText name⟩, value⟩

def Assignment.put (assignment : Assignment) (context : Context) : Except Error Context :=
  context.put assignment.key assignment.value

def putEntry (context : Context) : Json → Reading Context
  | .array [name, kind, value] => do ofExcept ((← asAssignment name kind value).put context)
  | _ => malformed

def asContext : Json → Reading Context
  | .null => .ok .empty
  | .array entries => entries.foldlM putEntry .empty
  | json => loaded Context.load (part json "json")

end FlowGraph.Script
