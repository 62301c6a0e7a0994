import FlowGraph.Script.Actor
import FlowGraph.Script.Reader.Value

/-! Reading predicates, conditions and snapshots. Conditions nest at most as deep as JSON does. -/

namespace FlowGraph.Script

open Reading

def asPanic (json message : Json) : Reading Panic := do
  let message ← asText message
  match part json "as" with
  | .null | .string "string" => .ok (.text message)
  | .string "other" => .ok .other
  | _ => malformed

def asPredicate (json : Json) : Reading Predicate := do
  match ← text json "p" with
  | "const" =>
    match part json "v" with
    | .bool value => .ok (.const value)
    | _ => .ok (.const false)
  | "data_eq" => .ok (.dataEquals (part json "v"))
  | "data_gt" => .ok (.dataAbove (← asFloat (part json "v")))
  | "visits_ge" => .ok (.visitedAtLeast (← ident json "node") (← nat json "n"))
  | "at" => .ok (.standsAt (← ident json "node"))
  | "depth_ge" => .ok (.depthAtLeast (← nat json "n"))
  | "version_ge" => .ok (.versionAtLeast (← nat json "n"))
  | "panic" => .ok (.panics (← asPanic json (part json "v")))
  | _ => malformed

def hasForm (kind : Kind) (expected : Json) (value : kind.Value) : Attempt Bool :=
  match kind.encode value with
  | .ok form => .ok (form.same expected)
  | .error _ => .ok false

def negated (condition : Condition Json) : Nat → Condition Json
  | 0 => condition
  | times + 1 => .negation (negated condition times)

def asLeaf (json : Json) (name : String) : Reading (Condition Json) := do
  let kind ← orElse asKind .json json "type"
  let key : Reading (ContextKey kind) := (text json "key").map (⟨·⟩)
  match name with
  | "always" | "default" => .ok .always
  | "never" => .ok .never
  | "when" =>
    let predicate ← asPredicate (part json "pred")
    .ok (.whole (← text json "desc") predicate.holds)
  | "when_context" => .ok (.value (← key) (← text json "desc") (hasForm kind (part json "eq")))
  | "present" => .ok (.present (← key).name)
  | "equals" => .ok (.equals (← key) (← asValue kind (part json "v")))
  | "gt" => .ok (.greater (← key).name (← asFloat (part json "v")))
  | "lt" => .ok (.less (← key).name (← asFloat (part json "v")))
  | _ => malformed

def asConditionWithin : (nesting : Nat) → Json → Reading (Condition Json)
  | 0, _ => malformed
  | nesting + 1, json => do
    let operand (name : String) := asConditionWithin nesting (part json name)
    match ← text json "c" with
    | "and" | "and_shared" => .ok (.both (← operand "a") (← operand "b"))
    | "or" | "or_shared" => .ok (.either (← operand "a") (← operand "b"))
    | "not" => .ok (.negation (← operand "a"))
    | "not_n" => .ok (negated (← operand "a") (← nat json "n"))
    | name => asLeaf json name

def asCondition (json : Json) : Reading (Condition Json) := asConditionWithin 128 json

def asSnapshot (now : Instant) (json : Json) : Reading (Snapshot Json) := do
  match json, given json "json" with
  | .object _, some stored => loaded (Snapshot.load Json.loadJson) stored
  | .object _, none => do
    let id : WorkflowId ← ofExcept (Ident.ofText (← textOr json "id" "wf"))
    let context ← asContext (part json "context")
    let data := part json "data"
    let first ←
      match given json "start" with
      | some node => do pure (Snapshot.initial id data context (← asIdent node) now)
      | none =>
        let snapshot := Snapshot.new id data now
        pure (if context.isEmpty then snapshot else snapshot.withContext context now)
    (← listOr json "moves").foldlM
      (fun snapshot node => do pure (snapshot.moveTo (← asIdent node) now)) first
  | _, _ => malformed

end FlowGraph.Script
