import FlowGraph.Script.Reader.Condition

/-! Reading errors, commands and acts. -/

namespace FlowGraph.Script

open Reading

def asSpan (json : Json) : Reading Span :=
  match asNat json with
  | .ok millis => .ok (.ofMillis millis)
  | .error _ => loaded Span.load json

def asError (json : Json) : Reading Error := do
  let message := text json "message"
  let node := ident json "node"
  match ← text json "kind" with
  | "InvalidId" => .ok (.invalidId (← message))
  | "InvalidMetadata" => .ok (.invalidMetadata (← message))
  | "InvalidPosition" => .ok (.invalidPosition (← message))
  | "InvalidCommand" => .ok (.invalidCommand (← message))
  | "Validation" => .ok (.validation (← (← list json "errors").mapM asText))
  | "MissingOutputExtractor" => .ok .missingOutputExtractor
  | "NodeNotFound" => .ok (.nodeNotFound (← node))
  | "Traversal" => .ok (.traversal (← ident json "from") (← ident json "to") (← message))
  | "StateValidation" => .ok (.stateValidation (← node) (← message))
  | "NodeExecution" => .ok (.nodeExecution (← node) (← message))
  | "Command" => .ok (.command (← node) (← message) (← flag json "recoverable"))
  | "JoinTimeout" => .ok (.joinTimeout (← node) (← asSpan (part json "timeout")))
  | "MaxStepsExceeded" => .ok (.maxStepsExceeded (← nat json "limit"))
  | "VisitLimitExceeded" => .ok (.visitLimitExceeded (← node) (← nat json "limit"))
  | "Unpositioned" => .ok .unpositioned
  | "Resume" => .ok (.resume (← message))
  | "OutputExtraction" => .ok (.outputExtraction (← message))
  | "TaskJoin" => .ok (.taskJoin (← message))
  | "Config" => .ok (.config (← message))
  | "ConfigNotFound" => .ok (.configNotFound (← message))
  | "Io" => .ok (.io (← message))
  | "Json" => .ok (.ofProblem (← message))
  | _ => malformed

/-- An error to report; a fault in its description is reported in its place. -/
def asReport (json : Json) : Reading Error :=
  match asError json with
  | .error (.failed error) => .ok error
  | reading => reading

def asPayloadRule : Json → Reading PayloadRule
  | .object [("lit", value)] => .ok (.literal value)
  | .object [("append", item)] => .ok (.append item)
  | .object [("add", amount)] => (asInt amount).map .add
  | _ => malformed

abbrev Amendment := Json → Command Json → Except Error (Command Json)

def asAmendment : Json → Reading Amendment
  | .object [("context", json)] => do
    let context ← deferred (asContext json)
    pure fun _ command => context.map command.withContext
  | .object [("put", .array [name, kind, value])] => do
    let assignment ← asAssignment name kind value
    pure fun _ command => command.withContextValue assignment.key assignment.value
  | .object [("data", json)] => do
    let rule ← asPayloadRule json
    pure fun payload command => .ok (command.withData (rule.apply payload))
  | .object [("condition", json)] => do
    let condition ← deferred (asCondition json)
    pure fun _ command => condition.map command.withCondition
  | .object [("strategy", json)] => do
    let strategy ← deferred (loaded ForkStrategy.load json)
    pure fun _ command => strategy.map command.withStrategy
  | .object [("branch_condition", .array [node, json])] => do
    let node ← deferred (asIdent node)
    let condition ← deferred (asCondition json)
    pure fun _ command => do pure (command.withBranchCondition (← node) (← condition))
  | .object [("policy", json)] => do
    let policy ← deferred (loaded WaitPolicy.load json)
    pure fun _ command => policy.map command.withPolicy
  | .object [("timeout", json)] => do
    let timeout ← deferred (asSpan json)
    pure fun _ command => timeout.map command.withTimeout
  | _ => malformed

/-- A command without its amendments. The raw forms are not checked. -/
def asBase (json : Json) : Reading (Command Json) := do
  let targets (_ : Unit) : Reading (List NodeId) := do (← list json "targets").mapM asIdent
  match ← text json "kind" with
  | "traverse" => .ok (.traverse (← ident json "target"))
  | "fork" => ofExcept (Command.fork (← targets ()))
  | "raw_fork" => .ok (.ofAction (.fork (← targets ()) default .empty none))
  | "join" => .ok (.join (← ident json "target"))
  | "suspend" => ofExcept (Command.suspend (← text json "id") (← text json "reason"))
  | "raw_suspend" => .ok (.ofAction (.suspend (← text json "id") (← text json "reason") none))
  | "execution_error" => .ok (.executionError (← text json "message"))
  | "complete" => .ok .complete
  | "error" => .ok (.error (← text json "message"))
  | "recoverable_error" =>
    .ok (.recoverableError (← text json "message") (← ident json "fallback"))
  | "raw_error" =>
    let fallback ← optional asIdent json "fallback"
    .ok (.ofAction (.error (← text json "message") (← flag json "recoverable") fallback))
  | _ => malformed

def asRecipe (json : Json) : Reading Recipe := do
  let base ← deferred (asBase json)
  pure ⟨base, ← (← listOr json "mods").mapM asAmendment⟩

def asActWithin : (nesting : Nat) → Json → Reading Act
  | 0, _ => malformed
  | nesting + 1, json =>
    match given json "if", given json "panic", given json "fail" with
    | some condition, _, _ => do
      let condition ← deferred (asCondition condition)
      let yes ← asActWithin nesting (part json "then")
      let no ← asActWithin nesting (part json "else")
      pure (.choose condition yes no)
    | none, some message, _ => do pure (.collapse (← asPanic json message))
    | none, none, some error => do pure (.fail (← asReport error))
    | none, none, none => do pure (.command (← asRecipe json))

def asAct (json : Json) : Reading Act := asActWithin 128 json

end FlowGraph.Script
