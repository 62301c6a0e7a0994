import FlowGraph.Graph.Edge

/-!
Commands: what a node wants to happen after it has processed a snapshot. Every command may carry
context updates; those that go on or finish may carry a new payload.
-/

namespace FlowGraph

inductive ForkStrategy where
  | parallel
  | sequential
  /-- In parallel, but only the branches whose condition holds. -/
  | conditional
  deriving DecidableEq, Inhabited

namespace ForkStrategy

def name : ForkStrategy → String
  | parallel => "parallel"
  | sequential => "sequential"
  | conditional => "conditional"

def ofName? : String → Option ForkStrategy
  | "parallel" => some parallel
  | "sequential" => some sequential
  | "conditional" => some conditional
  | _ => none

def load : Json.Load ForkStrategy := Json.loadName ofName?

end ForkStrategy

inductive WaitPolicy where
  | all
  | any
  | majority
  deriving DecidableEq, Inhabited

namespace WaitPolicy

def name : WaitPolicy → String
  | all => "wait_all"
  | any => "wait_any"
  | majority => "wait_majority"

def ofName? : String → Option WaitPolicy
  | "wait_all" => some all
  | "wait_any" => some any
  | "wait_majority" => some majority
  | _ => none

def load : Json.Load WaitPolicy := Json.loadName ofName?

def isSatisfied (policy : WaitPolicy) (reported total : Nat) : Bool :=
  match policy with
  | all => total ≤ reported
  | any => 1 ≤ reported
  | majority => total < reported * 2

end WaitPolicy

inductive Action (S : Type) where
  | traverse (target : NodeId) (condition : Option (Condition S)) (data : Option S)
  | fork (targets : List NodeId) (strategy : ForkStrategy)
      (conditions : Dict NodeId (Condition S)) (data : Option S)
  | join (node : NodeId) (policy : WaitPolicy) (timeout : Option Span) (data : Option S)
  | suspend (id reason : String) (timeout : Option Span)
  | complete (data : Option S)
  | error (message : String) (recoverable : Bool) (fallback : Option NodeId)

structure Command (S : Type) where
  action : Action S
  updates : Context

namespace Command
variable {S : Type}

def ofAction (action : Action S) : Command S := ⟨action, .empty⟩

def traverse (target : NodeId) : Command S := ofAction (.traverse target none none)

def distinct (nodes : List NodeId) : List NodeId :=
  nodes.foldl (fun kept node => if kept.contains node then kept else kept ++ [node]) []

def fork (targets : List NodeId) : Except Error (Command S) :=
  if targets.isEmpty then .error (.invalidCommand "fork requires at least one target")
  else .ok (ofAction (.fork (distinct targets) default .empty none))

def join (node : NodeId) : Command S := ofAction (.join node default none none)

def suspend (id reason : String) : Except Error (Command S) :=
  if Text.allBlank id then .error (.invalidCommand "suspension id must not be empty")
  else if Text.allBlank reason then .error (.invalidCommand "suspension reason must not be empty")
  else .ok (ofAction (.suspend id reason none))

/-- The suspension that stands for a panic of a node. -/
def executionError (message : String) : Command S :=
  let reason :=
    if Text.allBlank message then "node execution panicked"
    else "node execution panicked: " ++ message
  ofAction (.suspend "execution-error" reason none)

def complete : Command S := ofAction (.complete none)

def error (message : String) : Command S := ofAction (.error message false none)

def recoverableError (message : String) (fallback : NodeId) : Command S :=
  ofAction (.error message true (some fallback))

def withContext (command : Command S) (updates : Context) : Command S := { command with updates }

def withContextValue {kind : Kind} (command : Command S) (key : ContextKey kind)
    (value : kind.Value) : Except Error (Command S) := do
  let updates ← command.updates.put key value
  pure { command with updates }

/-- Suspensions and errors never change the payload. -/
def withData (command : Command S) (data : S) : Command S :=
  match command.action with
  | .traverse target condition _ =>
    { command with action := .traverse target condition (some data) }
  | .fork targets strategy conditions _ =>
    { command with action := .fork targets strategy conditions (some data) }
  | .join node policy timeout _ => { command with action := .join node policy timeout (some data) }
  | .complete _ => { command with action := .complete (some data) }
  | .suspend .. | .error .. => command

def withCondition (command : Command S) (condition : Condition S) : Command S :=
  match command.action with
  | .traverse target _ data => { command with action := .traverse target (some condition) data }
  | _ => command

def withStrategy (command : Command S) (strategy : ForkStrategy) : Command S :=
  match command.action with
  | .fork targets _ conditions data =>
    { command with action := .fork targets strategy conditions data }
  | _ => command

def withBranchCondition (command : Command S) (target : NodeId) (condition : Condition S) :
    Command S :=
  match command.action with
  | .fork targets strategy conditions data =>
    { command with action := .fork targets strategy (conditions.insert target condition) data }
  | _ => command

def withPolicy (command : Command S) (policy : WaitPolicy) : Command S :=
  match command.action with
  | .join node _ timeout data => { command with action := .join node policy timeout data }
  | _ => command

def withTimeout (command : Command S) (timeout : Span) : Command S :=
  match command.action with
  | .join node policy _ data => { command with action := .join node policy (some timeout) data }
  | .suspend id reason _ => { command with action := .suspend id reason (some timeout) }
  | _ => command

def kind (command : Command S) : String :=
  match command.action with
  | .traverse .. => "traverse"
  | .fork .. => "fork"
  | .join .. => "join"
  | .suspend .. => "suspend"
  | .complete .. => "complete"
  | .error .. => "error"

def isTerminal (command : Command S) : Bool :=
  match command.action with
  | .suspend .. | .complete .. | .error .. => true
  | _ => false

end Command

end FlowGraph
