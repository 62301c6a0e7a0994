import FlowGraph.Engine.Outcome
import FlowGraph.Graph.Node

/-!
Monitors look on while a workflow runs. A monitor may panic; whoever notifies it goes on all the same.
-/

namespace FlowGraph

/-- The notifications of a run. -/
inductive Notice (S : Type) where
  | workflowStarted (snapshot : Snapshot S)
  | nodeStarted (node : NodeId) (snapshot : Snapshot S)
  | nodeCompleted (node : NodeId) (snapshot : Snapshot S) (command : Command S)
  | stateUpdated (previous current : Snapshot S)
  | workflowSuspended (snapshot : Snapshot S) (id reason : String)
  | workflowResumed (snapshot : Snapshot S)
  | workflowCompleted (snapshot : Snapshot S)
  | workflowError (snapshot : Option (Snapshot S)) (error : Error)

def Notice.hook {S : Type} : Notice S → String
  | workflowStarted _ => "on_workflow_started"
  | nodeStarted .. => "on_node_started"
  | nodeCompleted .. => "on_node_completed"
  | stateUpdated .. => "on_state_updated"
  | workflowSuspended .. => "on_workflow_suspended"
  | workflowResumed _ => "on_workflow_resumed"
  | workflowCompleted _ => "on_workflow_completed"
  | workflowError .. => "on_workflow_error"

abbrev Monitor (W S : Type) := Notice S → Effect W (Attempt Unit)

abbrev Observer (W S : Type) := Notice S → Effect W Unit

inductive TraceLevel where
  | debug
  | info
  | warn
  | error

def TraceLevel.name : TraceLevel → String
  | debug => "DEBUG"
  | info => "INFO"
  | warn => "WARN"
  | error => "ERROR"

structure Trace where
  level : TraceLevel
  message : String
  fields : List (String × String)

abbrev Tracer (W : Type) := Trace → Effect W Unit

namespace Monitor
variable {W S : Type}

def silent : Monitor W S := fun _ => .pure (.ok ())

/-- Traces a panic of the monitor and goes on. -/
def guarded (tracer : Tracer W) (monitor : Monitor W S) : Observer W S := fun notice =>
  (monitor notice).andThen fun
    | .ok () => .pure ()
    | .error panic =>
      tracer ⟨.warn, "Workflow monitor panicked, ignoring",
        [("hook", Text.quoted notice.hook), ("panic", panic.message)]⟩

/-- Notifies each monitor in order; a panic of one does not reach the others. -/
def composite (tracer : Tracer W) (monitors : List (Monitor W S)) : Monitor W S := fun notice =>
  (Effect.each (fun monitor => monitor.guarded tracer notice) monitors).map .ok

def quotedNode (snapshot : Snapshot S) : String :=
  NodeMetadata.describeOption (snapshot.currentNode.map Ident.text)

def line? : Notice S → Option Trace
  | .workflowStarted snapshot =>
    some ⟨.info, "Workflow started",
      [("workflow_id", snapshot.workflow.text), ("entry", quotedNode snapshot)]⟩
  | .nodeStarted node snapshot =>
    some ⟨.debug, "Executing graph node",
      [("workflow_id", snapshot.workflow.text), ("node_id", node.text),
       ("depth", toString snapshot.depth)]⟩
  | .nodeCompleted node snapshot command =>
    some ⟨.debug, "Node execution complete",
      [("workflow_id", snapshot.workflow.text), ("node_id", node.text),
       ("command", Text.quoted command.kind)]⟩
  | .stateUpdated .. => none
  | .workflowSuspended snapshot id reason =>
    some ⟨.info, "Workflow suspended",
      [("workflow_id", snapshot.workflow.text), ("node_id", quotedNode snapshot),
       ("suspension_id", Text.quoted id), ("reason", Text.quoted reason)]⟩
  | .workflowResumed snapshot =>
    some ⟨.info, "Workflow resumed",
      [("workflow_id", snapshot.workflow.text), ("node_id", quotedNode snapshot),
       ("version", toString snapshot.version)]⟩
  | .workflowCompleted snapshot =>
    some ⟨.info, "Workflow completed",
      [("workflow_id", snapshot.workflow.text), ("steps", toString snapshot.trace.length),
       ("version", toString snapshot.version)]⟩
  | .workflowError snapshot error =>
    some ⟨.error, "Workflow failed",
      [("workflow_id", NodeMetadata.describeOption (snapshot.map fun s => s.workflow.text)),
       ("error", error.message)]⟩

def tracing (tracer : Tracer W) : Monitor W S := fun notice =>
  match line? notice with
  | some trace => (tracer trace).map .ok
  | none => .pure (.ok ())

end Monitor

end FlowGraph
