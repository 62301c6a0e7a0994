import FlowGraph.Notice.Monitor

/-! Events: the notifications of a run in a form that can be published and stored. -/

namespace FlowGraph

inductive Event where
  | workflowStarted (workflow : WorkflowId) (entry : NodeId)
  | nodeStarted (workflow : WorkflowId) (node : NodeId) (depth : Nat)
  | nodeCompleted (workflow : WorkflowId) (node : NodeId) (command : String)
  | stateUpdated (workflow : WorkflowId) (version : Nat)
  | workflowSuspended (workflow : WorkflowId) (node : Option NodeId) (id reason : String)
  | workflowResumed (workflow : WorkflowId) (node : Option NodeId)
  | workflowCompleted (workflow : WorkflowId) (depth version : Nat)
  | workflowError (workflow : Option WorkflowId) (error : String)
  deriving DecidableEq

namespace Event

def name : Event → String
  | workflowStarted .. => "workflow_started"
  | nodeStarted .. => "node_started"
  | nodeCompleted .. => "node_completed"
  | stateUpdated .. => "state_updated"
  | workflowSuspended .. => "workflow_suspended"
  | workflowResumed .. => "workflow_resumed"
  | workflowCompleted .. => "workflow_completed"
  | workflowError .. => "workflow_error"

def fields : Event → List (String × Json)
  | workflowStarted workflow entry =>
    [("workflow_id", workflow.toJson), ("entry_node", entry.toJson)]
  | nodeStarted workflow node depth =>
    [("workflow_id", workflow.toJson), ("node_id", node.toJson), ("depth", .ofNat depth)]
  | nodeCompleted workflow node command =>
    [("workflow_id", workflow.toJson), ("node_id", node.toJson), ("command", .string command)]
  | stateUpdated workflow version =>
    [("workflow_id", workflow.toJson), ("version", .ofNat version)]
  | workflowSuspended workflow node id reason =>
    [("workflow_id", workflow.toJson), ("node_id", Json.ofOption Ident.toJson node),
     ("suspension_id", .string id), ("reason", .string reason)]
  | workflowResumed workflow node =>
    [("workflow_id", workflow.toJson), ("node_id", Json.ofOption Ident.toJson node)]
  | workflowCompleted workflow depth version =>
    [("workflow_id", workflow.toJson), ("depth", .ofNat depth), ("version", .ofNat version)]
  | workflowError workflow error =>
    [("workflow_id", Json.ofOption Ident.toJson workflow), ("error", .string error)]

def toJson (event : Event) : Json := .ofFields (("type", .string event.name) :: event.fields)

def ofNotice? {S : Type} : Notice S → Option Event
  | .workflowStarted snapshot => snapshot.currentNode.map (workflowStarted snapshot.workflow)
  | .nodeStarted node snapshot => some (nodeStarted snapshot.workflow node snapshot.depth)
  | .nodeCompleted node snapshot command =>
    some (nodeCompleted snapshot.workflow node command.kind)
  | .stateUpdated _ current => some (stateUpdated current.workflow current.version)
  | .workflowSuspended snapshot id reason =>
    some (workflowSuspended snapshot.workflow snapshot.currentNode id reason)
  | .workflowResumed snapshot => some (workflowResumed snapshot.workflow snapshot.currentNode)
  | .workflowCompleted snapshot =>
    some (workflowCompleted snapshot.workflow snapshot.depth snapshot.version)
  | .workflowError snapshot error =>
    some (workflowError (snapshot.map Snapshot.workflow) error.message)

end Event

def Monitor.publishing {W S : Type} (publish : Event → W → W) : Monitor W S := fun notice _ world =>
  match Event.ofNotice? notice with
  | some event => (.ok (), publish event world)
  | none => (.ok (), world)

end FlowGraph
