import FlowGraph.Snapshot.Context
import FlowGraph.Snapshot.Revision

/-!
Snapshots of a workflow: payload, context, position and revision. A snapshot never changes; each
operation gives the next one, with a higher version and the time that the clock showed.
-/

namespace FlowGraph

structure Snapshot (S : Type) where
  workflow : WorkflowId
  data : S
  context : Context
  position : Option Position
  revision : Revision

namespace Snapshot
variable {S : Type}

def new (workflow : WorkflowId) (data : S) (now : Instant) : Snapshot S :=
  ⟨workflow, data, .empty, none, .first now⟩

def initial (workflow : WorkflowId) (data : S) (context : Context) (node : NodeId) (now : Instant) :
    Snapshot S :=
  ⟨workflow, data, context, some (.start node), .first now⟩

def currentNode (snapshot : Snapshot S) : Option NodeId := snapshot.position.map Position.current

def version (snapshot : Snapshot S) : Nat := snapshot.revision.version

def trace (snapshot : Snapshot S) : List NodeId :=
  match snapshot.position with
  | some position => position.visited
  | none => []

def depth (snapshot : Snapshot S) : Nat :=
  match snapshot.position with
  | some position => position.depth
  | none => 0

def visitCount (snapshot : Snapshot S) (node : NodeId) : Nat :=
  match snapshot.position with
  | some position => position.visitCount node
  | none => 0

def advanced (snapshot : Snapshot S) (now : Instant) : Snapshot S :=
  { snapshot with revision := snapshot.revision.advance now }

def withData (snapshot : Snapshot S) (data : S) (now : Instant) : Snapshot S :=
  { snapshot.advanced now with data }

def withContext (snapshot : Snapshot S) (context : Context) (now : Instant) : Snapshot S :=
  { snapshot.advanced now with context }

def withContextValue {kind : Kind} (snapshot : Snapshot S) (key : ContextKey kind)
    (value : kind.Value) (now : Instant) : Except Error (Snapshot S) := do
  let context ← snapshot.context.put key value
  pure (snapshot.withContext context now)

def mergeContext (snapshot : Snapshot S) (updates : Context) (now : Instant) : Snapshot S :=
  snapshot.withContext (snapshot.context.merge updates) now

def withPosition (snapshot : Snapshot S) (position : Position) (now : Instant) : Snapshot S :=
  { snapshot.advanced now with position := some position }

/-- Changes the position; a snapshot without one gets a position at the node. -/
def reposition (snapshot : Snapshot S) (node : NodeId) (move : Position → Position)
    (now : Instant) : Snapshot S :=
  match snapshot.position with
  | some position => snapshot.withPosition (move position) now
  | none => snapshot.withPosition (.start node) now

def moveTo (snapshot : Snapshot S) (node : NodeId) (now : Instant) : Snapshot S :=
  snapshot.reposition node (·.moveTo node) now

def traverse (snapshot : Snapshot S) (edge : EdgeId) (node : NodeId) (time now : Instant) :
    Snapshot S :=
  snapshot.reposition node (·.traverse edge node time) now

def resetTo (snapshot : Snapshot S) (node : NodeId) (now : Instant) : Snapshot S :=
  snapshot.reposition node (·.resetTo node) now

def advancedPast (snapshot : Snapshot S) (floor : Nat) (now : Instant) : Snapshot S :=
  { snapshot with revision := snapshot.revision.advancePast floor now }

def toJson (stamp : Instant → String) (data : S → Json) (snapshot : Snapshot S) : Json :=
  .ofFields
    [("workflow_id", snapshot.workflow.toJson), ("data", data snapshot.data),
     ("context", snapshot.context.toJson),
     ("position", Json.ofOption (Position.toJson stamp) snapshot.position),
     ("metadata", snapshot.revision.toJson stamp)]

def load (data : Json.Load S) : Json.Load (Snapshot S) :=
  Json.loadRecord true <|
    mk <$> Json.required "workflow_id" Ident.load
      <*> Json.required "data" data
      <*> Json.required "context" Context.load
      <*> Json.nullable "position" Position.load
      <*> Json.required "metadata" Revision.load

end Snapshot

end FlowGraph
