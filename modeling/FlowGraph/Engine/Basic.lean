import FlowGraph.Config
import FlowGraph.Engine.Merge
import FlowGraph.Graph.Topology
import FlowGraph.Notice.Monitor
import FlowGraph.Program

/-! The engine of a workflow: its graph, who looks on, who starts branches, and how they are merged. -/

namespace FlowGraph

/-- Whether a loop runs a workflow or a branch of a fork. -/
inductive Mode where
  | root
  | branch
  deriving DecidableEq

structure Engine (W S : Type) where
  topology : Topology W S
  observer : Observer W S
  executor : Effect W Bool
  merger : Merger W S
  config : ExecutionConfig
  /-- The text of the panic that asking for a timer is; none if there are timers. -/
  timers : Option String

namespace Engine
variable {W S : Type}

/-- The readings of one step: those for the updates of a command come first. -/
def dataReading : Nat := 1
def edgeReading : Nat := 2
def moveReading : Nat := 3

def withUpdates (snapshot : Snapshot S) (updates : Context) (data : Option S)
    (readings : Readings) : Snapshot S :=
  let next := if updates.isEmpty then snapshot else snapshot.mergeContext updates (readings 0)
  match data with
  | some data => next.withData data (readings dataReading)
  | none => next

end Engine

end FlowGraph
