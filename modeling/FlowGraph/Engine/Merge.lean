import FlowGraph.Engine.Outcome
import FlowGraph.Program.Effect

/-! Merging the branches of a fork into the payload and context that go on at the join. -/

namespace FlowGraph

structure JoinedBranch (S : Type) where
  branch : NodeId
  joinNode : NodeId
  snapshot : Snapshot S

structure Merged (S : Type) where
  data : S
  context : Context

/-- A merger sees the snapshot of the fork and the joined branches in the order they joined. -/
abbrev Merger (W S : Type) :=
  Snapshot S → List (JoinedBranch S) → Effect W (Attempt (Except Error (Merged S)))

/-- The contexts of the branches over that of the fork, the branch that joined last counting most; the
payload is that of the last branch. -/
def lastWriterWins {S : Type} (base : Snapshot S) (branches : List (JoinedBranch S)) : Merged S where
  data := (branches.getLast?.map fun joined => joined.snapshot.data).getD base.data
  context := branches.foldl (fun context joined => context.merge joined.snapshot.context) base.context

def Merger.lastWriterWins {W S : Type} : Merger W S := fun base branches =>
  .pure (.ok (.ok (FlowGraph.lastWriterWins base branches)))

end FlowGraph
