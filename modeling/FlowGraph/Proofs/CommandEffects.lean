import FlowGraph.Proofs.LastWriter
import FlowGraph.Proofs.Loop.Congruence
import FlowGraph.Proofs.Loop.Progress
import FlowGraph.Proofs.Traversal

/-!
What an accepted command changes. Its updates are merged into the context once and its payload replaces the one
before, whatever the command is; and nothing else changes, up to the one move that a traversal, a join outside of
a branch, or a recovery makes. The branches of a fork begin where that has been done, and what goes on at their join
is what the merger has answered.
-/

namespace FlowGraph
variable {W S : Type}

def Command.data? (command : Command S) : Option S :=
  match command.action with
  | .traverse _ _ data | .fork _ _ _ data | .join _ _ _ data | .complete data => data
  | .suspend .. | .error .. => none

def Step.snapshot? : Step S → Option (Snapshot S)
  | .proceed next => some next
  | .finish outcome => outcome.snapshot?
  | .fork request => some request.base

namespace Engine

structure TakesEffect (command : Command S) (snapshot made : Snapshot S) : Prop where
  context : made.context = snapshot.context.merge command.updates
  payload : made.data = command.data?.getD snapshot.data
  workflow : made.workflow = snapshot.workflow
  created : made.revision.created = snapshot.revision.created

theorem TakesEffect.moved {command : Command S} {snapshot made : Snapshot S}
    (effect : TakesEffect command snapshot made) (node : NodeId) (move : Position → Position) (now : Instant) :
    TakesEffect command snapshot (made.reposition node move now) := by
  constructor
  · rw [Snapshot.context_reposition, effect.context]
  · rw [Snapshot.data_reposition, effect.payload]
  · rw [Snapshot.workflow_reposition, effect.workflow]
  · rw [Snapshot.created_reposition, effect.created]

section
variable {engine : Engine W S} {mode : Mode} {current : NodeId} {snapshot : Snapshot S} {command : Command S}
  {readings : Readings}

end

section

end

end Engine
end FlowGraph
