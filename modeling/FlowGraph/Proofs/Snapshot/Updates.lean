import FlowGraph.Engine.Basic
import FlowGraph.Proofs.Dict

/-!
What the updates and the payload of a command make of a snapshot, and what a move does. The context is merged once,
whether or not there are any updates; nothing but the context, the payload and the revision changes. A move changes
nothing but the position and the revision.
-/

namespace FlowGraph

theorem Context.merge_of_isEmpty (context : Context) {updates : Context} (nothing : updates.isEmpty = true) :
    context.merge updates = context := by
  have none : updates.entries.entries = [] := List.isEmpty_iff.mp nothing
  simp only [merge, Dict.union, none]
  rfl

namespace Snapshot
variable {S : Type} (snapshot : Snapshot S) (node : NodeId) (move : Position → Position) (now : Instant)

@[simp] theorem position_reposition :
    (snapshot.reposition node move now).position = some ((snapshot.position.map move).getD (.start node)) := by
  unfold reposition
  cases snapshot.position <;> rfl

@[simp] theorem context_reposition : (snapshot.reposition node move now).context = snapshot.context := by
  unfold reposition
  split <;> rfl

@[simp] theorem data_reposition : (snapshot.reposition node move now).data = snapshot.data := by
  unfold reposition
  split <;> rfl

@[simp] theorem workflow_reposition : (snapshot.reposition node move now).workflow = snapshot.workflow := by
  unfold reposition
  split <;> rfl

theorem revision_reposition : (snapshot.reposition node move now).revision = snapshot.revision.advance now := by
  unfold reposition
  split <;> rfl

@[simp] theorem created_reposition :
    (snapshot.reposition node move now).revision.created = snapshot.revision.created := by
  rw [revision_reposition]
  rfl

end Snapshot

namespace Engine
variable {S : Type} (snapshot : Snapshot S) (updates : Context) (data : Option S) (readings : Readings)

@[simp] theorem context_withUpdates :
    (withUpdates snapshot updates data readings).context = snapshot.context.merge updates := by
  have merged : (if updates.isEmpty then snapshot else snapshot.mergeContext updates (readings 0)).context =
      snapshot.context.merge updates := by
    split
    · rename_i nothing
      exact (snapshot.context.merge_of_isEmpty nothing).symm
    · rfl
  cases data with
  | none => exact merged
  | some data => exact merged

@[simp] theorem data_withUpdates :
    (withUpdates snapshot updates data readings).data = data.getD snapshot.data := by
  cases data with
  | none =>
      simp only [withUpdates]
      split <;> rfl
  | some data => rfl

@[simp] theorem position_withUpdates :
    (withUpdates snapshot updates data readings).position = snapshot.position := by
  cases data <;> simp only [withUpdates] <;> split <;> rfl

end Engine
end FlowGraph
