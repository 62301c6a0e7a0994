import FlowGraph.Engine.Basic
import FlowGraph.Proofs.Containment.Step
import FlowGraph.Proofs.LastWriter

/-!
How snapshots go forward. No change of a snapshot takes back a visit, a version or a time; a move adds a visit.
-/

namespace FlowGraph

namespace Instant

theorem before_trans {a b c : Instant} (first : b.before a = false) (second : c.before b = false) :
    c.before a = false := by
  simp only [before, Bool.or_eq_false_iff, decide_eq_false_iff_not, Bool.and_eq_false_iff,
    beq_eq_false_iff_ne] at first second ⊢
  omega

theorem before_irrefl (a : Instant) : a.before a = false := by simp [before]

theorem before_asymm {a b : Instant} (earlier : a.before b = true) : b.before a = false := by
  simp only [before, Bool.or_eq_true, decide_eq_true_eq, Bool.and_eq_true, beq_iff_eq,
    Bool.or_eq_false_iff, decide_eq_false_iff_not, Bool.and_eq_false_iff, beq_eq_false_iff_ne] at earlier ⊢
  omega

theorem later_not_before (a b : Instant) : (a.later b).before a = false := by
  unfold later
  split
  · exact before_asymm ‹_›
  · exact before_irrefl a

theorem later_not_before_right (a b : Instant) : (a.later b).before b = false := by
  unfold later
  split
  · exact before_irrefl b
  · exact Bool.eq_false_iff.mpr ‹_›

theorem later_eq (a b : Instant) : a.later b = a ∨ a.later b = b := by
  unfold later
  split
  · exact .inr rfl
  · exact .inl rfl

end Instant

namespace Position

theorem visited_moveTo (position : Position) (node : NodeId) :
    (position.moveTo node).visited = position.visited ++ [node] := by
  simp [moveTo, push, visited]

theorem visited_traverse (position : Position) (edge : EdgeId) (node : NodeId) (time : Instant) :
    (position.traverse edge node time).visited = position.visited ++ [node] :=
  visited_moveTo position node

theorem visited_resetTo (position : Position) (node : NodeId) :
    (position.resetTo node).visited = position.visited ++ [node] := by
  simp [resetTo, push, visited]

end Position

namespace Snapshot
variable {S : Type}

/-- The last snapshot belongs to the same run and has come after the first one, or is the same. -/
structure Continues (first last : Snapshot S) : Prop where
  workflow : last.workflow = first.workflow
  created : last.revision.created = first.revision.created
  version : first.version ≤ last.version
  modified : last.revision.modified.before first.revision.modified = false
  history : first.trace <+: last.trace

structure Advances (previous next : Snapshot S) : Prop extends previous.Continues next where
  rises : previous.version < next.version
  moves : ∃ walk, walk ≠ [] ∧ next.trace = previous.trace ++ walk

def KeepsKeys (first last : Snapshot S) : Prop :=
  ∀ name, first.context.contains name = true → last.context.contains name = true

namespace Continues
variable {first middle last : Snapshot S}

theorem refl (snapshot : Snapshot S) : snapshot.Continues snapshot :=
  ⟨rfl, rfl, Nat.le_refl _, Instant.before_irrefl _, List.prefix_refl _⟩

theorem trans (before : first.Continues middle) (after : middle.Continues last) : first.Continues last :=
  ⟨after.workflow.trans before.workflow, after.created.trans before.created,
    Nat.le_trans before.version after.version, Instant.before_trans before.modified after.modified,
    before.history.trans after.history⟩

theorem advances (before : first.Continues middle) (after : middle.Advances last) : first.Advances last := by
  obtain ⟨walk, moved, visits⟩ := after.moves
  obtain ⟨earlier, same⟩ := before.history
  refine ⟨before.trans after.toContinues, Nat.lt_of_le_of_lt before.version after.rises, earlier ++ walk, ?_, ?_⟩
  · simp [moved]
  · rw [visits, ← same, List.append_assoc]

theorem of_revision {now : Instant} (workflow : last.workflow = first.workflow)
    (revision : last.revision = first.revision.advance now) (history : first.trace <+: last.trace) :
    first.Continues last := by
  refine ⟨workflow, by rw [revision]; rfl, ?_, ?_, history⟩
  · rw [Snapshot.version, Snapshot.version, revision]
    exact Nat.le_succ _
  · rw [revision]
    exact Instant.later_not_before _ _

end Continues

namespace KeepsKeys
variable {first middle last : Snapshot S}

theorem trans (before : first.KeepsKeys middle) (after : middle.KeepsKeys last) : first.KeepsKeys last :=
  fun name known => after name (before name known)

theorem of_context (same : last.context = first.context) : first.KeepsKeys last := by
  intro name known
  rwa [same]

end KeepsKeys

theorem contains_merge (context updates : Context) (name : String) :
    (context.merge updates).contains name = (updates.contains name || context.contains name) := by
  simp only [Context.contains, Dict.contains, Context.get?_merge]
  cases updates.entries.get? name <;> simp

theorem withUpdates_continues (snapshot : Snapshot S) (updates : Context) (data : Option S)
    (readings : Readings) : snapshot.Continues (Engine.withUpdates snapshot updates data readings) := by
  have merged : snapshot.Continues
      (if updates.isEmpty then snapshot else snapshot.mergeContext updates (readings 0)) := by
    split
    · exact .refl snapshot
    · exact .of_revision rfl rfl (List.prefix_refl _)
  unfold Engine.withUpdates
  cases data with
  | none => exact merged
  | some data => exact merged.trans (.of_revision rfl rfl (List.prefix_refl _))

theorem withUpdates_keepsKeys (snapshot : Snapshot S) (updates : Context) (data : Option S)
    (readings : Readings) : snapshot.KeepsKeys (Engine.withUpdates snapshot updates data readings) := by
  have merged : snapshot.KeepsKeys
      (if updates.isEmpty then snapshot else snapshot.mergeContext updates (readings 0)) := by
    intro name known
    split
    · exact known
    · simp only [mergeContext, withContext, contains_merge, known, Bool.or_true]
  unfold Engine.withUpdates
  cases data with
  | none => exact merged
  | some data => exact merged.trans (.of_context rfl)

section
variable (snapshot : Snapshot S) {node : NodeId} {move : Position → Position} (now : Instant)

theorem trace_reposition (visits : ∀ position, (move position).visited = position.visited ++ [node]) :
    (snapshot.reposition node move now).trace = snapshot.trace ++ [node] := by
  unfold reposition
  cases standing : snapshot.position with
  | none => simp [trace, standing, withPosition, Position.visited, Position.start]
  | some position => simp [trace, standing, withPosition, visits]

theorem reposition_advances (visits : ∀ position, (move position).visited = position.visited ++ [node]) :
    snapshot.Advances (snapshot.reposition node move now) := by
  have moved := snapshot.trace_reposition now visits
  have revision := snapshot.revision_reposition node move now
  refine ⟨.of_revision ?_ revision ⟨[node], moved.symm⟩, ?_, [node], List.cons_ne_nil _ _, moved⟩
  · unfold reposition
    split <;> rfl
  · rw [version, version, revision]
    exact Nat.lt_succ_self _

theorem currentNode_reposition (stands : ∀ position, (move position).current = node) :
    (snapshot.reposition node move now).currentNode = some node := by
  unfold reposition
  cases snapshot.position with
  | none => rfl
  | some position => exact congrArg some (stands position)

theorem currentNode_moveTo (target : NodeId) : (snapshot.moveTo target now).currentNode = some target :=
  snapshot.currentNode_reposition now fun _ => rfl

end

theorem trace_of_position {first last : Snapshot S} (same : last.position = first.position) :
    last.trace = first.trace := by
  simp only [trace, same]

end Snapshot
end FlowGraph
