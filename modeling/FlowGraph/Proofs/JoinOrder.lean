import FlowGraph.Proofs.Loop.Limits
import FlowGraph.Proofs.Snapshot.History

/-!
The order in which the branches of a fork join does not show in the bookkeeping of the join. Counts, stamps and
versions of the merged snapshot are those of the branches as a whole.
-/

namespace FlowGraph

theorem Instant.eq_of_not_before {a b : Instant} (first : a.before b = false) (second : b.before a = false) :
    a = b := by
  obtain ⟨seconds, nanos⟩ := a
  obtain ⟨others, rest⟩ := b
  simp only [before, Bool.or_eq_false_iff, decide_eq_false_iff_not, Bool.and_eq_false_iff,
    beq_eq_false_iff_ne] at first second
  rw [Instant.mk.injEq]
  omega

namespace Position

/-- The latest stamp is a matter of who is there, not of their order. -/
theorem IsLatest.unique {positions others : List Position} {edge : EdgeId} {stamp other : Option Instant}
    (same : ∀ position, position ∈ positions ↔ position ∈ others) (first : IsLatest positions edge stamp)
    (second : IsLatest others edge other) : stamp = other := by
  cases stamp with
  | none =>
      cases other with
      | none => rfl
      | some time =>
          obtain ⟨⟨position, member, has⟩, _⟩ := second
          rw [first position ((same position).mpr member)] at has
          cases has
  | some time =>
      obtain ⟨⟨position, member, has⟩, above⟩ := first
      have known := (same position).mp member
      cases other with
      | none =>
          rw [second position known] at has
          cases has
      | some later =>
          obtain ⟨⟨holder, among, keeps⟩, higher⟩ := second
          have notBefore := above holder ((same holder).mpr among) later keeps
          exact congrArg some (Instant.eq_of_not_before notBefore (higher position known time has))

end Position

namespace Engine
variable {S : Type} {branches others : List (JoinedBranch S)}

theorem highestVersion_perm (same : branches.Perm others) : highestVersion branches = highestVersion others := by
  have commutes : RightCommutative fun (highest : Nat) (joined : JoinedBranch S) =>
      max highest joined.snapshot.version := ⟨fun _ _ _ => Nat.max_right_comm _ _ _⟩
  exact same.foldl_eq 0

theorem traversals_absorbed_perm (base : Position) (same : branches.Perm others) :
    (absorbed base branches).traversals = (absorbed base others).traversals := by
  refine Dict.ext_get? fun edge => ?_
  have positions : (base :: (branches.map JoinedBranch.snapshot).filterMap Snapshot.position).Perm
      (base :: (others.map JoinedBranch.snapshot).filterMap Snapshot.position) :=
    ((same.map _).filterMap _).cons base
  exact (isLatest_absorbed base edge branches).unique (fun _ => positions.mem_iff)
    (isLatest_absorbed base edge others)

def walks (base : Snapshot S) (branches : List (JoinedBranch S)) : List (List NodeId) :=
  branches.map fun branch => branch.snapshot.trace.drop base.trace.length

theorem walks_perm (base : Snapshot S) (same : branches.Perm others) :
    (walks base branches).Perm (walks base others) :=
  same.map _

theorem trace_reconciled {base : Snapshot S} {position : Position} (standing : base.position = some position)
    (node : NodeId) (branches : List (JoinedBranch S)) (merged : Merged S) (readings : Readings) :
    (reconciled base position node branches merged readings).trace =
      base.trace ++ (walks base branches).flatten ++ [node] := by
  have same : base.trace = position.visited := by simp only [Snapshot.trace, standing]
  rw [walks, same, ← visited_absorbed, ← Position.visited_moveTo]
  rfl

theorem reconcile_eq_ok {base next : Snapshot S} {node : NodeId}
    {answer : Attempt (Except Error (Merged S))} {readings : Readings}
    (settled : reconcile base node branches answer readings = .ok next) :
    ∃ merged position, answer = .ok (.ok merged) ∧ base.position = some position ∧
      next = reconciled base position node branches merged readings := by
  unfold reconcile at settled
  split at settled
  · cases settled
  · cases settled
  · rename_i merged
    split at settled
    · cases settled
    · rename_i position standing
      cases settled
      exact ⟨merged, position, rfl, standing, rfl⟩

end Engine

namespace Snapshot
variable {S : Type}

/-- Two snapshots that differ at most in payload, context, previous node, time of change and the order of
their visits. -/
structure SameBooks (first second : Snapshot S) : Prop where
  workflow : first.workflow = second.workflow
  currentNode : first.currentNode = second.currentNode
  depth : first.depth = second.depth
  visitCount : ∀ node, first.visitCount node = second.visitCount node
  traversals : first.position.map Position.traversals = second.position.map Position.traversals
  version : first.version = second.version
  created : first.revision.created = second.revision.created

end Snapshot

namespace Engine
variable {S : Type} {branches others : List (JoinedBranch S)}

theorem visits_perm {base first second : Snapshot S} {node : NodeId} (same : branches.Perm others)
    (left : first.trace = base.trace ++ (walks base branches).flatten ++ [node])
    (right : second.trace = base.trace ++ (walks base others).flatten ++ [node]) :
    first.trace.Perm second.trace := by
  rw [left, right]
  exact ((walks_perm base same).flatten.append_left _).append_right _

/-- Whatever the merges of the two orders answer, and whenever, they give snapshots with the same books. The
histories differ at most in the order of the walks between the fork and the join, and the times of change only
if the clock does. -/
theorem reconcile_order_free {base : Snapshot S} {node : NodeId} {answer reply : Attempt (Except Error (Merged S))}
    {readings later : Readings} {first second : Snapshot S} (same : branches.Perm others)
    (one : reconcile base node branches answer readings = .ok first)
    (other : reconcile base node others reply later = .ok second) :
    first.SameBooks second ∧
      (first.trace = base.trace ++ (walks base branches).flatten ++ [node] ∧
        second.trace = base.trace ++ (walks base others).flatten ++ [node] ∧
        (walks base branches).Perm (walks base others)) ∧
      (readings = later → first.revision = second.revision) := by
  obtain ⟨merged, position, -, standing, rfl⟩ := reconcile_eq_ok one
  obtain ⟨joined, place, -, stands, rfl⟩ := reconcile_eq_ok other
  cases standing.symm.trans stands
  have left := trace_reconciled standing node branches merged readings
  have right := trace_reconciled standing node others joined later
  have visits := visits_perm same left right
  have highest := highestVersion_perm same
  refine ⟨⟨rfl, rfl, ?_, ?_, ?_, ?_, rfl⟩, ⟨left, right, walks_perm base same⟩, ?_⟩
  · have lengths := visits.length_eq
    simp only [Snapshot.trace, position_reconciled, Position.length_visited] at lengths
    simp only [Snapshot.depth, position_reconciled]
    omega
  · intro place
    rw [Snapshot.visitCount_eq, Snapshot.visitCount_eq]
    exact visits.countP_eq _
  · exact congrArg some (traversals_absorbed_perm position same)
  · rw [version_reconciled, version_reconciled, highest]
  · rintro rfl
    simp only [reconciled, Snapshot.advancedPast, highest]
    rfl

section
def crossing : NodeId := ⟨"crossing", by decide +kernel, by decide⟩
def longWay : NodeId := ⟨"long way", by decide +kernel, by decide⟩
def shortWay : NodeId := ⟨"short way", by decide +kernel, by decide⟩
def around : EdgeId := ⟨"around", by decide +kernel, by decide⟩

def atCrossing : Snapshot Nat :=
  (Snapshot.initial ⟨"a walk", by decide +kernel, by decide⟩ 0 .empty crossing ⟨1, 0⟩).traverse around crossing
    ⟨2, 0⟩ ⟨2, 0⟩

def longBranch : JoinedBranch Nat where
  branch := longWay
  joinNode := longWay
  snapshot := ((atCrossing.moveTo longWay ⟨3, 0⟩).traverse around crossing ⟨5, 0⟩ ⟨5, 0⟩).withData 7 ⟨6, 0⟩

def shortBranch : JoinedBranch Nat := ⟨shortWay, longWay, atCrossing.moveTo shortWay ⟨4, 0⟩⟩

def mergedAt (hour : Nat) (branches : List (JoinedBranch Nat)) : Except Error (Snapshot Nat) :=
  reconcile atCrossing longWay branches (.ok (.ok ⟨hour, .empty⟩)) fun _ => ⟨hour, 0⟩

theorem reconcile_of_crossing_order_free :
    ∃ first second, mergedAt 8 [longBranch, shortBranch] = .ok first ∧
      mergedAt 9 [shortBranch, longBranch] = .ok second ∧
      first.trace = [crossing, crossing, longWay, crossing, shortWay, longWay] ∧
      second.trace = [crossing, crossing, shortWay, longWay, crossing, longWay] ∧ first.SameBooks second := by
  have one : mergedAt 8 [longBranch, shortBranch] = .ok _ := rfl
  have other : mergedAt 9 [shortBranch, longBranch] = .ok _ := rfl
  exact ⟨_, _, one, other, rfl, rfl, (reconcile_order_free (.swap shortBranch longBranch []) one other).1⟩
end

end Engine

end FlowGraph
