import FlowGraph.Proofs.Loop.Congruence

/-!
Loops that are watched. A watch is told of each snapshot that a loop takes up, in the loop itself and in those
of its branches, and may put any other program in the place of what would happen next. If all that a watch
interferes with never comes up, then the loop is the same with it and without it.
-/

namespace FlowGraph

/-- A loop that takes up a snapshot: what kind of loop it is, on which snapshots it has executed nodes itself so
far, in this order, and the snapshot. -/
structure Uptake (S : Type) where
  mode : Mode
  executed : List (Snapshot S)
  snapshot : Snapshot S

abbrev Watch (W S : Type) := Uptake S → Program W (Outcome S) → Program W (Outcome S)

namespace Engine
variable {W S : Type}

/-- Drives a snapshot under a watch. In place of the number of steps the loop keeps the snapshots that it has
executed nodes on. -/
def watched (engine : Engine W S) (watch : Watch W S) : (allowance : Nat) → Uptake S → Program W (Outcome S)
  | 0, _ => .exhausted
  | allowance + 1, uptake =>
    watch uptake <|
      engine.turn (fun _ => allowance) (fun seed => engine.watched watch allowance ⟨.branch, [], seed⟩)
        (fun next => engine.watched watch allowance ⟨uptake.mode, uptake.executed ++ [uptake.snapshot], next⟩)
        uptake.mode uptake.executed.length uptake.snapshot

/-- What a loop takes up next, or one of its branches first, if it executes the node at hand. -/
inductive HandsOn (engine : Engine W S) (uptake : Uptake S) : Uptake S → Prop where
  | moved {next : Snapshot S}
      (steps : engine.StepsTo uptake.mode uptake.executed.length uptake.snapshot (.proceed next)) :
      HandsOn engine uptake ⟨uptake.mode, uptake.executed ++ [uptake.snapshot], next⟩
  | rejoined {request : ForkRequest S} {node : NodeId} {joined : List (JoinedBranch S)}
      {answer : Attempt (Except Error (Merged S))} {readings : Readings} {next : Snapshot S}
      (steps : engine.StepsTo uptake.mode uptake.executed.length uptake.snapshot (.fork request))
      (meets : Meets request node joined) (settled : reconcile request.base node joined answer readings = .ok next) :
      HandsOn engine uptake ⟨uptake.mode, uptake.executed ++ [uptake.snapshot], next⟩
  | seeded {request : ForkRequest S} {target : NodeId} {time : Instant}
      (steps : engine.StepsTo uptake.mode uptake.executed.length uptake.snapshot (.fork request)) :
      HandsOn engine uptake ⟨.branch, [], request.base.moveTo target time⟩

/-- A watch that lets a property of uptakes pass is not noticed by loops that hand the property on. -/
theorem watched_eq_drive {engine : Engine W S} {watch : Watch W S} {good : Uptake S → Prop}
    (hands : ∀ uptake next, good uptake → engine.HandsOn uptake next → good next)
    (passes : ∀ uptake, good uptake → watch uptake = id) (allowance : Nat) :
    ∀ uptake, good uptake → engine.watched watch allowance uptake =
      engine.drive allowance uptake.mode uptake.executed.length uptake.snapshot := by
  induction allowance with
  | zero => exact fun _ _ => rfl
  | succ allowance ih =>
      intro uptake fine
      have onward {next : Snapshot S}
          (follows : engine.HandsOn uptake ⟨uptake.mode, uptake.executed ++ [uptake.snapshot], next⟩) :
          engine.watched watch allowance ⟨uptake.mode, uptake.executed ++ [uptake.snapshot], next⟩ =
            engine.drive allowance uptake.mode (uptake.executed.length + 1) next := by
        rw [ih _ (hands uptake _ fine follows), List.length_append, List.length_singleton]
      rw [watched, passes uptake fine, id_eq, drive_succ]
      refine turn_congr _ ?_ ?_ ?_
      · exact fun request steps target time => ih _ (hands uptake _ fine (.seeded steps))
      · exact fun next steps => onward (.moved steps)
      · exact fun request steps _ _ _ _ next meets settled => onward (.rejoined steps meets settled)

end Engine

end FlowGraph
