import FlowGraph.Proofs.Containment.Step
import FlowGraph.Proofs.Loop.Vouched

/-!
Where suspensions come from. Whatever loop suspends a run, its node has been executed just before, and the
snapshot of the suspension is the one that the node was given, with the updates of its command. So a loop that
begins with the snapshot of a suspension executes the same node first.
-/

namespace FlowGraph

namespace Engine
variable {W S : Type}

/-- A node has been executed, on record, and its answer is the suspension. -/
structure Paused (engine : Engine W S) (notes : List (Note S)) (suspension : Suspension S) (current : NodeId)
    (node : Node W S) (given : Snapshot S) (command : Command S) : Prop where
  noted : .told (.nodeCompleted current given command) ∈ notes
  standing : given.currentNode = some current
  admitted : guardFault engine.config 1 given current = none
  known : engine.topology.node? current = some node
  answered : (node.lifecycle engine.timers given).MayEnd (.ok (.ok command))
  asks : command.action = .suspend suspension.id suspension.reason suspension.timeout
  kept : ∃ readings, suspension.snapshot = withUpdates given command.updates none readings

/-- The notes account for an outcome if it is no suspension, or else a node has asked for it. -/
def Explains (engine : Engine W S) (notes : List (Note S)) (outcome : Outcome S) : Prop :=
  ∀ suspension, outcome = .suspended suspension →
    ∃ current node given command, engine.Paused notes suspension current node given command

theorem explains_enduring (engine : Engine W S) : Enduring engine.Explains := by
  intro notes more outcome adds explains suspension same
  obtain ⟨current, node, given, command, paused⟩ := explains suspension same
  exact ⟨current, node, given, command, { paused with noted := adds paused.noted }⟩

variable {engine : Engine W S} {mode : Mode} {current : NodeId} {snapshot : Snapshot S} {command : Command S}
  {readings : Readings}

theorem guardFault_first {config : ExecutionConfig} {steps : Nat}
    (admitted : guardFault config (steps + 1) snapshot current = none) :
    guardFault config 1 snapshot current = none := by
  unfold guardFault at admitted ⊢
  split at admitted
  · cases admitted
  · rwa [if_neg (by omega)]

theorem guardFault_of_position {config : ExecutionConfig} {steps : Nat} {other : Snapshot S}
    (same : other.position = snapshot.position) :
    guardFault config steps other current = guardFault config steps snapshot current := by
  unfold guardFault Snapshot.visitCount
  rw [same]

theorem explains_vouching (engine : Engine W S) :
    engine.Vouching (fun _ => True) (fun _ => True) engine.Explains where
  stopped _ _ := by rintro suspension ⟨⟩
  finished _ executed applied := by
    rintro suspension rfl
    cases applied_of_apply applied with
    | suspended asks => exact ⟨_, _, _, _, executed.noted, executed.standing, guardFault_first executed.admitted,
        executed.known, executed.answered, asks, _, rfl⟩
  moved _ _ := trivial
  seeded _ _ := trivial
  unmerged _ _ _ := by rintro suspension ⟨⟩
  astray := by rintro _ _ _ _ _ suspension ⟨⟩
  joins _ := trivial
  rejoined _ _ _ _ := trivial

def carryOut (engine : Engine W S) (allowance : Nat) (mode : Mode) (steps : Nat) (current : NodeId)
    (snapshot : Snapshot S) (command : Command S) (readings : Readings) : Program W (Outcome S) :=
  .ofAttempt (engine.apply mode current snapshot command readings) fun
    | .proceed next =>
      engine.notify (.stateUpdated snapshot next) (engine.drive allowance mode (steps + 1) next)
    | .finish outcome => .done outcome
    | .fork request => engine.fork (engine.drive allowance .branch 0) allowance request fun next =>
      engine.notify (.stateUpdated snapshot next) (engine.drive allowance mode (steps + 1) next)

/-- What a loop does with the answer of the node at hand: it moves on, ends or forks. -/
def goOn (engine : Engine W S) (allowance : Nat) (mode : Mode) (steps : Nat) (current : NodeId)
    (snapshot : Snapshot S) : Except Error (Command S) → Program W (Outcome S)
  | .error error => failed error snapshot
  | .ok command =>
    engine.notify (.nodeCompleted current snapshot command)
      (.clock (engine.carryOut allowance mode steps current snapshot command))

theorem drive_executes {node : Node W S} (allowance : Nat) (mode : Mode) {steps : Nat}
    (standing : snapshot.currentNode = some current)
    (admitted : guardFault engine.config (steps + 1) snapshot current = none)
    (known : engine.topology.node? current = some node) :
    engine.drive (allowance + 1) mode steps snapshot =
      engine.notify (.nodeStarted current snapshot)
        (.perform (node.lifecycle engine.timers snapshot) (engine.goOn allowance mode steps current snapshot)) := by
  rw [drive]
  simp only [standing, admitted, known]
  rfl

namespace Paused
variable {notes : List (Note S)} {suspension : Suspension S} {node : Node W S} {given : Snapshot S}

theorem position_eq (paused : engine.Paused notes suspension current node given command) :
    suspension.snapshot.position = given.position := by
  obtain ⟨readings, kept⟩ := paused.kept
  rw [kept, position_withUpdates]

theorem data_eq (paused : engine.Paused notes suspension current node given command) :
    suspension.snapshot.data = given.data := by
  obtain ⟨readings, kept⟩ := paused.kept
  rw [kept, data_withUpdates, Option.getD_none]

theorem context_eq (paused : engine.Paused notes suspension current node given command) :
    suspension.snapshot.context = given.context.merge command.updates := by
  obtain ⟨readings, kept⟩ := paused.kept
  rw [kept, context_withUpdates]

theorem executes (paused : engine.Paused notes suspension current node given command) (allowance : Nat)
    (mode : Mode) {resumed : Snapshot S} (stands : resumed.position = suspension.snapshot.position) :
    engine.drive (allowance + 1) mode 0 resumed =
      engine.notify (.nodeStarted current resumed)
        (.perform (node.lifecycle engine.timers resumed) (engine.goOn allowance mode 0 current resumed)) := by
  have same := stands.trans paused.position_eq
  refine drive_executes allowance mode ?_ ?_ paused.known
  · rw [Snapshot.currentNode, same]
    exact paused.standing
  · rw [guardFault_of_position same]
    exact paused.admitted

end Paused
end Engine
end FlowGraph
