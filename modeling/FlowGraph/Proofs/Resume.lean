import FlowGraph.Proofs.Loop.Pauses
import FlowGraph.Proofs.Workflow.Vouched
import FlowGraph.Workflow.Blueprint

/-!
Suspended runs go on where they were. A run that suspends, in its own loop or in a branch at any depth, returns
the snapshot of the node that was executed last there. When it is resumed, nothing stops it before that node has
been executed once more.
-/

namespace FlowGraph
variable {W S O : Type}

namespace Workflow
variable {workflow : Workflow W S O}

theorem finish_suspended {outcome : Outcome S} {time : Nat} {world : W} {suspension : Suspension S}
    (suspends : (workflow.finish outcome time world).1 = .suspended suspension) :
    outcome = .suspended suspension := by
  cases outcome with
  | completed snapshot =>
      simp only [finish, Effect.andThen] at suspends
      generalize (workflow.extractor snapshot time world).1 = extracted at suspends
      cases extracted <;> cases suspends
  | suspended other =>
      cases suspends
      rfl
  | failed error snapshot => cases suspends
  | joined node policy timeout snapshot => cases suspends

theorem paused_of_run {attached : Bool} {clock : Nat → Readings} {allowance : Nat} {request : Request S}
    {world : W} {suspension : Suspension S} {machine : Machine W (Outcome S)}
    (finished : workflow.run attached clock allowance request world =
      some (.settled (.suspended suspension), machine)) :
    ∃ rounds current node given command,
      workflow.engine.Paused (workflow.notes attached clock allowance request world rounds) suspension current
        node given command := by
  have vouching : workflow.Vouching (fun _ => True) (fun _ => True) workflow.engine.Explains :=
    { engine := workflow.engine.explains_vouching
      enduring := workflow.engine.explains_enduring
      unnamed := by rintro _ _ _ _ suspension ⟨⟩
      initial := fun _ _ _ _ => trivial
      refused := by rintro _ _ _ suspension ⟨⟩
      resumed := fun _ => trivial }
  obtain ⟨rounds, outcome, time, view, explains, _, closes⟩ := vouching.of_run finished
  obtain ⟨current, node, given, command, paused⟩ := explains suspension (finish_suspended closes)
  exact ⟨rounds, current, node, given, command, paused⟩

theorem prepareResume_known {suspended : Snapshot S} {current : NodeId} {node : Node W S}
    (standing : suspended.currentNode = some current)
    (known : workflow.engine.topology.node? current = some node) (updates : Context) (options : ResumeOptions)
    (readings : Readings) :
    workflow.prepareResume suspended updates options readings =
      .ok (if updates.isEmpty then suspended else suspended.mergeContext updates (readings 0)) := by
  have contained : workflow.engine.topology.contains current = true := by
    obtain ⟨place, found, _⟩ := Option.bind_eq_some_iff.mp known
    rw [Topology.contains, Dict.contains, found]
    rfl
  have same : (if updates.isEmpty then suspended
      else suspended.mergeContext updates (readings 0)).currentNode = some current := by
    split
    · exact standing
    · exact standing
  simp only [prepareResume, resumeFault, same, contained, ↓reduceIte]

/-- A run that suspends returns the position and the payload that its node was given, and its context with the
updates of the command. However it is resumed, its checks and guards let it pass, and the first node that it
executes is that node, once, before it makes any move: on the suspended snapshot, with the updates of the caller
merged into it if there are any. -/
theorem suspension_reenters_node (workflow : Workflow W S O) (attached : Bool) (clock : Nat → Readings)
    (allowance : Nat) (request : Request S) (world : W) (suspension : Suspension S)
    (machine : Machine W (Outcome S)) (finished : workflow.run attached clock allowance request world =
      some (.settled (.suspended suspension), machine)) :
    ∃ rounds current node given command,
      workflow.engine.Paused (workflow.notes attached clock allowance request world rounds) suspension current
        node given command ∧
      suspension.snapshot.position = given.position ∧ suspension.snapshot.data = given.data ∧
      suspension.snapshot.context = given.context.merge command.updates ∧
      ∀ updates options room, workflow.resumeWith (room + 1) suspension.snapshot updates options =
        .clock fun readings =>
          let resumed :=
            if updates.isEmpty then suspension.snapshot
            else suspension.snapshot.mergeContext updates (readings 0)
          workflow.engine.notify (.workflowResumed resumed) <|
            workflow.engine.notify (.nodeStarted current resumed) <|
              .perform (node.lifecycle workflow.engine.timers resumed)
                (workflow.engine.goOn room .root 0 current resumed) := by
  obtain ⟨rounds, current, node, given, command, paused⟩ := paused_of_run finished
  refine ⟨rounds, current, node, given, command, paused, paused.position_eq, paused.data_eq, paused.context_eq, ?_⟩
  intro updates options room
  have standing : suspension.snapshot.currentNode = some current := by
    rw [Snapshot.currentNode, paused.position_eq]
    exact paused.standing
  rw [resumeWith]
  congr 1
  funext readings
  rw [prepareResume_known standing paused.known]
  simp only
  congr 1
  refine paused.executes room .root ?_
  split
  · rfl
  · rfl

section
def deskNode : NodeId := ⟨"desk", by decide +kernel, by decide⟩
def reviewNode : NodeId := ⟨"reviewer", by decide +kernel, by decide⟩

def awaitApproval : Command Unit where
  action := .suspend "approval" "somebody has to look at this" none
  updates := ⟨Dict.empty.insert "asked" ⟨"bool", .bool true⟩⟩

def reviewing : Blueprint Unit Unit Unit where
  name := none
  nodes :=
    [(Node.new deskNode fun _ =>
        .done (.ok (.ofAction (.fork [reviewNode] .parallel .empty none)))).asEntryPoint,
      Node.new reviewNode fun _ => .done (.ok awaitApproval)]
  edges := [.new ⟨"to review", by decide +kernel, by decide⟩ deskNode reviewNode .always default]
  defaultEntry := none
  extractor := some fun _ => .pure (.ok ())
  monitors := [.silent]
  executor := .pure true
  merger := .lastWriterWins
  ids := fun _ => .pure "run"
  tracer := fun _ => .pure ()
  timers := none
  config := {}

theorem suspension_of_review_reenters_node :
    ∃ workflow suspension machine, reviewing.build = .ok workflow ∧
      workflow.run true (fun _ _ => default) 10 (.start () .empty) () =
        some (.settled (.suspended suspension), machine) ∧
      suspension.snapshot.trace = [deskNode, reviewNode] ∧
      ∃ rounds current node given command,
        workflow.engine.Paused (workflow.notes true (fun _ _ => default) 10 (.start () .empty) () rounds) suspension
          current node given command ∧
        suspension.snapshot.position = given.position ∧ suspension.snapshot.data = given.data ∧
        suspension.snapshot.context = given.context.merge command.updates ∧
        ∀ updates options room, workflow.resumeWith (room + 1) suspension.snapshot updates options =
          .clock fun readings =>
            let resumed :=
              if updates.isEmpty then suspension.snapshot
              else suspension.snapshot.mergeContext updates (readings 0)
            workflow.engine.notify (.workflowResumed resumed) <|
              workflow.engine.notify (.nodeStarted current resumed) <|
                .perform (node.lifecycle workflow.engine.timers resumed)
                  (workflow.engine.goOn room .root 0 current resumed) :=
  ⟨_, _, _, rfl, rfl, rfl, suspension_reenters_node _ true (fun _ _ => default) 10 (.start () .empty) () _ _ rfl⟩

end

end Workflow
end FlowGraph
