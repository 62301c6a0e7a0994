import FlowGraph.Proofs.Containment.Loop
import FlowGraph.Proofs.History
import FlowGraph.Proofs.Loop.Traced
import FlowGraph.Proofs.Workflow.Vouched

/-!
Nothing in a trace is there without a reason. A run that starts at the entry node leaves on record how it has
come to each of its states, in all of its loops; so each visit after the first is justified by an edge, a fork,
a fallback or a join, and the stamps are those of the edges that were taken.
-/

namespace FlowGraph

/-- A state at which a loop stands: one that the record shows, or one that a branch of a fork begins with. -/
inductive Engine.LoopState {W S : Type} (engine : Engine W S) (notes : List (Note S)) : Snapshot S → Prop where
  | shown {note : Note S} {state : Snapshot S} (noted : note ∈ notes) (reveals : note.Reveals state) :
      LoopState engine notes state
  | seed {mode : Mode} {given : Snapshot S} {current target : NodeId} {command : Command S} {readings : Readings}
      {request : ForkRequest S} (answered : Answered notes given current command)
      (forks : engine.apply mode current given command readings = .ok (.fork request))
      (started : target ∈ request.targets) (time : Instant) :
      LoopState engine notes (request.base.moveTo target time)

namespace Workflow
variable {W S O : Type}

theorem finish_upholds (workflow : Workflow W S O) (outcome : Outcome S) :
    (workflow.noting.finish outcome).Upholds workflow.engine.Traced := by
  have final (result : Result S O) (state : Snapshot S) : ¬(Note.told result.closing).Reveals state := by
    cases result with
    | success output snapshot => rintro ⟨⟩
    | suspended suspension => rintro ⟨⟩
    | failure error snapshot => rintro ⟨⟩
  intro time world traced
  rw [(workflow.finish_noted outcome time world).2]
  exact ⟨List.subset_append_left _ _, traced.concat fun state reveals => (final _ state reveals).elim⟩

section
variable {workflow : Workflow W S O} {nodes : List (Node W S)} {edges : List (Edge S)} {defaultEntry : Option NodeId}
  (built : Topology.build nodes edges defaultEntry = .ok workflow.engine.topology)
include built

theorem start_upholds (allowance : Nat) (input : S) (context : Context) (name : NodeId) (notes : List (Note S)) :
    (workflow.noting.start allowance input context).Upholds workflow.engine.Traced .closed
      (workflow.engine.Recounts [] name) notes := by
  refine .call (Engine.beside_upholds _ _) fun text more adds => ?_
  split
  · exact Engine.recounts_of_not_join (not_isJoin_failed _ _)
  · rename_i id named
    intro readings
    refine Engine.notify_upholds _ fun latest later traced => ?_
    have noted : .told (.workflowStarted (.initial id input context workflow.engine.topology.entry (readings 0))) ∈
        latest ++ [.told (.workflowStarted _)] := List.mem_append_right _ List.mem_cons_self
    refine ⟨traced.concat ?_, ?_⟩
    · rintro _ ⟨⟩
      exact ⟨.root, [], .begun noted rfl⟩
    · exact (Engine.keeps_tracing built).drive allowance ([], name) .root 0 _ .closed _ ⟨[], .begun noted rfl⟩

theorem traced_notes (attached : Bool) (clock : Nat → Readings) (allowance : Nat) (input : S) (context : Context)
    (world : W) (rounds : Nat) :
    workflow.engine.Traced (workflow.notes attached clock allowance (.start input context) world rounds) := by
  have name : NodeId := workflow.engine.topology.entry
  have starts : (Machine.start (world, []) (workflow.noting.start allowance input context)).Upholds
      workflow.engine.Traced .closed (workflow.engine.Recounts [] name) :=
    .start (by simp [Engine.Traced]) (workflow.engine.recounts_enduring [] name)
      (start_upholds built allowance input context name [])
  exact starts.rounds attached clock workflow.finish_upholds rounds

end

/-- Every visit in the trace of a state is justified by the graph that was declared. -/
theorem visits_justified {blueprint : Blueprint W S O} {workflow : Workflow W S O}
    (built : blueprint.build = .ok workflow) (attached : Bool) (clock : Nat → Readings) (allowance : Nat) (input : S)
    (context : Context) (world : W) (rounds : Nat) {state : Snapshot S}
    (stands : workflow.engine.LoopState (workflow.notes attached clock allowance (.start input context) world rounds)
      state) :
    workflow.engine.topology.edges = blueprint.edges ∧ workflow.engine.config = blueprint.config.execution ∧
      ∃ mode ways,
        workflow.engine.Reached
          (workflow.notes attached clock allowance (.start input context) world rounds) mode state
          ways ∧
        workflow.engine.Provenance
          (workflow.notes attached clock allowance (.start input context) world rounds) state
          ways := by
  have topology := Blueprint.build_topology built
  have traced := traced_notes topology attached clock allowance input context world rounds
  have reached : ∃ mode ways, workflow.engine.Reached
      (workflow.notes attached clock allowance (.start input context) world rounds) mode state ways := by
    cases stands with
    | shown noted reveals => exact traced _ noted _ reveals
    | @seed mode given current target command readings request answered forks started time =>
        obtain ⟨own, ways, before⟩ := traced _ answered.noted given (.answered current given command)
        exact ⟨_, _, (Engine.forks_of_apply topology before answered forks).seed started time⟩
  obtain ⟨mode, ways, reached⟩ := reached
  obtain ⟨_, edges, config, _⟩ := Blueprint.build_parts built
  exact ⟨edges, config, mode, ways, reached, reached.provenance⟩

theorem visits_of_meeting_justified : ∃ workflow previous next, meeting.build = .ok workflow ∧
    .told (.stateUpdated previous next) ∈ meetingNotes workflow ∧
    next.trace = [openNode, leftNode, rightNode, meetNode] ∧
    workflow.engine.topology.edges = meeting.edges ∧ workflow.engine.config = meeting.config.execution ∧
    ∃ mode ways, workflow.engine.Reached (meetingNotes workflow) mode next ways ∧
      workflow.engine.Provenance (meetingNotes workflow) next ways := by
  obtain ⟨workflow, built, _, moved⟩ := meeting_noted
  obtain ⟨previous, next, told, visits⟩ := update_of_noted moved
  exact ⟨workflow, previous, next, built, told, visits,
    visits_justified built true (fun _ _ => default) 10 () .empty () 5 (.shown told (.gone previous next))⟩

end Workflow
end FlowGraph
