import FlowGraph.Proofs.InsideGraph
import FlowGraph.Proofs.Snapshot.Progress
import FlowGraph.Proofs.Snapshot.Updates

/-!
Which snapshots a workflow resumes, and what it makes of them first. Only a snapshot that stands at no node of
the graph is refused, and only if the caller is strict about it; otherwise it is sent to the entry node.
Everything else about a snapshot is as it was given, but for the updates of its context.
-/

namespace FlowGraph
variable {W S O : Type}

namespace Snapshot

/-- The snapshot stands at one of the nodes. -/
def Fits (snapshot : Snapshot S) (nodes : List (Node W S)) : Prop :=
  ∃ node ∈ nodes, snapshot.currentNode = some node.id

/-- Why a snapshot stands at none of the nodes. -/
inductive Misplaced (nodes : List (Node W S)) (snapshot : Snapshot S) : String → Prop where
  | nowhere (unpositioned : snapshot.position = none) :
      Misplaced nodes snapshot "state is not positioned at any node"
  | foreign {node : NodeId} (standing : snapshot.currentNode = some node) (unknown : node ∉ nodes.map Node.id) :
      Misplaced nodes snapshot ("node '" ++ node.text ++ "' is not part of this workflow")

/-- What a workflow with these nodes makes of a snapshot before it goes on from it. A snapshot that fits stays
where it is, and is not touched at all if there are no updates. Any other one moves to the entry node as if from
nowhere. -/
structure PreparedAs (snapshot : Snapshot S) (nodes : List (Node W S)) (entry : NodeId) (updates : Context)
    (next : Snapshot S) : Prop extends snapshot.Continues next where
  fits : next.Fits nodes
  data : next.data = snapshot.data
  context : next.context = snapshot.context.merge updates
  kept : snapshot.Fits nodes → next.position = snapshot.position
  repaired : ¬snapshot.Fits nodes → ∃ position, next.position = some position ∧ position.current = entry ∧
    position.previous = none ∧ position.visited = snapshot.trace ++ [entry]
  untouched : updates.isEmpty = true → snapshot.Fits nodes → next = snapshot

theorem misplaced_iff_not_fits {snapshot : Snapshot S} {nodes : List (Node W S)} :
    (∃ problem, Misplaced nodes snapshot problem) ↔ ¬snapshot.Fits nodes := by
  constructor
  · rintro ⟨_, unpositioned | ⟨standing, unknown⟩⟩ ⟨node, member, here⟩
    · rw [currentNode, unpositioned] at here
      cases here
    · rw [standing] at here
      cases here
      exact unknown (List.mem_map_of_mem member)
  · intro apart
    cases placed : snapshot.position with
    | none => exact ⟨_, .nowhere placed⟩
    | some position =>
        have standing : snapshot.currentNode = some position.current := by rw [currentNode, placed, Option.map_some]
        refine ⟨_, .foreign standing fun known => apart ?_⟩
        obtain ⟨node, member, same⟩ := List.mem_map.mp known
        exact ⟨node, member, same ▸ standing⟩

variable {nodes : List (Node W S)} {entry : NodeId} {snapshot : Snapshot S} (updates : Context) (readings : Readings)

theorem PreparedAs.withUpdates (fits : snapshot.Fits nodes) :
    snapshot.PreparedAs nodes entry updates (Engine.withUpdates snapshot updates none readings) where
  toContinues := snapshot.withUpdates_continues updates none readings
  fits := by simpa only [Fits, currentNode, Engine.position_withUpdates] using fits
  data := by simp
  context := by simp
  kept _ := by simp
  repaired apart := absurd fits apart
  untouched nothing _ := if_pos nothing

theorem PreparedAs.resetTo (known : entry ∈ nodes.map Node.id) (apart : ¬snapshot.Fits nodes) :
    snapshot.PreparedAs nodes entry updates
      ((Engine.withUpdates snapshot updates none readings).resetTo entry (readings 1)) := by
  have updated := snapshot.withUpdates_continues updates none readings
  have moved : (Engine.withUpdates snapshot updates none readings).Advances
      ((Engine.withUpdates snapshot updates none readings).resetTo entry (readings 1)) :=
    reposition_advances _ _ fun position => position.visited_resetTo entry
  refine ⟨updated.trans moved.toContinues, ?_, ?_, ?_, fun fits => absurd fits apart, fun _ => ?_,
    fun _ fits => absurd fits apart⟩
  · obtain ⟨node, member, same⟩ := List.mem_map.mp known
    exact ⟨node, member, same ▸ currentNode_reposition _ _ fun _ => rfl⟩
  · simp [Snapshot.resetTo]
  · simp [Snapshot.resetTo]
  · rw [Snapshot.resetTo, position_reposition, Engine.position_withUpdates]
    cases placed : snapshot.position with
    | none => exact ⟨_, rfl, rfl, rfl, by simp [trace, placed, Position.start, Position.visited]⟩
    | some position => exact ⟨_, rfl, rfl, rfl, by simp [trace, placed, Position.visited_resetTo]⟩

end Snapshot

namespace Workflow
variable {nodes : List (Node W S)} {edges : List (Edge S)} {defaultEntry : Option NodeId} {topology : Topology W S}

theorem resumeFault_eq_some_iff (built : Topology.build nodes edges defaultEntry = .ok topology)
    {snapshot : Snapshot S} {problem : String} :
    resumeFault topology snapshot = some problem ↔ snapshot.Misplaced nodes problem := by
  constructor
  · intro fault
    simp only [resumeFault] at fault
    split at fault
    · rename_i unpositioned
      cases fault
      exact .nowhere (Option.map_eq_none_iff.mp unpositioned)
    · rename_i node standing
      split at fault
      · cases fault
      · rename_i unknown
        cases fault
        exact .foreign standing (mt (Topology.contains_iff built node).mpr unknown)
  · rintro (unpositioned | ⟨standing, unknown⟩)
    · simp [resumeFault, Snapshot.currentNode, unpositioned]
    · simp [resumeFault, standing, mt (Topology.contains_iff built _).mp unknown]

theorem resumeFault_eq_none_iff (built : Topology.build nodes edges defaultEntry = .ok topology)
    {snapshot : Snapshot S} : resumeFault topology snapshot = none ↔ snapshot.Fits nodes := by
  rw [← not_iff_not, ← Snapshot.misplaced_iff_not_fits, ← Ne, Option.ne_none_iff_exists']
  simp only [resumeFault_eq_some_iff built]

theorem prepareResume_eq (workflow : Workflow W S O) (snapshot : Snapshot S) (updates : Context)
    (options : ResumeOptions) (readings : Readings) :
    workflow.prepareResume snapshot updates options readings =
      match resumeFault workflow.engine.topology snapshot with
      | none => .ok (Engine.withUpdates snapshot updates none readings)
      | some problem =>
        if options.strict then .error (.resume problem, Engine.withUpdates snapshot updates none readings)
        else
          .ok ((Engine.withUpdates snapshot updates none readings).resetTo workflow.engine.topology.entry
            (readings 1)) := by
  have same : resumeFault workflow.engine.topology (Engine.withUpdates snapshot updates none readings) =
      resumeFault workflow.engine.topology snapshot := by
    simp only [resumeFault, Snapshot.currentNode, Engine.position_withUpdates]
  rw [← same]
  rfl

variable {blueprint : Blueprint W S O} {workflow : Workflow W S O} {snapshot : Snapshot S} {updates : Context}
  {options : ResumeOptions} {readings : Readings}

theorem prepareResume_eq_error_iff (built : blueprint.build = .ok workflow) (error : Error) (last : Snapshot S) :
    workflow.prepareResume snapshot updates options readings = .error (error, last) ↔
      options.strict = true ∧ (∃ problem, snapshot.Misplaced blueprint.nodes problem ∧ error = .resume problem) ∧
        last = Engine.withUpdates snapshot updates none readings := by
  simp only [← resumeFault_eq_some_iff (Blueprint.build_topology built)]
  rw [prepareResume_eq]
  cases fault : resumeFault workflow.engine.topology snapshot with
  | none => simp
  | some problem =>
      cases strict : options.strict with
      | false => simp
      | true => simp [eq_comm]

theorem preparedAs_of_prepareResume (built : blueprint.build = .ok workflow) {next : Snapshot S}
    (accepted : workflow.prepareResume snapshot updates options readings = .ok next) :
    snapshot.PreparedAs blueprint.nodes workflow.engine.topology.entry updates next := by
  have topology := Blueprint.build_topology built
  rw [prepareResume_eq] at accepted
  split at accepted
  · rename_i fine
    cases accepted
    exact .withUpdates updates readings ((resumeFault_eq_none_iff topology).mp fine)
  · rename_i problem fault
    have misplaced := (resumeFault_eq_some_iff topology).mp fault
    have known := (Topology.contains_iff topology _).mp (Topology.contains_entry topology)
    split at accepted
    · cases accepted
    · cases accepted
      exact .resetTo updates readings known (Snapshot.misplaced_iff_not_fits.mp ⟨problem, misplaced⟩)

/-- A workflow refuses a snapshot just if its caller is strict and the snapshot stands at no node of the graph, and
says which of the two ways not to stand there it has found. Any snapshot that it does not refuse is prepared. -/
theorem resume_prepares_or_refuses (built : blueprint.build = .ok workflow) (snapshot : Snapshot S)
    (updates : Context) (options : ResumeOptions) (readings : Readings) :
    (∀ error last, workflow.prepareResume snapshot updates options readings = .error (error, last) ↔
      options.strict = true ∧ (∃ problem, snapshot.Misplaced blueprint.nodes problem ∧ error = .resume problem) ∧
        last = Engine.withUpdates snapshot updates none readings) ∧
    ∀ next, workflow.prepareResume snapshot updates options readings = .ok next →
      snapshot.PreparedAs blueprint.nodes workflow.engine.topology.entry updates next :=
  ⟨prepareResume_eq_error_iff built, fun _ => preparedAs_of_prepareResume built⟩

section

def removedNode : NodeId := ⟨"removed", by decide +kernel, by decide⟩

def outdated : Snapshot Unit := .initial ⟨"outdated", by decide +kernel, by decide⟩ () .empty removedNode default

theorem outdated_is_refused_or_prepared : ∃ workflow next, circling.build = .ok workflow ∧
    workflow.prepareResume outdated Engine.ready ⟨true⟩ (fun _ => default) =
      .error (.resume "node 'removed' is not part of this workflow",
        Engine.withUpdates outdated Engine.ready none fun _ => default) ∧
    workflow.prepareResume outdated Engine.ready ⟨false⟩ (fun _ => default) = .ok next ∧
    outdated.PreparedAs circling.nodes turnNode Engine.ready next ∧ next.trace = [removedNode, turnNode] := by
  obtain ⟨workflow, built, same⟩ : ∃ workflow, circling.build = .ok workflow ∧
      workflow.engine.topology = loneTopology turnNode .always (.traverse turnNode) := ⟨_, rfl, rfl⟩
  have unknown : removedNode ∉ circling.nodes.map Node.id := by decide +kernel
  have strict := resume_prepares_or_refuses built outdated Engine.ready ⟨true⟩ fun _ => default
  have lenient := resume_prepares_or_refuses built outdated Engine.ready ⟨false⟩ fun _ => default
  have entry : workflow.engine.topology.entry = turnNode := by rw [same]; rfl
  cases accepted : workflow.prepareResume outdated Engine.ready ⟨false⟩ (fun _ => default) with
  | error refusal => cases ((lenient.1 refusal.1 refusal.2).mp accepted).1
  | ok next =>
      have prepared := entry ▸ lenient.2 next accepted
      obtain ⟨position, placed, _, _, visited⟩ :=
        prepared.repaired (Snapshot.misplaced_iff_not_fits.mp ⟨_, .foreign rfl unknown⟩)
      refine ⟨workflow, next, built, (strict.1 _ _).mpr ⟨rfl, ⟨_, .foreign rfl unknown, rfl⟩, rfl⟩, accepted,
        prepared, ?_⟩
      rw [Snapshot.trace, placed]
      exact visited

end

end Workflow

end FlowGraph
