import FlowGraph.Proofs.Containment.Loop
import FlowGraph.Proofs.Dict

/-!
Which panics reach the caller of a run. Those of processors, hooks, monitors, the merger and the
extractor never do. Those of conditions do: for each place where a condition may stand there is a small
workflow whose run breaks off with its panic.
-/

namespace FlowGraph
section
variable {W S O : Type}

theorem Workflow.perform_breaks (workflow : Workflow W S O) (clock : Nat → Readings) (allowance : Nat)
    (program : Program W (Outcome S)) (world : W) (panic : Panic)
    (breaks : (Machine.resume clock (.resting fun _ => program)
      { Machine.start world program with ready := [] }).1 = .broken panic) :
    ∃ ending, workflow.perform clock (allowance + 1) program world = some ending ∧
      ending.verdict = .broken panic := by
  simp only [Machine.start] at breaks
  simp only [Workflow.perform, Machine.run, Machine.start, breaks, Machine.closed, ↓reduceIte,
    Option.map_some]
  exact ⟨_, rfl, rfl⟩

theorem Workflow.resume_breaks (workflow : Workflow W S O) {snapshot : Snapshot S} {current : NodeId}
    (standing : snapshot.currentNode = some current)
    (known : workflow.engine.topology.contains current = true) {node : Node W S}
    (found : workflow.engine.topology.node? current = some node)
    (free : Engine.guardFault workflow.engine.config 1 snapshot current = none) {command : Command S}
    (answers : node.lifecycle workflow.engine.timers snapshot = .done (.ok command)) {panic : Panic}
    (panics : ∀ readings, workflow.engine.apply .root current snapshot command readings = .error panic)
    (clock : Nat → Readings) (world : W) :
    ∃ ending, workflow.perform clock 1 (workflow.resume 1 snapshot) world = some ending ∧
      ending.verdict = .broken panic := by
  apply Workflow.perform_breaks
  have fits : Workflow.resumeFault workflow.engine.topology snapshot = none := by
    simp [Workflow.resumeFault, standing, known]
  have prepared (readings : Readings) (options : ResumeOptions) :
      workflow.prepareResume snapshot .empty options readings = .ok snapshot := by
    simp only [Workflow.prepareResume, Context.isEmpty, Dict.isEmpty, Context.empty, Dict.empty,
      List.isEmpty_nil, ↓reduceIte, fits]
  simp only [Machine.resume, Workflow.resume, Workflow.resumeWith, Machine.advance, prepared,
    Engine.notify, Engine.drive, standing, Nat.zero_add, free, found, answers, Program.perform,
    panics, Program.ofAttempt]

def loneNode (id : NodeId) (command : Command S) : Node Unit S :=
  (Node.new id fun _ => .done (.ok command)).asEntryPoint

def loop (id : NodeId) (condition : Condition S) : Edge S :=
  .new ⟨"loop", by decide +kernel, by decide⟩ id id condition default

/-- One node that gives the same answer every time, with an edge back to itself. -/
def lone (id : NodeId) (condition : Condition S) (command : Command S) : Blueprint Unit S Unit where
  name := none
  nodes := [loneNode id command]
  edges := [loop id condition]
  defaultEntry := none
  extractor := some fun _ => .pure (.ok ())
  monitors := [.silent]
  executor := .pure true
  merger := .lastWriterWins
  ids := fun _ => .pure "run"
  tracer := fun _ => .pure ()
  timers := none
  config := {}

def loneTopology (id : NodeId) (condition : Condition S) (command : Command S) : Topology Unit S where
  nodes := [loneNode id command]
  edges := [loop id condition]
  places := Dict.empty.insert id 0
  outgoing := Dict.empty.insert id [0]
  incoming := Dict.empty.insert id [0]
  entryPoints := [id]
  defaultEntry := none
  entry := id

theorem lone_isValid (id : NodeId) (condition : Condition S) (command : Command S) :
    (Graph.validate [loneNode id command] [loop id condition] none).isValid = true := by
  simp [Graph.validate, Report.isValid, Graph.duplicateNodes, Graph.repeated, Graph.edgesErrors,
    Graph.edgeErrors, Graph.hasNode, loneNode, loop, Edge.new, Node.asEntryPoint, Node.new,
    Graph.entryErrors, Graph.declaredEntries, Node.isEntryPoint]

theorem lone_topology (id : NodeId) (condition : Condition S) (command : Command S) :
    Topology.build [loneNode id command] [loop id condition] none =
      .ok (loneTopology id condition command) := by
  simp only [Topology.build, lone_isValid]
  rfl

theorem lone_build (id : NodeId) (condition : Condition S) (command : Command S) :
    ∃ workflow, (lone id condition command).build = .ok workflow ∧
      workflow.engine.topology = loneTopology id condition command ∧
      workflow.engine.config = {} ∧ workflow.engine.timers = none := by
  have valid : (lone id condition command).validate.isValid = true := lone_isValid id condition command
  simp only [Blueprint.build, valid, bind, Except.bind, pure, Except.pure, Bool.not_true,
    Bool.false_eq_true, ↓reduceIte]
  simp only [lone, lone_topology]
  exact ⟨_, rfl, rfl, rfl, rfl⟩

variable {id : NodeId} {edge : Condition S} {command : Command S}

theorem lone_contains : (loneTopology id edge command).contains id = true := by
  simp [loneTopology, Topology.contains, Dict.contains, Dict.get?_insert]

theorem lone_node? : (loneTopology id edge command).node? id = some (loneNode id command) := by
  simp [loneTopology, Topology.node?, Dict.get?_insert]

theorem lone_edgesBetween : (loneTopology id edge command).edgesBetween id id = [loop id edge] := by
  simp [loneTopology, Topology.edgesBetween, Topology.edgesFrom, Topology.edgesAt, Dict.get?_insert,
    loop, Edge.new]

theorem lone_within {allowed : ConditionPlace → Condition S → Prop}
    (gate : edge = .always ∨ allowed .edge edge) (permitted : command.Within allowed) :
    (lone id edge command).Within allowed := by
  constructor
  · intro _ other member
    cases List.mem_singleton.mp member
    exact gate
  · intro node member snapshot
    cases List.mem_singleton.mp member
    exact permitted

theorem lone_breaks {snapshot : Snapshot S} (standing : snapshot.currentNode = some id) (panic : Panic)
    (panics : ∀ engine : Engine Unit S, engine.topology = loneTopology id edge command →
      engine.config = {} → ∀ readings,
        engine.apply .root id snapshot command readings = .error panic) :
    ∃ workflow, (lone id edge command).build = .ok workflow ∧ ¬workflow.NeverBreaks := by
  obtain ⟨workflow, built, topology, config, timers⟩ := lone_build id edge command
  refine ⟨workflow, built, fun calm => ?_⟩
  have free : Engine.guardFault workflow.engine.config 1 snapshot id = none := by
    rw [config]
    rfl
  have known : workflow.engine.topology.contains id = true := by
    rw [topology]
    exact lone_contains
  have found : workflow.engine.topology.node? id = some (loneNode id command) := by
    rw [topology]
    exact lone_node?
  obtain ⟨ending, performed, broken⟩ := workflow.resume_breaks standing known found free rfl
    (panics workflow.engine topology config) (fun _ _ => default) ()
  obtain ⟨result, settled⟩ := calm _ (.resume 1 snapshot) _ _ _ ending performed
  rw [broken] at settled
  cases settled

theorem edge_breaks {snapshot : Snapshot S} (standing : snapshot.currentNode = some id) {panic : Panic}
    (panics : edge.evaluate snapshot = .error panic) :
    ∃ workflow, (lone id edge (.traverse id)).build = .ok workflow ∧ ¬workflow.NeverBreaks := by
  refine lone_breaks standing panic fun engine topology config readings => ?_
  simp [Engine.apply, Command.traverse, Command.ofAction, Engine.traverse, Engine.conditionHolds,
    Engine.selectEdge, topology, config, lone_contains, lone_edgesBetween, Engine.firstAdmitting,
    loop, Edge.admits, Edge.new, panics, bind, Except.bind, pure, Except.pure]

theorem move_breaks {snapshot : Snapshot S} (standing : snapshot.currentNode = some id)
    {condition : Condition S} {panic : Panic} (panics : condition.evaluate snapshot = .error panic) :
    ∃ workflow,
      (lone id .always ((Command.traverse id).withCondition condition)).build = .ok workflow ∧
        ¬workflow.NeverBreaks := by
  refine lone_breaks standing panic fun engine topology config readings => ?_
  simp [Engine.apply, Command.withCondition, Command.traverse, Command.ofAction, Engine.traverse,
    Engine.conditionHolds, panics, bind, Except.bind]

def conditionalFork (id : NodeId) (condition : Condition S) : Command S :=
  .ofAction (.fork [id] .conditional (Dict.empty.insert id condition) none)

theorem branch_breaks {snapshot : Snapshot S} (standing : snapshot.currentNode = some id)
    {condition : Condition S} {panic : Panic} (panics : condition.evaluate snapshot = .error panic) :
    ∃ workflow,
      (lone id .always (conditionalFork id condition)).build = .ok workflow ∧ ¬workflow.NeverBreaks := by
  refine lone_breaks standing panic fun engine topology config readings => ?_
  have base : Engine.withUpdates snapshot .empty none readings = snapshot := rfl
  simp [conditionalFork, Engine.apply, Command.ofAction, Engine.forkFault, topology, lone_contains,
    lone_edgesBetween, base, Engine.forkTargets, Engine.eligible, Engine.branchHolds,
    Dict.get?_insert, Engine.conditionHolds, panics, bind, Except.bind]

/-- Edge conditions, conditions of a command and conditions of fork branches are all that can let a panic
through: where there are timers, the workflows whose conditions are of some class never break off,
whatever else panics in them, exactly if no condition of the class panics. -/
theorem neverBreaks_iff (allowed : ConditionPlace → Condition S → Prop) :
    (∀ (W O : Type) (blueprint : Blueprint W S O) (workflow : Workflow W S O),
      blueprint.build = .ok workflow → blueprint.timers = none → blueprint.Within allowed →
        workflow.NeverBreaks) ↔ NeverPanic allowed := by
  constructor
  · intro contained place condition permitted snapshot positioned
    cases evaluated : condition.evaluate snapshot with
    | ok answer => exact ⟨answer, rfl⟩
    | error panic =>
        obtain ⟨position, standing⟩ := Option.isSome_iff_exists.mp positioned
        have current : snapshot.currentNode = some position.current := by
          simp [Snapshot.currentNode, standing]
        exfalso
        cases place with
        | edge =>
            obtain ⟨workflow, built, breaks⟩ := edge_breaks current evaluated
            exact breaks (contained Unit Unit _ workflow built rfl
              (lone_within (.inr permitted) (by rintro entry ⟨⟩)))
        | move =>
            obtain ⟨workflow, built, breaks⟩ := move_breaks current evaluated
            refine breaks (contained Unit Unit _ workflow built rfl (lone_within (.inl rfl) ?_))
            intro entry member
            cases List.mem_singleton.mp member
            exact permitted
        | branch =>
            obtain ⟨workflow, built, breaks⟩ := branch_breaks current evaluated
            refine breaks (contained Unit Unit _ workflow built rfl (lone_within (.inl rfl) ?_))
            intro entry member
            cases List.mem_singleton.mp member
            exact permitted
  · intro calm W O blueprint workflow built timers within
    apply Workflow.neverBreaks_of_settles
    intro program runs
    exact Workflow.runs_settle calm (Blueprint.engine_within built timers within) runs

/-- A run along an edge whose condition panics. -/
theorem run_breaks_at_edge :
    ∃ workflow, (lone (S := Unit) ⟨"node", by decide +kernel, by decide⟩
        (.whole "ready" fun _ => .error (.text "condition bug"))
        (.traverse ⟨"node", by decide +kernel, by decide⟩)).build = .ok workflow ∧
      ∃ ending,
        workflow.perform (fun _ _ => default) 1 (workflow.start 1 () .empty) () = some ending ∧
        ending.verdict = .broken (.text "condition bug") := by
  exact ⟨_, rfl, _, rfl, rfl⟩

end
end FlowGraph
