import FlowGraph.Proofs.Containment.Step
import FlowGraph.Proofs.Graph.Topology
import FlowGraph.Proofs.Program.Scheduler
import FlowGraph.Workflow.Blueprint

/-!
From one step to whole runs: as long as conditions do not panic, neither does the loop, whatever the
strategies of its forks, and so no run does.
-/

namespace FlowGraph

namespace Engine
variable {W S : Type} {allowed : ConditionPlace → Condition S → Prop} {engine : Engine W S}

def Settles {α : Type} : Attempt α → Prop
  | .ok _ => True
  | .error _ => False

theorem conclude_settles (request : ForkRequest S) (join : Join S)
    {next : Snapshot S → Program W (Outcome S)} (settles : ∀ snapshot, (next snapshot).Yields Settles) :
    (engine.conclude request join next).Yields Settles := by
  unfold conclude
  split
  · trivial
  · intro time world readings
    simp only
    split
    · exact settles _
    · trivial

theorem inSequence_settles {branch : Snapshot S → Program W (Outcome S)}
    (branches : ∀ snapshot, (branch snapshot).Yields Settles) (request : ForkRequest S) (started : Nat)
    {next : Join S → Program W (Outcome S)} (settles : ∀ join, (next join).Yields Settles)
    (targets : List NodeId) :
    ∀ join, (inSequence branch request started next join targets).Yields Settles := by
  induction targets with
  | nil => exact settles
  | cons target rest ih =>
      intro join
      simp only [inSequence]
      split
      · exact settles join
      · intro readings
        refine Program.Yields.bind ((branches _).mono ?_)
        rintro (panic | outcome) settled
        · exact settled
        · simp only [Attempt.HandedOn]
          split
          · trivial
          · refine Program.Yields.time fun now => ?_
            split
            · trivial
            · exact ih _

theorem submit_settles (targets : List NodeId) :
    ∀ {next : List NodeId → Program W (Outcome S)}, (∀ taken, (next taken).Yields Settles) →
      (engine.submit next targets).Yields Settles := by
  induction targets with
  | nil =>
      intro next settles
      exact settles []
  | cons target rest ih =>
      intro next settles time world
      exact ih fun others => settles _

theorem gather_settles (timers : engine.timers = none) (request : ForkRequest S)
    (started channel : Nat) {next : Join S → Program W (Outcome S)}
    (settles : ∀ join, (next join).Yields Settles) (allowance : Nat) :
    ∀ join, (engine.gather request started channel next allowance join).Yields Settles := by
  induction allowance with
  | zero =>
      intro join
      trivial
  | succ allowance ih =>
      intro join
      simp only [gather]
      split
      · exact settles join
      · refine Program.Yields.time fun now => ?_
        split
        · trivial
        · rw [timers]
          rintro (⟨branch, outcome⟩ | closed | quiet)
          · simp only
            split
            · trivial
            · exact ih _
          · trivial
          · exact ih join

theorem fork_settles (timers : engine.timers = none) {branch : Snapshot S → Program W (Outcome S)}
    (branches : ∀ snapshot, (branch snapshot).Yields Settles) (allowance : Nat) (request : ForkRequest S)
    {next : Snapshot S → Program W (Outcome S)} (settles : ∀ snapshot, (next snapshot).Yields Settles) :
    (engine.fork branch allowance request next).Yields Settles := by
  have concluded (join : Join S) : (engine.conclude request join next).Yields Settles :=
    conclude_settles request join settles
  refine Program.Yields.time fun started => ?_
  cases strategy : request.strategy with
  | sequential => exact inSequence_settles branches request started concluded request.targets _
  | parallel =>
      intro readings
      exact submit_settles request.targets fun _ channel =>
        gather_settles timers request started channel concluded allowance _
  | conditional =>
      intro readings
      exact submit_settles request.targets fun _ channel =>
        gather_settles timers request started channel concluded allowance _

/-- The loop never panics as long as the conditions do not, in either mode and for every snapshot. -/
theorem drive_settles (calm : NeverPanic allowed) (within : engine.Within allowed) (allowance : Nat) :
    ∀ mode steps snapshot, (engine.drive allowance mode steps snapshot).Yields Settles := by
  induction allowance with
  | zero =>
      intro mode steps snapshot
      trivial
  | succ allowance ih =>
      intro mode steps snapshot
      simp only [drive]
      split
      · trivial
      · rename_i current standing
        have positioned : snapshot.position.isSome := by
          obtain ⟨position, found, _⟩ := Option.map_eq_some_iff.mp standing
          simp [found]
        split
        · trivial
        split
        · trivial
        · rename_i node found
          intro time world
          have answers := Node.lifecycle_answers engine.timers
            (within.nodes node (Topology.mem_nodes_of_node? found)) snapshot
          refine Program.Yields.perform (answers.mono ?_)
          rintro (panic | error | command) answered
          · exact answered
          · trivial
          · intro time world readings
            obtain ⟨step, applied⟩ := apply_succeeds calm within mode current positioned answered readings
            simp only [applied, Program.ofAttempt]
            cases step with
            | proceed next => exact fun _ _ => ih mode (steps + 1) next
            | finish outcome => trivial
            | fork request =>
                exact fork_settles within.timers (ih .branch 0) allowance request
                  fun next _ _ => ih mode (steps + 1) next

end Engine

section
variable {W S O : Type} {allowed : ConditionPlace → Condition S → Prop}

structure Blueprint.Within (allowed : ConditionPlace → Condition S → Prop)
    (blueprint : Blueprint W S O) : Prop where
  edges : blueprint.config.execution.enforceEdgeConditions = true →
    ∀ edge ∈ blueprint.edges, edge.condition = .always ∨ allowed .edge edge.condition
  nodes : ∀ node ∈ blueprint.nodes, node.Within allowed

inductive Workflow.Runs (workflow : Workflow W S O) : Program W (Outcome S) → Prop where
  | start (allowance : Nat) (input : S) (context : Context) :
    Runs workflow (workflow.start allowance input context)
  | resume (allowance : Nat) (snapshot : Snapshot S) : Runs workflow (workflow.resume allowance snapshot)
  | resumeWith (allowance : Nat) (snapshot : Snapshot S) (updates : Context) (options : ResumeOptions) :
    Runs workflow (workflow.resumeWith allowance snapshot updates options)

/-- However a run is started and however long it is, its caller gets a result and no panic. -/
def Workflow.NeverBreaks (workflow : Workflow W S O) : Prop :=
  ∀ program, workflow.Runs program → ∀ clock allowance world ending,
    workflow.perform clock allowance program world = some ending →
      ∃ result, ending.verdict = .settled result

namespace Blueprint

def observer (blueprint : Blueprint W S O) : Observer W S := blueprint.monitor.guarded blueprint.tracer

def assembled (blueprint : Blueprint W S O) (extractor : Snapshot S → Effect W (Attempt O))
    (topology : Topology W S) : Workflow W S O where
  name := blueprint.name
  extractor
  ids := blueprint.ids
  config := blueprint.config
  engine :=
    { topology
      observer := blueprint.observer
      executor := blueprint.executor
      merger := blueprint.merger
      config := blueprint.config.execution
      timers := blueprint.timers }

theorem build_eq_ok {blueprint : Blueprint W S O} {workflow : Workflow W S O} :
    blueprint.build = .ok workflow ↔ ∃ extractor topology, blueprint.extractor = some extractor ∧
      Topology.build blueprint.nodes blueprint.edges blueprint.defaultEntry = .ok topology ∧
      blueprint.assembled extractor topology = workflow := by
  constructor
  · intro built
    simp only [build, bind, Except.bind, pure, Except.pure] at built
    split at built
    · cases built
    split at built
    · cases built
    · rename_i extractor given
      split at built
      · cases built
      · rename_i topology found
        cases built
        exact ⟨extractor, topology, given, found, rfl⟩
  · rintro ⟨extractor, topology, given, found, rfl⟩
    have valid : blueprint.validate.isValid = true := by
      simp only [Topology.build] at found
      split at found
      · cases found
      · rename_i fine
        simpa [validate] using fine
    simp only [build, valid, given, found, bind, Except.bind, pure, Except.pure]
    rfl

theorem build_parts {blueprint : Blueprint W S O} {workflow : Workflow W S O}
    (built : blueprint.build = .ok workflow) :
    workflow.engine.topology.nodes = blueprint.nodes ∧
      workflow.engine.topology.edges = blueprint.edges ∧
      workflow.engine.config = blueprint.config.execution ∧
      workflow.engine.timers = blueprint.timers := by
  obtain ⟨extractor, topology, _, found, rfl⟩ := build_eq_ok.mp built
  have parts := Topology.madeOf_build found
  exact ⟨parts.nodes, parts.edges, rfl, rfl⟩

theorem build_topology {blueprint : Blueprint W S O} {workflow : Workflow W S O}
    (built : blueprint.build = .ok workflow) :
    Topology.build blueprint.nodes blueprint.edges blueprint.defaultEntry = .ok workflow.engine.topology := by
  obtain ⟨extractor, topology, _, found, rfl⟩ := build_eq_ok.mp built
  exact found

end Blueprint

theorem Blueprint.engine_within {blueprint : Blueprint W S O} {workflow : Workflow W S O}
    (built : blueprint.build = .ok workflow) (timers : blueprint.timers = none)
    (within : blueprint.Within allowed) : workflow.engine.Within allowed := by
  obtain ⟨nodes, edges, config, same⟩ := Blueprint.build_parts built
  refine ⟨same.trans timers, ?_, ?_⟩
  · rw [config, edges]
    exact within.edges
  · rw [nodes]
    exact within.nodes

theorem Workflow.runs_settle (calm : NeverPanic allowed) {workflow : Workflow W S O}
    (within : workflow.engine.Within allowed) {program : Program W (Outcome S)}
    (runs : workflow.Runs program) : program.Yields Engine.Settles := by
  have resumed (allowance : Nat) (snapshot : Snapshot S) (updates : Context) (options : ResumeOptions) :
      (workflow.resumeWith allowance snapshot updates options).Yields Engine.Settles := by
    intro readings
    simp only
    split
    · trivial
    · intro time world
      exact Engine.drive_settles calm within allowance .root 0 _
  cases runs with
  | start allowance input context =>
      intro time world
      simp only
      split
      · trivial
      · intro readings time world
        exact Engine.drive_settles calm within allowance .root 0 _
  | resume allowance snapshot => exact resumed allowance snapshot _ _
  | resumeWith allowance snapshot updates options => exact resumed allowance snapshot updates options

theorem Workflow.neverBreaks_of_settles {workflow : Workflow W S O}
    (settle : ∀ program, workflow.Runs program → program.Yields Engine.Settles) :
    workflow.NeverBreaks := by
  intro program runs clock allowance world ending performed
  obtain ⟨⟨verdict, machine⟩, finished, rfl⟩ := Option.map_eq_some_iff.mp performed
  have followed := Machine.run_follows true clock workflow.finish allowance world program verdict machine
    finished
  cases verdict with
  | settled result => exact ⟨result, rfl⟩
  | broken panic =>
      obtain ⟨ledger, history, reached⟩ := followed
      exact ((settle program runs).after history reached).elim

end

end FlowGraph
