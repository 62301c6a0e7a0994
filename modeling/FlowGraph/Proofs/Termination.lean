import FlowGraph.Proofs.Containment
import FlowGraph.Proofs.Loop.Limits
import FlowGraph.Proofs.Workflow.Finite

/-!
Which limits make runs finite. A visit limit does so for every workflow whose processors come to an end. A step
limit counts the steps of one loop only, and a fork runs new loops: it does so as long as forks nest to a bounded
depth, but a node that forks to itself goes on forever.
-/

namespace FlowGraph
section
variable {W S O : Type}

theorem Topology.mem_ids {nodes : List (Node W S)} {edges : List (Edge S)} {defaultEntry : Option NodeId}
    {topology : Topology W S} (built : Topology.build nodes edges defaultEntry = .ok topology) (id : NodeId)
    (found : topology.node? id ≠ none) : id ∈ nodes.map Node.id := by
  have placed : topology.places.get? id ≠ none := fun absent => found (by simp [node?, absent])
  exact (contains_iff built id).mp (Option.isSome_iff_ne_none.mpr placed)

variable {allowed : ConditionPlace → Condition S → Prop} {blueprint : Blueprint W S O}
  {workflow : Workflow W S O}

theorem Blueprint.returns_of_build (built : blueprint.build = .ok workflow)
    (returns : ∀ node ∈ blueprint.nodes, node.Returns) :
    ∀ id node, workflow.engine.topology.node? id = some node → node.Returns := by
  intro id node found
  refine returns node ?_
  rw [← (Blueprint.build_parts built).1]
  exact Topology.mem_nodes_of_node? found

theorem Blueprint.calm_of_build (calm : NeverPanic allowed) (built : blueprint.build = .ok workflow)
    (within : blueprint.Within allowed) : workflow.engine.timers = none → workflow.Calm := by
  intro timers program runs
  rw [(Blueprint.build_parts built).2.2.2] at timers
  exact Workflow.runs_settle calm (Blueprint.engine_within built timers within) runs

/-- A visit limit makes every run finite, whatever nodes answer and however forks nest, if processors come to an
end. No chain of snapshots that come from each other by transitions, branches and joins is longer than the limit
lets all nodes be visited. -/
theorem Workflow.visit_limit_ends_runs (calm : NeverPanic allowed) (built : blueprint.build = .ok workflow)
    (within : blueprint.Within allowed) (returns : ∀ node ∈ blueprint.nodes, node.Returns)
    (limited : 0 < blueprint.config.execution.maxVisitsPerNode) :
    (∀ first rest, (first :: rest).IsChain workflow.engine.Derives →
      rest.length ≤ (blueprint.config.execution.maxVisitsPerNode + 1) * blueprint.nodes.length + 1) ∧
      ∀ attached clock request world, workflow.Finite attached clock request world := by
  have limit : workflow.engine.config.visitLimit = some blueprint.config.execution.maxVisitsPerNode := by
    rw [(Blueprint.build_parts built).2.2.1]
    exact if_pos limited
  have known := Topology.mem_ids (Blueprint.build_topology built)
  constructor
  · intro first rest chain
    have bound := Engine.chain_length_le limit known rest first chain
    rw [List.length_map] at bound
    omega
  · intro attached clock request world
    have shallow (first : Snapshot S) (_ : request.entry workflow clock world = .ok first) :=
      Engine.shallow_of_limit limit known _ .root 0 first (Nat.le_add_left _ _)
    exact Workflow.finite_of_shallow (Blueprint.calm_of_build calm built within)
      (Blueprint.returns_of_build built returns) shallow

section
def turnNode : NodeId := ⟨"turn", by decide +kernel, by decide⟩

def selfFork : Command Unit := .ofAction (.fork [turnNode] .sequential .empty none)

/-- One node that forks to itself, under a visit limit; zero for none. -/
def selfForking (visits : Nat) : Blueprint Unit Unit Unit :=
  { lone turnNode .always selfFork with config := { execution := { maxVisitsPerNode := visits } } }

def NoCondition (_ : ConditionPlace) (_ : Condition Unit) : Prop := False

theorem neverPanic_noCondition : NeverPanic NoCondition := by
  rintro place condition ⟨⟩

theorem selfForking_within (visits : Nat) : (selfForking visits).Within NoCondition := by
  refine ⟨fun _ edge member => ?_, fun node member snapshot => ?_⟩
  · cases List.mem_singleton.mp member
    exact .inl rfl
  · cases List.mem_singleton.mp member
    rintro entry ⟨⟩

theorem lone_returns (id : NodeId) (condition : Condition S) (command : Command S) :
    ∀ node ∈ (lone id condition command).nodes, node.Returns := by
  intro node member snapshot
  cases List.mem_singleton.mp member
  trivial

/-- With a limit of one visit the runs of the node that forks to itself are finite, and who performs one is told. -/
theorem visit_limit_ends_self_fork :
    ∃ workflow, (selfForking 1).build = .ok workflow ∧
      (∀ first rest, (first :: rest).IsChain workflow.engine.Derives → rest.length ≤ 3) ∧
      (∀ attached clock request world, workflow.Finite attached clock request world) ∧
      ∃ enough, ∀ allowance, enough ≤ allowance →
        (workflow.perform (fun _ _ => default) allowance (workflow.start allowance () .empty) ()).isSome ∧
          (workflow.performAsync (fun _ _ => default) allowance (workflow.start allowance () .empty) ()).isSome := by
  obtain ⟨workflow, built⟩ : ∃ workflow, (selfForking 1).build = .ok workflow := ⟨_, rfl⟩
  obtain ⟨bounded, finite⟩ := Workflow.visit_limit_ends_runs neverPanic_noCondition built (selfForking_within 1)
    (lone_returns turnNode .always selfFork) Nat.zero_lt_one
  have started (attached : Bool) := finite attached (fun _ _ => default) (.start () .empty)
  exact ⟨workflow, built, bounded, finite, Workflow.performs_of_finite started ()⟩

end

/-- A step limit makes those runs finite whose forks nest to a bounded depth. -/
theorem Workflow.step_limit_ends_nested_runs (calm : NeverPanic allowed)
    (built : blueprint.build = .ok workflow) (within : blueprint.Within allowed)
    (returns : ∀ node ∈ blueprint.nodes, node.Returns) (attached : Bool) (clock : Nat → Readings) (input : S)
    (context : Context) (world : W) (most : Nat)
    (nests : ∀ first, (Request.start input context).entry workflow clock world = .ok first →
      workflow.engine.NestsWithin most first) :
    workflow.Finite attached clock (.start input context) world := by
  have shallow (first : Snapshot S)
      (enters : (Request.start input context).entry workflow clock world = .ok first) :=
    Engine.shallow_of_nesting (nests first enters) _ 0 .root 0 first .here (Nat.le_refl _)
  exact Workflow.finite_of_shallow (Blueprint.calm_of_build calm built within)
    (Blueprint.returns_of_build built returns) shallow

section
def circling : Blueprint Unit Unit Unit := lone turnNode .always (.traverse turnNode)

theorem circling_never_forks {workflow : Workflow Unit Unit Unit} (built : circling.build = .ok workflow)
    (mode : Mode) (snapshot : Snapshot Unit) (request : ForkRequest Unit) :
    ¬workflow.engine.Answers mode snapshot (.fork request) := by
  rintro ⟨current, node, command, readings, steps, _, _, found, may, applied⟩
  have member : node ∈ circling.nodes := by
    rw [← (Blueprint.build_parts built).1]
    exact Topology.mem_nodes_of_node? found
  cases List.mem_singleton.mp member
  cases may
  simp only [Engine.apply, Command.traverse, Command.ofAction, bind, Except.bind, pure, Except.pure] at applied
  split at applied
  · cases applied
  · rename_i moved _
    cases moved <;> cases applied

/-- The step limit ends the runs of the node that only goes back to itself. -/
theorem step_limit_ends_circle :
    ∃ workflow, circling.build = .ok workflow ∧
      (∀ first, workflow.engine.NestsWithin 0 first) ∧
      ∀ attached clock, workflow.Finite attached clock (.start () .empty) () := by
  obtain ⟨workflow, built⟩ : ∃ workflow, circling.build = .ok workflow := ⟨_, rfl⟩
  have nests (first : Snapshot Unit) : workflow.engine.NestsWithin 0 first := by
    intro nesting mode snapshot reaches
    induction reaches with
    | here => exact Nat.le_refl 0
    | turn _ _ ih => exact ih
    | seed _ seeds _ =>
        obtain ⟨answers, _, _⟩ := seeds
        exact (circling_never_forks built _ _ _ answers).elim
  have within : circling.Within NoCondition := lone_within (.inl rfl) (by rintro entry ⟨⟩)
  exact ⟨workflow, built, nests, fun attached clock =>
    Workflow.step_limit_ends_nested_runs neverPanic_noCondition built within (lone_returns _ _ _) attached clock
      () .empty () 0 fun first _ => nests first⟩

end

section
variable {R ρ : Type}

/-- Whatever the world answers, the program goes on until its allowance is used up, and never waits. -/
def Program.Exhausts : Program W R → Prop
  | call effect next => ∀ value, effect.Gives value → (next value).Exhausts
  | clock next => ∀ readings, (next readings).Exhausts
  | exhausted => True
  | _ => False

theorem Program.Exhausts.bind {program : Program W R} (exhausts : program.Exhausts)
    (next : R → Program W R) : (program.bind next).Exhausts := by
  induction program with
  | call effect rest ih => exact fun value gives => ih value (exhausts value gives)
  | clock rest ih => exact fun readings => ih readings (exhausts readings)
  | exhausted => trivial
  | done _ => exact exhausts.elim
  | sleep _ _ _ => exact exhausts.elim
  | launch _ _ _ _ _ => exact exhausts.elim
  | receive _ _ _ _ => exact exhausts.elim
  | broken _ => exact exhausts.elim
  | never => exact exhausts.elim

theorem Program.Exhausts.advance {program : Program W R} (exhausts : program.Exhausts)
    (clock : Nat → Readings) : ∀ machine, (Machine.advance clock program machine).1 = .exhausted := by
  induction program with
  | call effect rest ih => exact fun machine => ih _ (exhausts _ ⟨_, _, rfl⟩) _
  | clock rest ih => exact fun machine => ih _ (exhausts _) _
  | exhausted => exact fun machine => rfl
  | done _ => exact exhausts.elim
  | sleep _ _ _ => exact exhausts.elim
  | launch _ _ _ _ _ => exact exhausts.elim
  | receive _ _ _ _ => exact exhausts.elim
  | broken _ => exact exhausts.elim
  | never => exact exhausts.elim

theorem Machine.run_of_exhausts {program : Program W R} (exhausts : program.Exhausts) (attached : Bool)
    (clock : Nat → Readings) (close : R → Effect W ρ) (allowance : Nat) (world : W) (asked : Nat) :
    Machine.run attached clock close allowance none { start world program with asked } = none := by
  cases allowance with
  | zero => rfl
  | succ allowance =>
      have stuck := exhausts.advance clock { start world program with asked, ready := [] }
      simp only [start] at stuck
      simp only [run, start, resume, stuck]

theorem drive_selfFork_exhausts {engine : Engine Unit Unit}
    (topology : engine.topology = loneTopology turnNode .always selfFork)
    (config : engine.config = {}) (timers : engine.timers = none) (allowance : Nat) :
    ∀ (mode : Mode) (snapshot : Snapshot Unit), snapshot.currentNode = some turnNode →
      (engine.drive allowance mode 0 snapshot).Exhausts := by
  induction allowance with
  | zero => exact fun _ _ _ => trivial
  | succ allowance ih =>
      intro mode snapshot standing
      have found : engine.topology.node? turnNode = some (loneNode turnNode selfFork) := by
        rw [topology]
        exact lone_node?
      have free : Engine.guardFault engine.config (0 + 1) snapshot turnNode = none := by
        rw [config]
        rfl
      have forks (readings : Readings) : engine.apply mode turnNode snapshot selfFork readings =
          .ok (.fork ⟨turnNode, snapshot, [turnNode], .sequential⟩) := by
        simp only [Engine.apply, selfFork, Command.ofAction, Engine.forkFault, topology, lone_contains,
          lone_edgesBetween, Engine.forkTargets, bind, Except.bind, pure, Except.pure, Bool.not_true,
          Bool.false_eq_true, ↓reduceIte, List.isEmpty_cons]
        rfl
      have answers : (loneNode turnNode selfFork).lifecycle none snapshot = .done (.ok selfFork) := rfl
      have branch (time : Instant) :
          (engine.drive allowance .branch 0 (snapshot.moveTo turnNode time)).Exhausts :=
        ih .branch _ (snapshot.currentNode_moveTo time turnNode)
      rw [Engine.drive_succ]
      simp only [Engine.turn, standing, free, found, timers, answers, Engine.notify, Program.perform, forks,
        Program.ofAttempt, Engine.fork, Program.time]
      intro _ _ _ _ readings started _
      have waits : (Join.start (S := Unit) turnNode [turnNode].length engine.config.joinTimeout).isSatisfied =
          false := rfl
      simp only [Engine.inSequence, waits, Bool.false_eq_true, ↓reduceIte]
      exact fun readings => (branch (readings 0)).bind _

theorem start_enters {workflow : Workflow Unit Unit Unit}
    (topology : workflow.engine.topology = loneTopology turnNode .always selfFork)
    (ids : workflow.ids = fun _ => .pure "run") (clock : Nat → Readings) (world : Unit) :
    ∃ first, (Request.start () .empty).entry workflow clock world = .ok first ∧
      first.currentNode = some turnNode := by
  have named : ((Ident.ofText "run" : Except Error WorkflowId).toOption).isSome = true := by decide +kernel
  simp only [Request.entry, ids, Effect.pure, topology]
  cases text : (Ident.ofText "run" : Except Error WorkflowId) with
  | error error => simp [text, Except.toOption] at named
  | ok id => exact ⟨_, rfl, rfl⟩

/-- A step limit alone does not make runs finite: the run of a node that forks to itself never comes to an end,
for none of its loops takes a second step. -/
theorem step_limit_misses_self_fork :
    ∃ workflow, (selfForking 0).build = .ok workflow ∧
      1 ≤ (selfForking 0).config.execution.maxSteps ∧
      (selfForking 0).config.execution.maxVisitsPerNode = 0 ∧
      NeverPanic NoCondition ∧ (selfForking 0).Within NoCondition ∧
      (∀ node ∈ (selfForking 0).nodes, node.Returns) ∧
      ∀ attached clock world,
        (∀ allowance, workflow.run attached clock allowance (.start () .empty) world = none) ∧
          ¬workflow.Finite attached clock (.start () .empty) world := by
  obtain ⟨workflow, built, topology, config, timers, ids⟩ : ∃ workflow,
      (selfForking 0).build = .ok workflow ∧
      workflow.engine.topology = loneTopology turnNode .always selfFork ∧
      workflow.engine.config = {} ∧ workflow.engine.timers = none ∧ workflow.ids = fun _ => .pure "run" :=
    ⟨_, rfl, rfl, rfl, rfl, rfl⟩
  refine ⟨workflow, built, by decide, rfl, neverPanic_noCondition, selfForking_within 0,
    lone_returns turnNode .always selfFork, fun attached clock world => ?_⟩
  have endless (allowance : Nat) :
      workflow.run attached clock allowance (.start () .empty) world = none := by
    obtain ⟨first, enters, standing⟩ := start_enters topology ids clock world
    obtain ⟨view, asked, starts⟩ := (Request.start () .empty).startsAs_entered workflow clock world
    rw [Workflow.run, (starts allowance).run, enters]
    have exhausts : ((Request.start () .empty).entered workflow allowance (.ok first)).Exhausts :=
      fun _ _ => drive_selfFork_exhausts topology config timers allowance .root first standing
    exact Machine.run_of_exhausts exhausts attached clock workflow.finish allowance view asked
  refine ⟨endless, ?_⟩
  rintro ⟨enough, most, finite⟩
  obtain ⟨⟨verdict, machine, ran, _⟩, _⟩ := finite enough (Nat.le_refl enough)
  rw [endless] at ran
  cases ran

end
end
end FlowGraph
