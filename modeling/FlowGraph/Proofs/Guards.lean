import FlowGraph.Proofs.JoinOrder
import FlowGraph.Proofs.Loop.Progress
import FlowGraph.Proofs.Loop.Watch
import FlowGraph.Proofs.Mishaps
import FlowGraph.Proofs.Resumption
import FlowGraph.Proofs.Workflow.Request

/-!
The two guards of a loop are exact. A loop executes no more nodes than it may take steps, and none on a snapshot
that has visited it more often than is allowed; it fails with the error of a guard just when the next execution
would break the limit. Every visit in the history of a snapshot counts: those of its own loop, of the fork that
a branch comes from, of the branches that have joined, and of the run that is resumed.
-/

namespace FlowGraph
variable {W S O : Type}

/-- How the history of a snapshot that a loop takes up has come about. The run begins with the history that it
has inherited; a move adds one visit, a branch begins with the history of its fork and one visit, and a join
adds the walks of the branches that have reported to it, and one visit. -/
inductive Uptake.Descends (inherited : List NodeId) : Uptake S → Prop where
  | begun {first : Snapshot S} (inherits : first.trace = inherited) : Descends inherited ⟨.root, [], first⟩
  | moved {mode : Mode} {executed : List (Snapshot S)} {snapshot next : Snapshot S} {target : NodeId}
      (before : Descends inherited ⟨mode, executed, snapshot⟩) (visits : next.trace = snapshot.trace ++ [target]) :
      Descends inherited ⟨mode, executed ++ [snapshot], next⟩
  | rejoined {mode : Mode} {executed : List (Snapshot S)} {snapshot next : Snapshot S} {request : ForkRequest S}
      {node : NodeId} {joined : List (JoinedBranch S)} (before : Descends inherited ⟨mode, executed, snapshot⟩)
      (forks : request.base.trace = snapshot.trace) (meets : Engine.Meets request node joined)
      (visits : next.trace = snapshot.trace ++ (Engine.walks snapshot joined).flatten ++ [node]) :
      Descends inherited ⟨mode, executed ++ [snapshot], next⟩
  | seeded {mode : Mode} {executed : List (Snapshot S)} {snapshot seed : Snapshot S} {target : NodeId}
      (before : Descends inherited ⟨mode, executed, snapshot⟩) (visits : seed.trace = snapshot.trace ++ [target]) :
      Descends inherited ⟨.branch, [], seed⟩

namespace Engine
variable {engine : Engine W S} {inherited : List NodeId}

/-- The snapshot stands at the node and has not visited it more often than is allowed. -/
def WithinLimit (engine : Engine W S) (snapshot : Snapshot S) (node : NodeId) : Prop :=
  snapshot.currentNode = some node ∧
    (0 < engine.config.maxVisitsPerNode → snapshot.trace.count node ≤ engine.config.maxVisitsPerNode)

/-- The guards of a loop are exact where it takes up a snapshot. The turn that follows is the one of the loop,
whatever its branches and its later turns may be; it either fails at once or executes a node. -/
structure Exact (engine : Engine W S) (inherited : List NodeId) (uptake : Uptake S) : Prop where
  descends : uptake.Descends inherited
  atMost : uptake.executed.length ≤ engine.config.maxSteps
  within : ∀ given ∈ uptake.executed, ∃ node, engine.WithinLimit given node
  overrun : ∀ room branch onward limit,
    engine.turn room branch onward uptake.mode uptake.executed.length uptake.snapshot =
        failed (.maxStepsExceeded limit) uptake.snapshot ↔
      limit = engine.config.maxSteps ∧ uptake.executed.length = engine.config.maxSteps ∧
        ∃ node, uptake.snapshot.currentNode = some node
  overvisited : ∀ room branch onward node limit,
    engine.turn room branch onward uptake.mode uptake.executed.length uptake.snapshot =
        failed (.visitLimitExceeded node limit) uptake.snapshot ↔
      limit = engine.config.maxVisitsPerNode ∧ 0 < limit ∧ uptake.executed.length < engine.config.maxSteps ∧
        uptake.snapshot.currentNode = some node ∧ limit < uptake.snapshot.trace.count node
  executes : ∀ room branch onward,
    (∀ error, engine.turn room branch onward uptake.mode uptake.executed.length uptake.snapshot ≠
        failed error uptake.snapshot) ↔
      uptake.executed.length < engine.config.maxSteps ∧
        ∃ node, engine.WithinLimit uptake.snapshot node ∧ engine.topology.node? node ≠ none

section
variable {config : ExecutionConfig} {steps limit : Nat} {snapshot : Snapshot S} {current node : NodeId}

theorem visitCount_eq_count (snapshot : Snapshot S) (node : NodeId) :
    snapshot.visitCount node = snapshot.trace.count node := by
  rw [Snapshot.visitCount_eq]
  simp [List.count, beq_eq_decide]

theorem visitLimit_eq_some_iff : config.visitLimit = some limit ↔ limit = config.maxVisitsPerNode ∧ 0 < limit := by
  unfold ExecutionConfig.visitLimit
  split
  · rename_i limited
    rw [Option.some.injEq, eq_comm]
    exact (and_iff_left_of_imp fun same => same ▸ limited).symm
  · rename_i unlimited
    refine iff_of_false (by simp) ?_
    rintro ⟨rfl, limited⟩
    exact unlimited limited

theorem guardFault_eq_maxSteps_iff :
    guardFault config (steps + 1) snapshot current = some (.maxStepsExceeded limit) ↔
    limit = config.maxSteps ∧ config.maxSteps ≤ steps := by
  unfold guardFault
  by_cases many : config.maxSteps < steps + 1
  · simp [many, Nat.le_of_lt_succ many, eq_comm]
  · have few : ¬config.maxSteps ≤ steps := by omega
    rw [if_neg many]
    refine iff_of_false ?_ fun both => few both.2
    split
    · rintro ⟨⟩
    · split <;> rintro ⟨⟩

theorem guardFault_eq_visitLimit_iff :
    guardFault config (steps + 1) snapshot current = some (.visitLimitExceeded node limit) ↔
      config.visitLimit = some limit ∧ steps < config.maxSteps ∧ current = node ∧
        limit < snapshot.trace.count node := by
  unfold guardFault
  rw [← visitCount_eq_count]
  by_cases many : config.maxSteps < steps + 1
  · have none : ¬steps < config.maxSteps := by omega
    simp [many, none]
  · have some : steps < config.maxSteps := by omega
    rw [if_neg many]
    cases config.visitLimit with
    | none => simp
    | some most =>
        simp only [Option.some.injEq]
        constructor
        · intro fails
          split at fails
          · rename_i often
            cases fails
            exact ⟨rfl, some, rfl, often⟩
          · cases fails
        · rintro ⟨rfl, _, rfl, often⟩
          rw [if_pos often]

/-- A turn fails at once when its snapshot is nowhere, when a guard stops it, or at a node that the graph lacks. -/
theorem turn_eq_failed_iff {error : Error} (room : ForkRequest S → Nat)
    (branch onward : Snapshot S → Program W (Outcome S)) (mode : Mode) :
    engine.turn room branch onward mode steps snapshot = failed error snapshot ↔
      snapshot.currentNode = none ∧ error = .unpositioned ∨
        ∃ node, snapshot.currentNode = some node ∧
          (guardFault engine.config (steps + 1) snapshot node = some error ∨
            guardFault engine.config (steps + 1) snapshot node = none ∧
              engine.topology.node? node = none ∧ error = .nodeNotFound node) := by
  unfold turn
  cases snapshot.currentNode with
  | none => simp [failed, eq_comm]
  | some current =>
      simp only [reduceCtorEq, false_and, false_or, Option.some.injEq, exists_eq_left']
      cases guardFault engine.config (steps + 1) snapshot current with
      | some fault => simp [failed]
      | none =>
          cases engine.topology.node? current with
          | none => simp [failed, eq_comm]
          | some node => simp [failed, notify]

theorem turn_eq_failed_guard_iff {error : Error} (positioned : error ≠ .unpositioned)
    (known : ∀ node, error ≠ .nodeNotFound node) (room : ForkRequest S → Nat)
    (branch onward : Snapshot S → Program W (Outcome S)) (mode : Mode) :
    engine.turn room branch onward mode steps snapshot = failed error snapshot ↔
      ∃ node, snapshot.currentNode = some node ∧
        guardFault engine.config (steps + 1) snapshot node = some error := by
  simp [turn_eq_failed_iff, positioned, known]

theorem turn_ne_failed_iff (room : ForkRequest S → Nat) (branch onward : Snapshot S → Program W (Outcome S))
    (mode : Mode) : (∀ error, engine.turn room branch onward mode steps snapshot ≠ failed error snapshot) ↔
      ∃ node, snapshot.currentNode = some node ∧ guardFault engine.config (steps + 1) snapshot node = none ∧
        engine.topology.node? node ≠ none := by
  simp only [ne_eq, turn_eq_failed_iff, not_or]
  cases snapshot.currentNode with
  | none => simp
  | some current =>
      simp only [reduceCtorEq, false_and, not_false_eq_true, true_and, Option.some.injEq, exists_eq_left']
      cases guardFault engine.config (steps + 1) snapshot current with
      | some fault => simp
      | none => simp

theorem guard_passes_iff (standing : snapshot.currentNode = some current) :
    guardFault engine.config (steps + 1) snapshot current = none ↔
      steps < engine.config.maxSteps ∧ engine.WithinLimit snapshot current := by
  rw [guardFault_eq_none_iff, Limited, WithinLimit, visitCount_eq_count, and_iff_right standing]
  omega

end

theorem exact_of_descends {uptake : Uptake S} (descends : uptake.Descends inherited)
    (atMost : uptake.executed.length ≤ engine.config.maxSteps)
    (within : ∀ given ∈ uptake.executed, ∃ node, engine.WithinLimit given node) : engine.Exact inherited uptake where
  descends := descends
  atMost := atMost
  within := within
  overrun room branch onward limit := by
    rw [turn_eq_failed_guard_iff (by simp) (by simp)]
    simp only [guardFault_eq_maxSteps_iff]
    constructor
    · rintro ⟨node, standing, same, many⟩
      exact ⟨same, Nat.le_antisymm atMost many, node, standing⟩
    · rintro ⟨same, many, node, standing⟩
      exact ⟨node, standing, same, Nat.le_of_eq many.symm⟩
  overvisited room branch onward node limit := by
    rw [turn_eq_failed_guard_iff (by simp) (by simp)]
    simp only [guardFault_eq_visitLimit_iff, visitLimit_eq_some_iff]
    constructor
    · rintro ⟨_, standing, ⟨same, limited⟩, few, rfl, often⟩
      exact ⟨same, limited, few, standing, often⟩
    · rintro ⟨same, limited, few, standing, often⟩
      exact ⟨node, standing, ⟨same, limited⟩, few, rfl, often⟩
  executes room branch onward := by
    rw [turn_ne_failed_iff]
    constructor
    · rintro ⟨node, standing, free, known⟩
      obtain ⟨few, within⟩ := (guard_passes_iff standing).mp free
      exact ⟨few, node, within, known⟩
    · rintro ⟨few, node, within, known⟩
      exact ⟨node, within.1, (guard_passes_iff within.1).mpr ⟨few, within⟩, known⟩

theorem StepsTo.keeps {mode : Mode} {steps : Nat} {snapshot : Snapshot S} {step : Step S}
    (takes : engine.StepsTo mode steps snapshot step) : StepKeeps snapshot step := by
  obtain ⟨_, _, _, _, _, applied⟩ := takes
  exact apply_keeps applied

theorem HandsOn.descends {uptake next : Uptake S} (hands : engine.HandsOn uptake next)
    (before : uptake.Descends inherited) : next.Descends inherited := by
  cases hands with
  | moved steps =>
      cases steps.keeps with
      | proceed _ moves _ => exact .moved before moves
  | @rejoined request node joined _ _ last steps meets settled =>
      cases steps.keeps with
      | fork _ _ stands =>
          have visits : last.trace = uptake.snapshot.trace ++ (walks uptake.snapshot joined).flatten ++ [node] := by
            obtain ⟨merged, position, _, standing, rfl⟩ := reconcile_eq_ok settled
            rw [trace_reconciled standing, walks, Snapshot.trace_of_position stands, walks]
          exact .rejoined before (Snapshot.trace_of_position stands) meets visits
  | @seeded request target time steps =>
      cases steps.keeps with
      | fork _ _ stands =>
          have visits : (request.base.moveTo target time).trace = uptake.snapshot.trace ++ [target] := by
            rw [← Snapshot.trace_of_position stands]
            exact request.base.trace_reposition time fun position => position.visited_moveTo target
          exact .seeded before visits

theorem Exact.hands {uptake next : Uptake S} (exact : engine.Exact inherited uptake)
    (hands : engine.HandsOn uptake next) : engine.Exact inherited next := by
  have descends := hands.descends exact.descends
  have goesOn {step : Step S} (steps : engine.StepsTo uptake.mode uptake.executed.length uptake.snapshot step) :
      uptake.executed.length < engine.config.maxSteps ∧
        ∀ given ∈ uptake.executed ++ [uptake.snapshot], ∃ node, engine.WithinLimit given node := by
    obtain ⟨current, _, _, standing, free, _⟩ := steps
    obtain ⟨few, within⟩ := (guard_passes_iff standing).mp free
    refine ⟨few, fun given member => ?_⟩
    rcases List.mem_append.mp member with earlier | last
    · exact exact.within given earlier
    · exact List.mem_singleton.mp last ▸ ⟨current, within⟩
  cases hands with
  | moved steps | rejoined steps =>
      obtain ⟨few, within⟩ := goesOn steps
      refine exact_of_descends descends ?_ within
      rw [List.length_append, List.length_singleton]
      exact few
  | seeded => exact exact_of_descends descends (Nat.zero_le _) (by simp)

end Engine

namespace Request

def resumedInto (workflow : Workflow W S O) (loop : Snapshot S → Program W (Outcome S)) (snapshot : Snapshot S)
    (updates : Context) (options : ResumeOptions) : Program W (Outcome S) :=
  .clock fun readings =>
    match workflow.prepareResume snapshot updates options readings with
    | .error (error, snapshot) => .done (.failed error (some snapshot))
    | .ok first => workflow.engine.notify (.workflowResumed first) (loop first)

/-- What a run does if it goes on with this loop. -/
def into (workflow : Workflow W S O) (loop : Snapshot S → Program W (Outcome S)) :
    Request S → Program W (Outcome S)
  | start input context =>
    .call (workflow.ids IdentKind.workflow.name) fun text =>
      match Ident.ofText text with
      | .error error => .done (.failed error none)
      | .ok id => .clock fun readings =>
        let first := Snapshot.initial id input context workflow.engine.topology.entry (readings 0)
        workflow.engine.notify (.workflowStarted first) (loop first)
  | resume snapshot => resumedInto workflow loop snapshot .empty ⟨workflow.config.resume.strict⟩
  | resumeWith snapshot updates options => resumedInto workflow loop snapshot updates options

theorem program_eq_into (workflow : Workflow W S O) (allowance : Nat) (request : Request S) :
    request.program workflow allowance = request.into workflow (workflow.engine.drive allowance .root 0) := by
  cases request <;> rfl

/-- The history that a run takes over from a snapshot. Going on at the node where it stands is no visit. -/
def inheritedFrom (workflow : Workflow W S O) (snapshot : Snapshot S) : List NodeId :=
  match Workflow.resumeFault workflow.engine.topology snapshot with
  | none => snapshot.trace
  | some _ => snapshot.trace ++ [workflow.engine.topology.entry]

def inherited (workflow : Workflow W S O) : Request S → List NodeId
  | start .. => [workflow.engine.topology.entry]
  | resume snapshot | resumeWith snapshot _ _ => inheritedFrom workflow snapshot

variable {workflow : Workflow W S O} {loop other : Snapshot S → Program W (Outcome S)}

theorem trace_of_prepareResume {snapshot first : Snapshot S} {updates : Context} {options : ResumeOptions}
    {readings : Readings} (accepted : workflow.prepareResume snapshot updates options readings = .ok first) :
    first.trace = inheritedFrom workflow snapshot := by
  have updated := Snapshot.trace_of_position (Engine.position_withUpdates snapshot updates none readings)
  rw [Workflow.prepareResume_eq] at accepted
  unfold inheritedFrom
  cases fault : Workflow.resumeFault workflow.engine.topology snapshot with
  | none =>
      simp only [fault] at accepted
      cases accepted
      exact updated
  | some problem =>
      simp only [fault] at accepted
      split at accepted
      · cases accepted
      · cases accepted
        rw [← updated]
        exact Snapshot.trace_reposition _ _ fun position => position.visited_resetTo _

theorem resumedInto_congr {snapshot : Snapshot S} (updates : Context) (options : ResumeOptions)
    (same : ∀ first, first.trace = inheritedFrom workflow snapshot → loop first = other first) :
    resumedInto workflow loop snapshot updates options = resumedInto workflow other snapshot updates options := by
  unfold resumedInto
  congr 1
  funext readings
  cases prepared : workflow.prepareResume snapshot updates options readings with
  | error refusal => rfl
  | ok first => exact congrArg (workflow.engine.notify _) (same first (trace_of_prepareResume prepared))

theorem into_congr (request : Request S)
    (same : ∀ first, first.trace = request.inherited workflow → loop first = other first) :
    request.into workflow loop = request.into workflow other := by
  cases request with
  | start input context =>
      simp only [into]
      congr 1
      funext text
      cases (Ident.ofText text : Except Error WorkflowId) with
      | error error => rfl
      | ok id =>
          simp only
          congr 1
          funext readings
          exact congrArg (workflow.engine.notify _) (same _ rfl)
  | resume snapshot => exact resumedInto_congr _ _ same
  | resumeWith snapshot updates options => exact resumedInto_congr _ _ same

end Request

/-- The guards of every loop are exact, of the run itself and of its branches at any depth. A watch is asked at
each snapshot that one of these loops takes up, and may break the run there or do anything else. If it does so
only where the guards are not exact, it never does: with the watch and without it, the run is the same. -/
theorem guards_are_exact (workflow : Workflow W S O) (request : Request S) (watch : Watch W S)
    (passes : ∀ uptake, workflow.engine.Exact (request.inherited workflow) uptake → watch uptake = id)
    (allowance : Nat) :
    request.into workflow (fun first => workflow.engine.watched watch allowance ⟨.root, [], first⟩) =
      request.program workflow allowance := by
  rw [Request.program_eq_into]
  refine request.into_congr fun first inherits => ?_
  refine Engine.watched_eq_drive (fun _ _ exact hands => exact.hands hands) passes allowance ⟨.root, [], first⟩ ?_
  exact Engine.exact_of_descends (.begun inherits) (Nat.zero_le _) (by simp)

section

/-- A circle of at most two steps, on which no node may be visited three times. -/
def pacing : Blueprint Unit Unit Unit :=
  { circling with config := { execution := { maxSteps := 2, maxVisitsPerNode := 2 } } }

/-- Breaks a run if a loop in it has executed more than two nodes. -/
def pacemaker : Watch Unit Unit := fun uptake program =>
  if uptake.executed.length ≤ 2 then program else .broken (.text "too many steps")

def circled : Snapshot Unit :=
  (Snapshot.initial ⟨"circled", by decide +kernel, by decide⟩ () .empty turnNode default).moveTo turnNode default

/-- A run from the start of the circle takes all its steps. One that goes on behind the first round is stopped
by the visits that it has inherited. -/
theorem circle_is_stopped : ∃ workflow, pacing.build = .ok workflow ∧
    (∀ (request : Request Unit) (allowance : Nat), request.into workflow
        (fun first => workflow.engine.watched pacemaker allowance ⟨.root, [], first⟩) =
      request.program workflow allowance) ∧
    (∃ last,
      (workflow.perform (fun _ _ => default) 20 (workflow.start 20 () .empty) ()).map Workflow.Ending.verdict =
        some (.settled (.failure (.maxStepsExceeded 2) (some last))) ∧ last.trace = [turnNode, turnNode, turnNode]) ∧
    ∃ last, (workflow.perform (fun _ _ => default) 20 (workflow.resume 20 circled) ()).map Workflow.Ending.verdict =
        some (.settled (.failure (.visitLimitExceeded turnNode 2) (some last))) ∧
          last.trace = [turnNode, turnNode, turnNode] := by
  refine ⟨_, rfl, fun request allowance => ?_, ⟨_, rfl, rfl⟩, ⟨_, rfl, rfl⟩⟩
  refine guards_are_exact _ request pacemaker (fun uptake exact => ?_) allowance
  funext program
  exact if_pos exact.atMost

end

end FlowGraph
