import Mathlib.Logic.Basic
import FlowGraph.Engine.Step
import FlowGraph.Workflow.Blueprint

/-!
What stands between a fork and its branches. A traversal needs an edge that admits the snapshot; a fork
only asks that its targets exist and are adjacent, whether or not edge conditions are enforced.
-/

namespace FlowGraph.Engine
variable {W S : Type}

def Admits (engine : Engine W S) (source : NodeId) (snapshot : Snapshot S) (target : NodeId) : Prop :=
  ∃ edge ∈ engine.topology.edgesBetween source target, edge.admits snapshot = .ok true

/-- A node that a fork cannot start a branch at. -/
def Unreachable (engine : Engine W S) (source target : NodeId) : Prop :=
  engine.topology.contains target = false ∨ engine.topology.edgesBetween source target = []

/-- The targets that a strategy is to start: all of them, or those whose condition holds. -/
def chosen (base : Snapshot S) (targets : List NodeId) (strategy : ForkStrategy)
    (conditions : Dict NodeId (Condition S)) : List NodeId :=
  match strategy with
  | .parallel | .sequential => targets
  | .conditional => targets.filter fun target => branchHolds conditions base target matches .ok true

def EndsInTraversalError (step : Step S) : Prop :=
  ∃ source target reason snapshot,
    step = .finish (.failed (.traversal source target reason) snapshot)

/-- Edge conditions gate a fork: branches start only where an edge admits the snapshot, and a target that
no edge admits ends the run with a traversal error. -/
structure Gated (engine : Engine W S) (source : NodeId) (snapshot : Snapshot S)
    (targets : List NodeId) (step : Step S) : Prop where
  started : ∀ request, step = .fork request →
    ∀ target ∈ request.targets, engine.Admits source snapshot target
  refused : (∃ target ∈ targets, ¬engine.Admits source snapshot target) → EndsInTraversalError step

theorem forkFault_eq_none_iff (engine : Engine W S) (source : NodeId) (targets : List NodeId) :
    engine.forkFault source targets = none ↔ ∀ target ∈ targets, ¬engine.Unreachable source target := by
  induction targets with
  | nil => simp [forkFault]
  | cons target rest ih =>
      simp only [forkFault, List.forall_mem_cons, Unreachable, not_or]
      by_cases known : engine.topology.contains target
      · by_cases apart : engine.topology.edgesBetween source target = []
        · simp [known, apart]
        · simp only [known, Bool.not_true, Bool.false_eq_true, ↓reduceIte, List.isEmpty_iff, apart, ih,
            Bool.true_eq_false, not_false_eq_true, and_self, true_and, Unreachable, not_or]
      · simp [known]

theorem forkFault_traversal (engine : Engine W S) (source : NodeId) (targets : List NodeId)
    (error : Error) (fault : engine.forkFault source targets = some error) :
    ∃ target ∈ targets, engine.Unreachable source target ∧
      ∃ reason, error = .traversal source target reason := by
  induction targets with
  | nil => simp [forkFault] at fault
  | cons target rest ih =>
      simp only [forkFault] at fault
      split at fault
      · rename_i missing
        exact ⟨target, List.mem_cons_self, .inl (by simpa using missing), _,
          (Option.some.inj fault).symm⟩
      split at fault
      · rename_i apart
        exact ⟨target, List.mem_cons_self, .inr (List.isEmpty_iff.mp apart), _,
          (Option.some.inj fault).symm⟩
      · obtain ⟨later, member, unreachable, reason, same⟩ := ih fault
        exact ⟨later, List.mem_cons_of_mem target member, unreachable, reason, same⟩

theorem eligible_eq_chosen (conditions : Dict NodeId (Condition S)) (base : Snapshot S)
    (targets kept : List NodeId) (evaluated : eligible conditions base targets = .ok kept) :
    kept = chosen base targets .conditional conditions := by
  induction targets generalizing kept with
  | nil =>
      cases evaluated
      rfl
  | cons target rest ih =>
      cases held : branchHolds conditions base target with
      | error panic => simp [eligible, held, bind, Except.bind] at evaluated
      | ok holds =>
          cases others : eligible conditions base rest with
          | error panic => simp [eligible, held, others, bind, Except.bind] at evaluated
          | ok remaining =>
              have tail := ih remaining others
              simp only [eligible, held, others, bind, Except.bind, pure, Except.pure,
                Except.ok.injEq] at evaluated
              subst evaluated tail
              cases holds <;> simp [chosen, held]

theorem chosen_subset (base : Snapshot S) (targets : List NodeId) (strategy : ForkStrategy)
    (conditions : Dict NodeId (Condition S)) : chosen base targets strategy conditions ⊆ targets := by
  cases strategy with
  | parallel => exact List.Subset.refl _
  | sequential => exact List.Subset.refl _
  | conditional => exact List.filter_sublist.subset

theorem forkTargets_answers {source : NodeId} {base : Snapshot S} {targets : List NodeId} {strategy : ForkStrategy}
    {conditions : Dict NodeId (Condition S)} {answer : Except Error (List NodeId)}
    (evaluated : forkTargets source base targets strategy conditions = .ok answer) :
    answer = .ok (chosen base targets strategy conditions) ∨
      chosen base targets strategy conditions = [] ∧
        ∃ target reason, answer = .error (.traversal source target reason) := by
  cases strategy with
  | parallel | sequential =>
      cases evaluated
      exact .inl rfl
  | conditional =>
      cases found : eligible conditions base targets with
      | error panic => simp [forkTargets, found, bind, Except.bind] at evaluated
      | ok kept =>
          rw [← eligible_eq_chosen conditions base targets kept found]
          simp only [forkTargets, found, bind, Except.bind, pure, Except.pure] at evaluated
          split at evaluated
          · rename_i first others
            cases evaluated
            exact .inr ⟨rfl, first, _, rfl⟩
          · cases evaluated
            exact .inl rfl

theorem forkTargets_started {source : NodeId} {base : Snapshot S} {targets started : List NodeId}
    {strategy : ForkStrategy} {conditions : Dict NodeId (Condition S)}
    (evaluated : forkTargets source base targets strategy conditions = .ok (.ok started)) :
    started = chosen base targets strategy conditions := by
  rcases forkTargets_answers evaluated with same | ⟨_, _, _, impossible⟩
  · cases same
    rfl
  · cases impossible

theorem forkTargets_refused {source : NodeId} {base : Snapshot S} {targets : List NodeId} {strategy : ForkStrategy}
    {conditions : Dict NodeId (Condition S)} {error : Error}
    (evaluated : forkTargets source base targets strategy conditions = .ok (.error error)) :
    chosen base targets strategy conditions = [] ∧
      ∃ target reason, error = .traversal source target reason := by
  rcases forkTargets_answers evaluated with impossible | ⟨empty, target, reason, same⟩
  · cases impossible
  · cases same
    exact ⟨empty, target, reason, rfl⟩

theorem gated_of_traversalError {engine : Engine W S} {source : NodeId} {snapshot : Snapshot S}
    {targets : List NodeId} {step : Step S} (ended : EndsInTraversalError step) :
    engine.Gated source snapshot targets step := by
  refine ⟨?_, fun _ => ended⟩
  rintro request rfl
  obtain ⟨_, _, _, _, impossible⟩ := ended
  cases impossible

theorem gated_fork_iff (engine : Engine W S) (snapshot : Snapshot S) (request : ForkRequest S)
    (source : NodeId) : engine.Gated source snapshot request.targets (.fork request) ↔
      ∀ target ∈ request.targets, engine.Admits source snapshot target := by
  constructor
  · intro gated
    exact gated.started request rfl
  · intro admitted
    constructor
    · rintro other same
      cases same
      exact admitted
    · rintro ⟨target, member, refused⟩
      exact absurd (admitted target member) refused

/-- A fork is gated by edge conditions exactly if these are not enforced, some target is missing or not
adjacent, or each target that is to start happens to be admitted. Nothing else refuses a fork. -/
theorem fork_gated_iff (engine : Engine W S) (mode : Mode) (source : NodeId) (snapshot : Snapshot S)
    (targets : List NodeId) (strategy : ForkStrategy) (conditions : Dict NodeId (Condition S))
    (data : Option S) (updates : Context) (readings : Readings) (step : Step S)
    (applied : engine.apply mode source snapshot ⟨.fork targets strategy conditions data, updates⟩
      readings = .ok step) :
    (engine.config.enforceEdgeConditions = true →
      engine.Gated source snapshot
        (chosen (withUpdates snapshot updates data readings) targets strategy conditions) step) ↔
      engine.config.enforceEdgeConditions = false ∨
        (∃ target ∈ targets, engine.Unreachable source target) ∨
        ∀ target ∈ chosen (withUpdates snapshot updates data readings) targets strategy conditions,
          engine.Admits source snapshot target := by
  rw [← Bool.not_eq_true, imp_iff_not_or]
  apply or_congr_right
  simp only [apply] at applied
  split at applied
  · rename_i error fault
    cases applied
    obtain ⟨target, member, unreachable, reason, rfl⟩ :=
      forkFault_traversal engine source targets error fault
    have ended : EndsInTraversalError (S := S)
        (.finish (.failed (.traversal source target reason) (some snapshot))) :=
      ⟨source, target, reason, some snapshot, rfl⟩
    exact iff_of_true (gated_of_traversalError ended) (.inl ⟨target, member, unreachable⟩)
  · rename_i sound
    have reachable : ¬∃ target ∈ targets, engine.Unreachable source target := by
      rintro ⟨target, member, unreachable⟩
      exact (forkFault_eq_none_iff engine source targets).mp sound target member unreachable
    rw [or_iff_right reachable]
    cases evaluated : forkTargets source (withUpdates snapshot updates data readings) targets strategy
        conditions with
    | error panic => simp [evaluated, bind, Except.bind] at applied
    | ok answer =>
        simp only [evaluated, bind, Except.bind, pure, Except.pure] at applied
        cases answer with
        | error error =>
            cases applied
            obtain ⟨empty, target, reason, rfl⟩ := forkTargets_refused evaluated
            have ended : EndsInTraversalError (S := S) (.finish (.failed
                (.traversal source target reason)
                (some (withUpdates snapshot updates data readings)))) :=
              ⟨source, target, reason, _, rfl⟩
            rw [empty]
            exact iff_of_true (gated_of_traversalError ended) (by simp)
        | ok started =>
            cases applied
            rw [← forkTargets_started evaluated]
            exact gated_fork_iff engine snapshot ⟨source, _, started, strategy⟩ source

section
def forkNode : NodeId := ⟨"fork", by decide +kernel, by decide⟩
def branchNode : NodeId := ⟨"branch", by decide +kernel, by decide⟩

def gatedFork (condition : Condition Unit) : Blueprint Unit Unit Unit where
  name := none
  nodes :=
    [(Node.new forkNode fun _ =>
        .done (.ok (.ofAction (.fork [branchNode] .parallel .empty none)))).asEntryPoint,
      Node.new branchNode fun _ => .done (.ok .complete)]
  edges := [.new ⟨"gate", by decide +kernel, by decide⟩ forkNode branchNode condition default]
  defaultEntry := none
  extractor := some fun _ => .pure (.ok ())
  monitors := [.silent]
  executor := .pure true
  merger := .lastWriterWins
  ids := fun _ => .pure "run"
  tracer := fun _ => .pure ()
  timers := none
  config := {}

def atFork : Snapshot Unit := .initial ⟨"forking", by decide +kernel, by decide⟩ () .empty forkNode default

def succeedsAt (node : NodeId) : Option (Workflow.Ending Unit Unit Unit) → Bool
  | some ⟨.settled (.success _ final), _, _⟩ => final.currentNode = some node
  | _ => false

theorem fork_gated_when_admitted :
    ∃ workflow, (gatedFork .always).build = .ok workflow ∧
      workflow.engine.Gated forkNode atFork [branchNode]
        (.fork ⟨forkNode, atFork, [branchNode], .parallel⟩) := by
  refine ⟨_, rfl, ?_⟩
  refine (fork_gated_iff _ .root forkNode atFork [branchNode] .parallel .empty none .empty default _
    (by rfl)).mpr (.inr (.inr ?_)) rfl
  intro target member
  cases List.mem_singleton.mp member
  exact ⟨_, List.mem_singleton_self _, rfl⟩

/-- With edge conditions enforced, a fork runs a branch behind an edge that admits nothing. -/
theorem fork_runs_refused_branch :
    ∃ workflow, (gatedFork .never).build = .ok workflow ∧
      workflow.engine.config.enforceEdgeConditions = true ∧
      (∀ snapshot, ¬workflow.engine.Admits forkNode snapshot branchNode) ∧
      succeedsAt branchNode
        (workflow.perform (fun _ _ => default) 10 (workflow.start 10 () .empty) ()) = true := by
  refine ⟨_, rfl, rfl, ?_, by decide +kernel⟩
  rintro snapshot ⟨edge, member, admitted⟩
  cases List.mem_singleton.mp member
  cases admitted

end

end FlowGraph.Engine
