import FlowGraph.Proofs.Containment.Loop
import FlowGraph.Proofs.Workflow.Noting

/-!
Runs that are finite. A run whose loop cannot go on forever has an ending, and only finitely many nodes are
executed in it, those of branches that it leaves behind included.
-/

namespace FlowGraph

section
variable {W N α : Type}

theorem Activity.mayEnd_of_beside {activity : Activity W α} {attempt : Attempt α}
    (may : (activity.beside N).MayEnd attempt) : activity.MayEnd attempt := by
  induction activity with
  | done value => exact may
  | call effect next ih =>
      obtain ⟨value, gives, rest⟩ := may
      exact ⟨value, Effect.gives_of_beside gives, ih value rest⟩
  | sleep millis next ih => exact ih () may
  | broken panic => exact may
  | never => exact may

end

namespace Engine
variable {W S : Type} {engine : Engine W S} {mode : Mode} {snapshot : Snapshot S}

theorem Answers.of_noting {step : Step S} (answers : engine.noting.Answers mode snapshot step) :
    engine.Answers mode snapshot step := by
  obtain ⟨current, node, command, readings, steps, standing, free, found, may, applied⟩ := answers
  rw [engine.node?_noting, Option.map_eq_some_iff] at found
  obtain ⟨plain, found, rfl⟩ := found
  rw [← Node.lifecycle_beside] at may
  rw [apply_noting] at applied
  exact ⟨current, plain, command, readings, steps, standing, free, found, Activity.mayEnd_of_beside may, applied⟩

theorem Ends.of_noting {outcome : Outcome S} (ends : engine.noting.Ends mode snapshot outcome) :
    engine.Ends mode snapshot outcome := by
  induction ends with
  | stopped mode snapshot error => exact .stopped mode snapshot error
  | finished answers => exact .finished answers.of_noting
  | moved answers _ ih => exact .moved answers.of_noting ih
  | unjoined answers error => exact .unjoined answers.of_noting error
  | branchEnded answers started _ other ih => exact .branchEnded answers.of_noting started ih other
  | astray answers started _ error ih => exact .astray answers.of_noting started ih error
  | rejoined answers started _ agreed merges standing _ branchesIh ih =>
      exact .rejoined answers.of_noting started branchesIh agreed (Effect.gives_of_noting merges) standing ih

theorem Turn.of_noting {next : Snapshot S} (turn : engine.noting.Turn mode snapshot next) :
    engine.Turn mode snapshot next := by
  cases turn with
  | moved answers => exact .moved answers.of_noting
  | rejoined answers rejoins =>
      obtain ⟨⟨policy, reports, agreed, reported⟩, merged, position, readings, merges, rest⟩ := rejoins
      refine .rejoined answers.of_noting ⟨⟨policy, reports, agreed, fun report member => ?_⟩,
        merged, position, readings, Effect.gives_of_noting merges, rest⟩
      obtain ⟨started, time, ends⟩ := reported report member
      exact ⟨started, time, ends.of_noting⟩

theorem Seeds.of_noting {seed : Snapshot S} (seeds : engine.noting.Seeds mode snapshot seed) :
    engine.Seeds mode snapshot seed := by
  obtain ⟨answers, member, begins⟩ := seeds
  exact ⟨answers.of_noting, member, begins⟩

theorem Stops.noting {steps : Nat} (stops : engine.Stops steps snapshot) :
    engine.noting.Stops steps snapshot := by
  intro current standing free
  rw [engine.node?_noting, stops current standing free]
  rfl

theorem Shallow.noting {depth steps : Nat} (shallow : engine.Shallow depth mode steps snapshot) :
    engine.noting.Shallow depth mode steps snapshot := by
  induction shallow with
  | stops stops => exact .stops stops.noting
  | goesOn _ _ onward branches =>
      exact .goesOn (fun next turn => onward next turn.of_noting) fun seed seeds =>
        branches seed seeds.of_noting

theorem returns_noting (returns : ∀ id node, engine.topology.node? id = some node → node.Returns) :
    ∀ id node, engine.noting.topology.node? id = some node → node.Returns := by
  intro id node found
  rw [engine.node?_noting, Option.map_eq_some_iff] at found
  obtain ⟨plain, found, rfl⟩ := found
  exact (returns id plain found).beside

end Engine

namespace Machine
variable {W R ρ : Type} {attached : Bool} {clock : Nat → Readings} {close : R → Effect W ρ}

theorem round_of_nobody {machine : Machine W R} (nobody : machine.strands = []) :
    machine.round attached clock close = machine := by
  simp only [strands, List.append_eq_nil_iff, List.map_eq_nil_iff, Option.toList_eq_nil_iff] at nobody
  obtain ⟨⟨ready, parked⟩, held⟩ := nobody
  simp only [round, ready, held, jump, parked, earliest, Option.map_none, Option.getD_none]

theorem ComesToRest.world_mem {seen : List W} {rounds : Nat} {machine : Machine W R}
    (rest : machine.ComesToRest attached clock close seen rounds) :
    ∀ number, ((Machine.round attached clock close)^[number] machine).world ∈ seen := by
  induction rest with
  | rest known nobody =>
      intro number
      rw [Function.iterate_fixed (round_of_nobody nobody)]
      exact known
  | round known _ _ ih =>
      intro number
      cases number with
      | zero => exact known
      | succ number => exact ih number

end Machine

section
variable {S : Type}

def Note.executes? : Note S → Option NodeId
  | .told (.nodeStarted node _) => some node
  | _ => none

end

namespace Workflow
variable {W S O : Type}

/-- The nodes that the loops of a run have executed in its first rounds, those of all branches included. -/
def executed (workflow : Workflow W S O) (attached : Bool) (clock : Nat → Readings) (allowance : Nat)
    (request : Request S) (world : W) (rounds : Nat) : List NodeId :=
  (workflow.notes attached clock allowance request world rounds).filterMap Note.executes?

/-- A run that ends as soon as its allowance is large enough, with a result where there are timers. It executes
at most so many nodes, however long one looks on. -/
def Finite (workflow : Workflow W S O) (attached : Bool) (clock : Nat → Readings) (request : Request S)
    (world : W) : Prop :=
  ∃ enough most, ∀ allowance, enough ≤ allowance →
    (∃ verdict machine, workflow.run attached clock allowance request world = some (verdict, machine) ∧
      (workflow.engine.timers = none → ∃ result, verdict = .settled result)) ∧
      ∀ rounds, (workflow.executed attached clock allowance request world rounds).length ≤ most

variable {workflow : Workflow W S O} {attached : Bool} {clock : Nat → Readings} {request : Request S} {world : W}

theorem performs_of_finite (finite : ∀ attached world, workflow.Finite attached clock request world) (world : W) :
    ∃ enough, ∀ allowance, enough ≤ allowance →
      (workflow.perform clock allowance (request.program workflow allowance) world).isSome ∧
        (workflow.performAsync clock allowance (request.program workflow allowance) world).isSome := by
  obtain ⟨enough, _, ends⟩ := finite true world
  obtain ⟨later, _, endsLater⟩ := finite false (workflow.engine.executor 0 world).2
  refine ⟨max enough later, fun allowance sufficient => ⟨?_, ?_⟩⟩
  · obtain ⟨verdict, machine, finished, _⟩ := (ends allowance (by omega)).1
    rw [perform_eq_run, finished]
    rfl
  · cases given : workflow.engine.executor 0 world with
    | mk taken view =>
        cases taken with
        | false => simp [performAsync, given]
        | true =>
            rw [given] at endsLater
            obtain ⟨verdict, machine, finished, _⟩ := (endsLater allowance (by omega)).1
            rw [performAsync_eq_run given, finished]
            rfl

theorem runs_program (workflow : Workflow W S O) (allowance : Nat) (request : Request S) :
    workflow.Runs (request.program workflow allowance) := by
  cases request with
  | start input context => exact .start allowance input context
  | resume snapshot => exact .resume allowance snapshot
  | resumeWith snapshot updates options => exact .resumeWith allowance snapshot updates options

/-- The programs of the workflow never panic. -/
def Calm (workflow : Workflow W S O) : Prop :=
  ∀ program, workflow.Runs program → program.Yields Engine.Settles

theorem Calm.settled (calm : workflow.Calm) {allowance : Nat} {verdict : Verdict (Result S O)}
    {machine : Machine W (Outcome S)}
    (finished : workflow.run attached clock allowance request world = some (verdict, machine)) :
    ∃ result, verdict = .settled result := by
  have followed := Machine.run_follows attached clock workflow.finish allowance world _ verdict machine finished
  cases verdict with
  | settled result => exact ⟨result, rfl⟩
  | broken panic =>
      obtain ⟨ledger, history, reached⟩ := followed
      exact ((calm _ (workflow.runs_program allowance request)).after history reached).elim

theorem finite_of_shallow (calm : workflow.engine.timers = none → workflow.Calm)
    (returns : ∀ id node, workflow.engine.topology.node? id = some node → node.Returns) {depth : Nat}
    (shallow : ∀ first, request.entry workflow clock world = .ok first →
      workflow.engine.Shallow depth .root 0 first) : workflow.Finite attached clock request world := by
  obtain ⟨enough, ends⟩ := run_ends returns shallow attached
  have noted : ∃ enough seen rounds, ∀ allowance, enough ≤ allowance →
      (Machine.start (world, []) (request.program workflow.noting allowance)).ComesToRest attached clock
        workflow.noting.finish seen rounds :=
    comes_to_rest (Engine.returns_noting returns)
      (fun first enters => (shallow first (entry_noting [] ▸ enters)).noting) attached
  obtain ⟨later, seen, rounds, rests⟩ := noted
  refine ⟨max enough later, (seen.map fun world => world.2.length).sum, fun allowance sufficient => ⟨?_, ?_⟩⟩
  · obtain ⟨verdict, machine, finished⟩ := ends allowance (by omega)
    exact ⟨verdict, machine, finished, fun timers => (calm timers).settled finished⟩
  · intro number
    have known := (rests allowance (by omega)).world_mem number
    refine Nat.le_trans (List.length_filterMap_le _ _) ?_
    exact List.le_sum_of_mem (List.mem_map_of_mem known)

end Workflow
end FlowGraph
