import FlowGraph.Proofs.ForkGate
import FlowGraph.Proofs.Loop.Pauses

/-!
A conditional fork is a parallel fork of those targets whose conditions hold behind the updates of its command. The
others are left out before anything starts, so the join never counts them.
-/

namespace FlowGraph.Engine
variable {W S : Type}

def NonePanics (conditions : Dict NodeId (Condition S)) (base : Snapshot S) (targets : List NodeId) : Prop :=
  ∀ target ∈ targets, ∀ condition, conditions.get? target = some condition →
    ∃ held, condition.evaluate base = .ok held

/-- Whether the target has no condition of its own, or one that holds. -/
def mayStart (conditions : Dict NodeId (Condition S)) (base : Snapshot S) (target : NodeId) : Bool :=
  (conditions.get? target).all fun condition => condition.evaluate base matches .ok true

theorem chosen_conditional (base : Snapshot S) (targets : List NodeId) (conditions : Dict NodeId (Condition S)) :
    chosen base targets .conditional conditions = targets.filter (mayStart conditions base) := by
  refine List.filter_congr fun target _ => ?_
  unfold branchHolds mayStart
  cases conditions.get? target <;> rfl

theorem eligible_of_calm {conditions : Dict NodeId (Condition S)} {base : Snapshot S} {targets : List NodeId}
    (calm : NonePanics conditions base targets) :
    eligible conditions base targets = .ok (targets.filter (mayStart conditions base)) := by
  have succeeds : (eligible conditions base targets).Succeeds := by
    induction targets with
    | nil => exact Attempt.succeeds_pure []
    | cons target rest ih =>
        have holds : (branchHolds conditions base target).Succeeds := by
          unfold branchHolds
          cases found : conditions.get? target with
          | none => exact Attempt.succeeds_pure true
          | some condition => exact calm target List.mem_cons_self condition found
        have others := ih fun later member => calm later (List.mem_cons_of_mem target member)
        exact holds.bind fun _ => others.bind fun _ => Attempt.succeeds_pure _
  obtain ⟨kept, evaluated⟩ := succeeds
  rw [evaluated, eligible_eq_chosen conditions base targets kept evaluated, chosen_conditional]

section
variable (engine : Engine W S) (mode : Mode) (current : NodeId) (snapshot : Snapshot S) (updates : Context)
  (data : Option S) (readings : Readings)

theorem apply_fork {targets : List NodeId} {strategy : ForkStrategy} {conditions : Dict NodeId (Condition S)}
    (reachable : ∀ target ∈ targets, ¬engine.Unreachable current target) {started : List NodeId}
    (settled : forkTargets current (withUpdates snapshot updates data readings) targets strategy conditions =
      .ok (.ok started)) :
    engine.apply mode current snapshot ⟨.fork targets strategy conditions data, updates⟩ readings =
      .ok (.fork ⟨current, withUpdates snapshot updates data readings, started, strategy⟩) := by
  have sound := (forkFault_eq_none_iff engine current targets).mpr reachable
  simp only [apply, sound, settled, bind, Except.bind, pure, Except.pure]

theorem apply_refused_fork {targets : List NodeId} {strategy : ForkStrategy}
    {conditions : Dict NodeId (Condition S)}
    (reachable : ∀ target ∈ targets, ¬engine.Unreachable current target) {error : Error}
    (refused : forkTargets current (withUpdates snapshot updates data readings) targets strategy conditions =
      .ok (.error error)) :
    engine.apply mode current snapshot ⟨.fork targets strategy conditions data, updates⟩ readings =
      .ok (.finish (.failed error (some (withUpdates snapshot updates data readings)))) := by
  have sound := (forkFault_eq_none_iff engine current targets).mpr reachable
  simp only [apply, sound, refused, bind, Except.bind, pure, Except.pure]

end

section
variable (engine : Engine W S) (source : NodeId) (base : Snapshot S) (targets : List NodeId)

theorem gather_anyhow (strategy other : ForkStrategy) (started channel : Nat)
    (next : Join S → Program W (Outcome S)) (allowance : Nat) : ∀ join : Join S,
      engine.gather ⟨source, base, targets, strategy⟩ started channel next allowance join =
        engine.gather ⟨source, base, targets, other⟩ started channel next allowance join := by
  induction allowance with
  | zero => exact fun _ => rfl
  | succ allowance ih =>
      intro join
      simp only [gather, ih]
      rfl

theorem fork_conditional (branch : Snapshot S → Program W (Outcome S)) (allowance : Nat)
    (next : Snapshot S → Program W (Outcome S)) :
    engine.fork branch allowance ⟨source, base, targets, .conditional⟩ next =
      engine.fork branch allowance ⟨source, base, targets, .parallel⟩ next := by
  simp only [fork, engine.gather_anyhow source base targets .conditional .parallel]
  rfl
end

section
variable (current : NodeId) {base : Snapshot S} {targets : List NodeId} {conditions : Dict NodeId (Condition S)}

theorem forkTargets_of_nobody {first : NodeId} {others : List NodeId}
    (calm : NonePanics conditions base (first :: others))
    (nobody : (first :: others).filter (mayStart conditions base) = []) :
    forkTargets current base (first :: others) .conditional conditions =
      .ok (.error (.traversal current first "no fork branch condition satisfied")) := by
  simp only [forkTargets, eligible_of_calm calm, nobody, bind, Except.bind, pure, Except.pure]

theorem forkTargets_of_somebody (calm : NonePanics conditions base targets)
    (somebody : targets = [] ∨ targets.filter (mayStart conditions base) ≠ []) :
    forkTargets current base targets .conditional conditions =
      .ok (.ok (targets.filter (mayStart conditions base))) := by
  simp only [forkTargets, eligible_of_calm calm, bind, Except.bind, pure, Except.pure]
  split
  · rename_i nobody
    rcases somebody with nothing | somebody
    · cases nothing
    · exact absurd nobody somebody
  · rfl

theorem forkTargets_unconditional (base : Snapshot S) (targets : List NodeId) {strategy : ForkStrategy}
    (always : strategy ≠ .conditional) (conditions : Dict NodeId (Condition S)) :
    forkTargets current base targets strategy conditions = .ok (.ok targets) := by
  cases strategy with
  | parallel => rfl
  | sequential => rfl
  | conditional => exact absurd rfl always

end

section
variable (engine : Engine W S) (allowance : Nat) (mode : Mode) (steps : Nat) (current : NodeId)
  (snapshot : Snapshot S) (updates : Context) (data : Option S) (readings : Readings)

def carryOutFork (targets : List NodeId) (strategy : ForkStrategy) (conditions : Dict NodeId (Condition S)) :
    Program W (Outcome S) :=
  engine.carryOut allowance mode steps current snapshot ⟨.fork targets strategy conditions data, updates⟩ readings

/-- A conditional fork to nodes that it can reach starts those with no condition, or with one that holds behind the
updates, in their order. If there are none among its targets then the loop fails and no branch runs. Otherwise the
rest of the run is that of a parallel fork to these only, whatever conditions that one has: only a conditional fork
looks at conditions. -/
theorem conditional_fork_is_parallel_fork_of_eligible {targets : List NodeId}
    {conditions : Dict NodeId (Condition S)} (reachable : ∀ target ∈ targets, ¬engine.Unreachable current target)
    (calm : NonePanics conditions (withUpdates snapshot updates data readings) targets) :
    ∃ base started, base = withUpdates snapshot updates data readings ∧
      started = targets.filter (mayStart conditions base) ∧
      (∀ first others, targets = first :: others → started = [] →
        engine.carryOutFork allowance mode steps current snapshot updates data readings targets .conditional
            conditions =
          failed (.traversal current first "no fork branch condition satisfied") base) ∧
      (targets = [] ∨ started ≠ [] →
        engine.apply mode current snapshot ⟨.fork targets .conditional conditions data, updates⟩ readings =
            .ok (.fork ⟨current, base, started, .conditional⟩) ∧
          ∀ others, engine.carryOutFork allowance mode steps current snapshot updates data readings targets
              .conditional conditions =
            engine.carryOutFork allowance mode steps current snapshot updates data readings started .parallel
              others) ∧
      ∀ strategy, strategy ≠ .conditional → ∀ declared others more,
        engine.carryOutFork allowance mode steps current snapshot updates data readings declared strategy others =
          engine.carryOutFork allowance mode steps current snapshot updates data readings declared strategy
            more := by
  refine ⟨_, _, rfl, rfl, ?_, ?_, ?_⟩
  · rintro first others rfl nobody
    have refused := forkTargets_of_nobody current calm nobody
    rw [carryOutFork, carryOut,
      engine.apply_refused_fork mode current snapshot updates data readings reachable refused]
    rfl
  · intro somebody
    have kept : ∀ target ∈ targets.filter (mayStart conditions (withUpdates snapshot updates data readings)),
        ¬engine.Unreachable current target :=
      fun target member => reachable target (List.mem_of_mem_filter member)
    have applied := engine.apply_fork mode current snapshot updates data readings reachable
      (forkTargets_of_somebody current calm somebody)
    refine ⟨applied, fun others => ?_⟩
    rw [carryOutFork, carryOut, applied, carryOutFork, carryOut,
      engine.apply_fork mode current snapshot updates data readings kept
        (forkTargets_unconditional current _ _ (by decide) others)]
    exact engine.fork_conditional current _ _ _ allowance _
  · intro strategy always declared others more
    have same : engine.apply mode current snapshot ⟨.fork declared strategy others data, updates⟩ readings =
        engine.apply mode current snapshot ⟨.fork declared strategy more data, updates⟩ readings := by
      simp only [apply, forkTargets_unconditional current _ _ always]
    rw [carryOutFork, carryOut, same, carryOutFork, carryOut]

end

section
def gateNode : NodeId := ⟨"gateway", by decide +kernel, by decide⟩
def flaggedNode : NodeId := ⟨"flagged", by decide +kernel, by decide⟩
def silentNode : NodeId := ⟨"silent", by decide +kernel, by decide⟩
def freeNode : NodeId := ⟨"free", by decide +kernel, by decide⟩
def outNode : NodeId := ⟨"out", by decide +kernel, by decide⟩

def gateTargets : List NodeId := [flaggedNode, silentNode, freeNode]

/-- One branch needs what the fork itself writes, one is never to start, and one has no condition. -/
def gates : Dict NodeId (Condition Unit) := .ofList [(flaggedNode, .present "flag"), (silentNode, .never)]

def flag : Context := ⟨.ofList [("flag", ⟨"bool", .bool true⟩)]⟩

/-- A fork to three branches, one of which would never report. -/
def gatedMeeting (command : Command Unit) : Blueprint Unit Unit Unit where
  name := none
  nodes :=
    [(Node.new gateNode fun _ => .done (.ok command)).asEntryPoint,
      Node.new flaggedNode fun _ => .done (.ok (.join outNode)),
      Node.new silentNode fun _ => .never,
      Node.new freeNode fun _ => .done (.ok (.join outNode)),
      Node.new outNode fun _ => .done (.ok .complete)]
  edges :=
    [.new ⟨"to flagged", by decide +kernel, by decide⟩ gateNode flaggedNode .always default,
      .new ⟨"to silent", by decide +kernel, by decide⟩ gateNode silentNode .always default,
      .new ⟨"to free", by decide +kernel, by decide⟩ gateNode freeNode .always default,
      .new ⟨"from flagged", by decide +kernel, by decide⟩ flaggedNode outNode .always default,
      .new ⟨"from free", by decide +kernel, by decide⟩ freeNode outNode .always default]
  defaultEntry := none
  extractor := some fun _ => .pure (.ok ())
  monitors := [.silent]
  executor := .pure true
  merger := .lastWriterWins
  ids := fun _ => .pure "run"
  tracer := fun _ => .pure ()
  timers := none
  config := {}

def atGate : Snapshot Unit := .initial ⟨"gating", by decide +kernel, by decide⟩ () .empty gateNode default

/-- All branches that start are waited for, and the one that is left out keeps nobody waiting. -/
theorem gated_meeting_starts_eligible :
    ∃ workflow, (gatedMeeting ⟨.fork gateTargets .conditional gates none, flag⟩).build = .ok workflow ∧
      workflow.engine.apply .root gateNode atGate ⟨.fork gateTargets .conditional gates none, flag⟩ default =
        .ok (.fork ⟨gateNode, withUpdates atGate flag none default, [flaggedNode, freeNode], .conditional⟩) ∧
      succeedsAt outNode
        (workflow.perform (fun _ _ => default) 20 (workflow.start 20 () .empty) ()) = true := by
  have calm : NonePanics gates (withUpdates atGate flag none default) gateTargets := by
    intro target member condition found
    simp only [gateTargets, List.mem_cons, List.not_mem_nil, or_false] at member
    rcases member with rfl | rfl | rfl
    · cases found
      exact ⟨_, rfl⟩
    · cases found
      exact ⟨_, rfl⟩
    · cases found
  have starts (engine : Engine Unit Unit) (sound : engine.forkFault gateNode gateTargets = none) :
      engine.apply .root gateNode atGate ⟨.fork gateTargets .conditional gates none, flag⟩ default =
        .ok (.fork ⟨gateNode, withUpdates atGate flag none default, [flaggedNode, freeNode], .conditional⟩) := by
    have reachable := (forkFault_eq_none_iff engine gateNode gateTargets).mp sound
    obtain ⟨_, _, rfl, rfl, _, forks, _⟩ := conditional_fork_is_parallel_fork_of_eligible engine 20 .root 0 gateNode
      atGate flag none default reachable calm
    exact (forks (.inr (by decide))).1
  exact ⟨_, rfl, starts _ rfl, by decide +kernel⟩
end

end FlowGraph.Engine
