import FlowGraph.Proofs.Loop.Follows

/-!
What a loop does depends on nothing but its turn, what its branches make of their seeds, and what it makes of the
snapshots that it goes on to. Two programs that agree on these can stand for each other.
-/

namespace FlowGraph.Engine
variable {W S : Type} {engine : Engine W S} {branch other next onward : Snapshot S → Program W (Outcome S)}

/-- Enough branches of the fork have reported that they join at the node: these, in this order. -/
def Meets (request : ForkRequest S) (node : NodeId) (joined : List (JoinedBranch S)) : Prop :=
  ∃ policy reports, Agreed node policy reports joined ∧ policy.needed request.targets.length ≤ reports.length

section
variable {request : ForkRequest S} {standard : Option Span} {collect gathered : Join S → Program W (Outcome S)}

theorem meets_of_holds {join : Join S} {reports : List (BranchReport S)} {terms : JoinTerms}
    (holds : join.Holds standard request.targets.length reports)
    (complete : join.isSatisfied = true ∨ reports.length = request.targets.length)
    (fixed : join.terms = some terms) : Meets request terms.node join.joined := by
  rcases holds.recorded with ⟨_, none, _⟩ | ⟨_, node, policy, _, _, agreed, _, known⟩
  · rw [none] at fixed
    cases fixed
  · rw [known] at fixed
    cases fixed
    refine ⟨policy, reports, agreed, ?_⟩
    rcases complete with satisfied | all
    · exact (holds.isSatisfied_iff agreed).mp satisfied
    · rw [← all]
      exact policy.needed_le (List.length_pos_of_ne_nil agreed.ne_nil)

theorem conclude_congr {join : Join S} {reports : List (BranchReport S)}
    (later : ∀ node joined answer readings last, Meets request node joined →
      reconcile request.base node joined answer readings = .ok last → next last = onward last)
    (holds : join.Holds standard request.targets.length reports)
    (complete : join.isSatisfied = true ∨ reports.length = request.targets.length) :
    engine.conclude request join next = engine.conclude request join onward := by
  unfold conclude
  cases fixed : join.terms with
  | none => rfl
  | some terms =>
      simp only
      congr 1
      funext answer
      congr 1
      funext readings
      cases settled : reconcile request.base terms.node join.joined answer readings with
      | error error => rfl
      | ok last => exact later _ _ _ _ last (meets_of_holds holds complete fixed) settled

theorem inSequence_congr (seeds : ∀ target time,
      branch (request.base.moveTo target time) = other (request.base.moveTo target time))
    (same : ∀ join reports, join.Holds standard request.targets.length reports →
      join.isSatisfied = true ∨ reports.length = request.targets.length → collect join = gathered join)
    (started : Nat) (targets : List NodeId) :
    ∀ {join : Join S} {reports : List (BranchReport S)}, join.Holds standard request.targets.length reports →
      reports.length + targets.length = request.targets.length →
      inSequence branch request started collect join targets =
        inSequence other request started gathered join targets := by
  induction targets with
  | nil => exact fun holds all => same _ _ holds (.inr all)
  | cons target rest ih =>
      intro join reports holds all
      simp only [inSequence]
      split
      · exact same _ _ holds (.inl ‹_›)
      · congr 1
        funext readings
        rw [seeds]
        congr 1
        funext outcome
        cases recorded : join.record target outcome with
        | error ending => rfl
        | ok next =>
            have onward := ih (holds.recorded_ok recorded) (by simp at all ⊢; omega)
            simp only [onward]

theorem gather_congr (same : ∀ join reports, join.Holds standard request.targets.length reports →
      join.isSatisfied = true → collect join = gathered join) (started channel allowance : Nat) :
    ∀ {join : Join S} {reports : List (BranchReport S)}, join.Holds standard request.targets.length reports →
      engine.gather request started channel collect allowance join =
        engine.gather request started channel gathered allowance join := by
  induction allowance with
  | zero => exact fun _ => rfl
  | succ allowance ih =>
      intro join reports holds
      simp only [gather]
      split
      · exact same _ _ holds ‹_›
      · congr 1
        funext now
        cases join.expired (now - started) with
        | some error => rfl
        | none =>
            cases engine.timers with
            | some text => rfl
            | none =>
                simp only
                congr 1
                funext delivery
                rcases delivery with ⟨target, outcome⟩ | _ | _
                · cases recorded : join.record target outcome with
                  | error ending => simp only [recorded]
                  | ok next => simp only [recorded, ih (holds.recorded_ok recorded)]
                · rfl
                · exact ih holds

/-- What a fork does depends on what its branches make of their seeds, and on what is made of the snapshots
behind a join of branches that have reported so. -/
theorem fork_congr (allowance : Nat) (seeds : ∀ target time,
      branch (request.base.moveTo target time) = other (request.base.moveTo target time))
    (later : ∀ node joined answer readings last, Meets request node joined →
      reconcile request.base node joined answer readings = .ok last → next last = onward last) :
    engine.fork branch allowance request next = engine.fork other allowance request onward := by
  have start := Join.holds_start (S := S) request.source request.targets.length engine.config.joinTimeout
  have concludes (join : Join S) (reports : List (BranchReport S))
      (holds : join.Holds engine.config.joinTimeout request.targets.length reports)
      (complete : join.isSatisfied = true ∨ reports.length = request.targets.length) :
      engine.conclude request join next = engine.conclude request join onward :=
    conclude_congr later holds complete
  have sequence (started : Nat) := inSequence_congr seeds concludes started request.targets start (Nat.zero_add _)
  have channelled (started channel : Nat) :
      engine.gather request started channel (engine.conclude request · next) allowance _ =
        engine.gather request started channel (engine.conclude request · onward) allowance _ :=
    gather_congr (fun join reports holds satisfied => concludes join reports holds (.inl satisfied)) started channel
      allowance start
  simp only [fork, sequence, channelled, seeds]

end

variable {mode : Mode} {steps : Nat} {snapshot : Snapshot S}

/-- The snapshot is one that the loop, after so many steps, executes its node on, with this step as the outcome. -/
def StepsTo (engine : Engine W S) (mode : Mode) (steps : Nat) (snapshot : Snapshot S) (step : Step S) : Prop :=
  ∃ current command readings, snapshot.currentNode = some current ∧
    guardFault engine.config (steps + 1) snapshot current = none ∧
    engine.apply mode current snapshot command readings = .ok step

theorem turn_congr (room : ForkRequest S → Nat)
    (seeds : ∀ request, engine.StepsTo mode steps snapshot (.fork request) → ∀ target time,
      branch (request.base.moveTo target time) = other (request.base.moveTo target time))
    (moved : ∀ last, engine.StepsTo mode steps snapshot (.proceed last) → next last = onward last)
    (rejoined : ∀ request, engine.StepsTo mode steps snapshot (.fork request) → ∀ node joined answer readings last,
      Meets request node joined → reconcile request.base node joined answer readings = .ok last →
        next last = onward last) :
    engine.turn room branch next mode steps snapshot = engine.turn room other onward mode steps snapshot := by
  unfold turn
  cases standing : snapshot.currentNode with
  | none => rfl
  | some current =>
      simp only
      cases guarded : guardFault engine.config (steps + 1) snapshot current with
      | some error => rfl
      | none =>
          simp only
          cases engine.topology.node? current with
          | none => rfl
          | some node =>
              simp only
              congr 2
              funext answer
              cases answer with
              | error error => rfl
              | ok command =>
                  simp only
                  congr 2
                  funext readings
                  cases applied : engine.apply mode current snapshot command readings with
                  | error panic => rfl
                  | ok step =>
                      have takes : engine.StepsTo mode steps snapshot step :=
                        ⟨current, command, readings, standing, guarded, applied⟩
                      cases step with
                      | proceed last => exact congrArg (engine.notify _) (moved last takes)
                      | finish outcome => rfl
                      | fork request =>
                          refine fork_congr (room request) (seeds request takes) ?_
                          intro node joined answer readings last meets settled
                          exact congrArg (engine.notify _) (rejoined request takes _ _ _ _ last meets settled)

end FlowGraph.Engine
