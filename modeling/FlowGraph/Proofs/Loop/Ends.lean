import Mathlib.Tactic.Choose
import FlowGraph.Engine.Drive
import FlowGraph.Proofs.Fork.Decision
import FlowGraph.Proofs.Loop.Applied
import FlowGraph.Proofs.Program.Follows

/-!
What a loop may come to. From a snapshot it takes one turn after the other, whatever the world answers; a
fork is such a turn if enough of its branches join. Branches run loops of their own, whose ends they report, and
nothing depends on the order in which strands take turns.
-/

namespace FlowGraph

/-- What can be noted of a run: a notice to its observer, or a call of its merger for a fork. -/
inductive Note (S : Type) where
  | told (notice : Notice S)
  | merges (base : Snapshot S) (joined : List (JoinedBranch S))

namespace Engine
variable {W S : Type}

/-- The node at hand may be executed, and its answer may make this step of the snapshot. -/
def Answers (engine : Engine W S) (mode : Mode) (snapshot : Snapshot S) (step : Step S) : Prop :=
  ∃ current node command readings steps, snapshot.currentNode = some current ∧
    guardFault engine.config steps snapshot current = none ∧
    engine.topology.node? current = some node ∧
    (node.lifecycle engine.timers snapshot).MayEnd (.ok (.ok command)) ∧
    engine.apply mode current snapshot command readings = .ok step

/-- The outcomes that a loop may come to. -/
inductive Ends (engine : Engine W S) : Mode → Snapshot S → Outcome S → Prop where
  | stopped (mode : Mode) (snapshot : Snapshot S) (error : Error) :
      Ends engine mode snapshot (.failed error (some snapshot))
  | finished {mode : Mode} {snapshot : Snapshot S} {outcome : Outcome S}
      (answers : engine.Answers mode snapshot (.finish outcome)) : Ends engine mode snapshot outcome
  | moved {mode : Mode} {snapshot next : Snapshot S} {outcome : Outcome S}
      (answers : engine.Answers mode snapshot (.proceed next)) (rest : Ends engine mode next outcome) :
      Ends engine mode snapshot outcome
  | unjoined {mode : Mode} {snapshot : Snapshot S} {request : ForkRequest S}
      (answers : engine.Answers mode snapshot (.fork request)) (error : Error) :
      Ends engine mode snapshot (.failed error (some request.base))
  | branchEnded {mode : Mode} {snapshot : Snapshot S} {request : ForkRequest S} {target : NodeId}
      {time : Instant} {outcome : Outcome S} (answers : engine.Answers mode snapshot (.fork request))
      (started : target ∈ request.targets)
      (branch : Ends engine .branch (request.base.moveTo target time) outcome) (other : ¬IsJoin outcome) :
      Ends engine mode snapshot outcome
  | astray {mode : Mode} {snapshot last : Snapshot S} {request : ForkRequest S} {target node : NodeId}
      {time : Instant} {policy : WaitPolicy} {timeout : Option Span}
      (answers : engine.Answers mode snapshot (.fork request)) (started : target ∈ request.targets)
      (branch : Ends engine .branch (request.base.moveTo target time) (.joined node policy timeout last))
      (error : Error) : Ends engine mode snapshot (.failed error (some last))
  | rejoined {mode : Mode} {snapshot : Snapshot S} {request : ForkRequest S} {node : NodeId}
      {policy : WaitPolicy} {reports : List (BranchReport S)} {joined : List (JoinedBranch S)}
      {times : BranchReport S → Instant} {merged : Merged S} {position : Position} {readings : Readings}
      {outcome : Outcome S} (answers : engine.Answers mode snapshot (.fork request))
      (started : ∀ report ∈ reports, report.1 ∈ request.targets)
      (branches : ∀ report ∈ reports,
        Ends engine .branch (request.base.moveTo report.1 (times report)) report.2)
      (agreed : Agreed node policy reports joined)
      (merges : (engine.merger request.base joined).Gives (.ok (.ok merged)))
      (standing : request.base.position = some position)
      (rest : Ends engine mode (reconciled request.base position node joined merged readings) outcome) :
      Ends engine mode snapshot outcome

def Reported (engine : Engine W S) (request : ForkRequest S) (target : NodeId) (outcome : Outcome S) :
    Prop :=
  target ∈ request.targets ∧ ∃ time, engine.Ends .branch (request.base.moveTo target time) outcome

/-- These branches of the fork may join at the node, in this order. -/
def MayJoin (engine : Engine W S) (request : ForkRequest S) (node : NodeId)
    (joined : List (JoinedBranch S)) : Prop :=
  ∃ policy reports, Agreed node policy reports joined ∧
    ∀ report ∈ reports, engine.Reported request report.1 report.2

/-- The fork may go on at the node with this snapshot when these branches have joined. -/
structure Rejoins (engine : Engine W S) (request : ForkRequest S) (node : NodeId)
    (joined : List (JoinedBranch S)) (next : Snapshot S) : Prop where
  joins : engine.MayJoin request node joined
  merged : ∃ merged position readings, (engine.merger request.base joined).Gives (.ok (.ok merged)) ∧
    request.base.position = some position ∧
    next = reconciled request.base position node joined merged readings

inductive Turn (engine : Engine W S) (mode : Mode) (snapshot next : Snapshot S) : Prop where
  | moved (answers : engine.Answers mode snapshot (.proceed next))
  | rejoined {request : ForkRequest S} {node : NodeId} {joined : List (JoinedBranch S)}
      (answers : engine.Answers mode snapshot (.fork request))
      (rejoins : engine.Rejoins request node joined next)

/-- A branch of a fork at the snapshot may begin with this one. -/
inductive Seeds (engine : Engine W S) (mode : Mode) (snapshot seed : Snapshot S) : Prop where
  | started {request : ForkRequest S} {target : NodeId} {time : Instant}
      (answers : engine.Answers mode snapshot (.fork request)) (member : target ∈ request.targets)
      (begins : seed = request.base.moveTo target time)

theorem Ends.turn {engine : Engine W S} {mode : Mode} {snapshot next : Snapshot S} {outcome : Outcome S}
    (turn : engine.Turn mode snapshot next) (rest : engine.Ends mode next outcome) :
    engine.Ends mode snapshot outcome := by
  cases turn with
  | moved answers => exact .moved answers rest
  | @rejoined request _ _ answers rejoins =>
      obtain ⟨policy, reports, agreed, reported⟩ := rejoins.joins
      obtain ⟨merged, position, readings, merges, standing, rfl⟩ := rejoins.merged
      have began : ∀ report : BranchReport S, ∃ time, report ∈ reports →
          engine.Ends .branch (request.base.moveTo report.1 time) report.2 := by
        intro report
        by_cases member : report ∈ reports
        · obtain ⟨time, branch⟩ := (reported report member).2
          exact ⟨time, fun _ => branch⟩
        · exact ⟨default, fun among => (member among).elim⟩
      choose times branches using began
      exact .rejoined answers (fun report member => (reported report member).1) branches agreed merges standing
        rest

theorem Ends.not_join {engine : Engine W S} {snapshot : Snapshot S} {outcome : Outcome S}
    (ends : engine.Ends .root snapshot outcome) : ¬IsJoin outcome := by
  generalize same : Mode.root = mode at ends
  induction ends with
  | stopped | unjoined | astray => rintro ⟨_, _, _, _, ⟨⟩⟩
  | finished answers =>
      subst same
      obtain ⟨_, _, _, _, _, _, _, _, _, applied⟩ := answers
      rintro ⟨node, policy, timeout, last, rfl⟩
      cases applied_of_apply applied with
      | joined branch => cases branch
  | moved _ _ ih => exact ih same
  | branchEnded _ _ _ other => exact other
  | rejoined _ _ _ _ _ _ _ _ ih => exact ih same

def Comes (engine : Engine W S) (mode : Mode) (snapshot : Snapshot S) : Attempt (Outcome S) → Prop
  | .ok outcome => engine.Ends mode snapshot outcome
  | .error _ => True

/-- A note of a new snapshot is honest if a turn leads to it, and one of a merge if the branches may join. -/
def Honest (engine : Engine W S) : Note S → Prop
  | .told (.stateUpdated previous next) => ∃ mode, engine.Turn mode previous next
  | .told _ => True
  | .merges base joined => ∃ mode snapshot request node, engine.Answers mode snapshot (.fork request) ∧
      request.base = base ∧ engine.MayJoin request node joined

end Engine
end FlowGraph
