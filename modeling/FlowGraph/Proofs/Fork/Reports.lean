import Mathlib.Data.List.Perm.Subperm
import FlowGraph.Engine.Drive
import FlowGraph.Proofs.Fork.Decision
import FlowGraph.Proofs.Program.Transcript

/-!
How a fork takes up the reports of its branches, and where it stands then. A fork goes through rounds, and each
brings it one report at most. In sequence a round is the run of one branch and a look at the clock. On a channel
it is a look at the clock and one delivery; before the first round the fork has submitted its branches.
-/

namespace FlowGraph
variable {W S : Type}

/-- The answers to a fork whose branches run one after the other, in complete rounds, with the reports of these. -/
inductive InTurn (branch : Snapshot S → Program W (Outcome S)) (base : Snapshot S) :
    List NodeId → List (Answer W (Outcome S)) → List (BranchReport S) → Prop where
  | start (targets : List NodeId) : InTurn branch base targets [] []
  | turn {target : NodeId} {rest : List NodeId} {readings : Readings} {own behind : List (Answer W (Outcome S))}
      {ledger last : Ledger} {outcome : Outcome S} {reports : List (BranchReport S)} {now : Nat} {world : W}
      (runs : (branch (base.moveTo target (readings 0))).after ledger own = some (last, .done outcome))
      (others : InTurn branch base rest behind reports) :
      InTurn branch base (target :: rest) (.read readings :: own ++ .called now world :: behind)
        ((target, outcome) :: reports)

/-- The answers to a fork that listens on a channel, in complete rounds, with the reports among them. -/
inductive Rounds : List (Answer W (Outcome S)) → List (BranchReport S) → Prop where
  | start : Rounds [] []
  | quiet {now : Nat} {world : W} {behind : List (Answer W (Outcome S))} {reports : List (BranchReport S)}
      (others : Rounds behind reports) : Rounds (.called now world :: .delivered .quiet :: behind) reports
  | report {now : Nat} {world : W} {behind : List (Answer W (Outcome S))} {reports : List (BranchReport S)}
      {branch : NodeId} {outcome : Outcome S} (others : Rounds behind reports) :
      Rounds (.called now world :: .delivered (.report branch outcome) :: behind) ((branch, outcome) :: reports)

theorem Rounds.delivered {answers : List (Answer W (Outcome S))} {reports : List (BranchReport S)}
    (heard : Rounds answers reports) {branch : NodeId} {outcome : Outcome S} (member : (branch, outcome) ∈ reports) :
    .delivered (.report branch outcome) ∈ answers := by
  induction heard with
  | start => cases member
  | quiet _ ih => exact .tail _ (.tail _ (ih member))
  | report _ ih =>
      rcases List.mem_cons.mp member with same | later
      · cases same
        exact .tail _ (.head _)
      · exact .tail _ (.tail _ (ih later))

/-- The answers to the calls by which a fork submits its branches. -/
def submissions (calls : List (Nat × W)) : List (Answer W (Outcome S)) := calls.map fun call => .called call.1 call.2

/-- In complete rounds the fork has heard these reports, on the channel if its branches do not run in sequence. -/
def Heard (branch : Snapshot S → Program W (Outcome S)) (request : ForkRequest S) (channel : Nat)
    (answers : List (Answer W (Outcome S))) (reports : List (BranchReport S)) : Prop :=
  match request.strategy with
  | .sequential => InTurn branch request.base request.targets answers reports
  | .parallel | .conditional => ∃ readings calls rounds, calls.length = request.targets.length ∧
    answers = .read readings :: (submissions calls ++ .launched channel :: rounds) ∧ Rounds rounds reports

theorem heard_rounds {branch : Snapshot S → Program W (Outcome S)} {request : ForkRequest S}
    (channelled : request.strategy ≠ .sequential) {channel : Nat} {readings : Readings} {calls : List (Nat × W)}
    (all : calls.length = request.targets.length) {rounds : List (Answer W (Outcome S))}
    {reports : List (BranchReport S)} (heard : Rounds rounds reports) :
    Heard branch request channel (.read readings :: (submissions calls ++ .launched channel :: rounds)) reports := by
  unfold Heard
  split
  · contradiction
  · exact ⟨readings, calls, rounds, all, rfl, heard⟩
  · exact ⟨readings, calls, rounds, all, rfl, heard⟩

/-- A round that is complete up to the look at the clock behind a branch brings this report. -/
inductive Brings (branch : Snapshot S → Program W (Outcome S)) (request : ForkRequest S)
    (reports : List (BranchReport S)) : List (Answer W (Outcome S)) → BranchReport S → Prop where
  | branch {target : NodeId} {readings : Readings} {own : List (Answer W (Outcome S))} {ledger last : Ledger}
      {outcome : Outcome S} (sequential : request.strategy = .sequential)
      (turn : request.targets[reports.length]? = some target)
      (runs : (branch (request.base.moveTo target (readings 0))).after ledger own = some (last, .done outcome)) :
      Brings branch request reports (.read readings :: own) (target, outcome)
  | delivery {now : Nat} {world : W} {target : NodeId} {outcome : Outcome S}
      (channelled : request.strategy ≠ .sequential) :
      Brings branch request reports [.called now world, .delivered (.report target outcome)] (target, outcome)

namespace Engine

/-- The targets whose branches the executor has taken, if these are its calls. -/
def taken (engine : Engine W S) (targets : List NodeId) (calls : List (Nat × W)) : List NodeId :=
  ((targets.zip calls).filter fun submission => (engine.executor submission.2.1 submission.2.2).1).map Prod.fst

/-- A fork on a channel before its first round. It reads the clock for the seeds of its branches, submits each
of them, and launches those that were taken. -/
inductive Opens (engine : Engine W S) (branch : Snapshot S → Program W (Outcome S)) (request : ForkRequest S) :
    List (Answer W (Outcome S)) → Program W (Outcome S) → Prop where
  | reads (onward : Readings → Program W (Outcome S)) : Opens engine branch request [] (.clock onward)
  | submits {readings : Readings} {calls : List (Nat × W)} (fewer : calls.length < request.targets.length)
      (onward : Bool → Program W (Outcome S)) :
      Opens engine branch request (.read readings :: submissions calls) (.call engine.executor onward)
  | launches {readings : Readings} {calls : List (Nat × W)} (all : calls.length = request.targets.length)
      (onward : Nat → Program W (Outcome S)) :
      Opens engine branch request (.read readings :: submissions calls)
        (.launch (engine.taken request.targets calls)
          (fun place target => branch (request.base.moveTo target (readings place))) onward)

/-- A fork in its next round, as long as that has not brought a report. -/
inductive Waits (engine : Engine W S) (branch : Snapshot S → Program W (Outcome S)) (request : ForkRequest S)
    (channel : Nat) (reports : List (BranchReport S)) :
    List (Answer W (Outcome S)) → Program W (Outcome S) → Prop where
  | begins {target : NodeId} (sequential : request.strategy = .sequential)
      (turn : request.targets[reports.length]? = some target) (onward : Readings → Program W (Outcome S)) :
      Waits engine branch request channel reports [] (.clock onward)
  | runs {target : NodeId} {readings : Readings} {own : List (Answer W (Outcome S))} {ledger last : Ledger}
      {reached : Program W (Outcome S)} (sequential : request.strategy = .sequential)
      (turn : request.targets[reports.length]? = some target)
      (runs : (branch (request.base.moveTo target (readings 0))).after ledger own = some (last, reached))
      (unfinished : ∀ outcome, reached ≠ .done outcome) (onward : Outcome S → Program W (Outcome S)) :
      Waits engine branch request channel reports (.read readings :: own) (reached.bind onward)
  | looks (channelled : request.strategy ≠ .sequential) (onward : Nat → Program W (Outcome S)) :
      Waits engine branch request channel reports [] (.time onward)
  | listens {now : Nat} {world : W} (channelled : request.strategy ≠ .sequential)
      (onward : Delivery (Outcome S) → Program W (Outcome S)) :
      Waits engine branch request channel reports [.called now world]
        (.receive channel engine.config.pollInterval onward)

/-- What a fork on a channel asks for after these answers, as long as it waits. -/
inductive Awaits (engine : Engine W S) (branch : Snapshot S → Program W (Outcome S)) (request : ForkRequest S) :
    List (Answer W (Outcome S)) → Program W (Outcome S) → Prop where
  | begins (onward : Nat → Program W (Outcome S)) : Awaits engine branch request [] (.time onward)
  | opens {started : Nat} {world : W} {answers : List (Answer W (Outcome S))} {reached : Program W (Outcome S)}
      (opens : engine.Opens branch request answers reached) :
      Awaits engine branch request (.called started world :: answers) reached
  | goesRound {started channel : Nat} {world : W} {heard rest : List (Answer W (Outcome S))}
      {reports : List (BranchReport S)} {reached : Program W (Outcome S)}
      (hears : Heard branch request channel heard reports)
      (waits : engine.Waits branch request channel reports rest reached) :
      Awaits engine branch request (.called started world :: (heard ++ rest)) reached

/-- The fork calls its merger with these branches, in this order, and with its result goes on at their join. -/
inductive Merges (engine : Engine W S) (request : ForkRequest S) (position : Position)
    (next : Snapshot S → Program W (Outcome S)) (node : NodeId) (joined : List (JoinedBranch S))
    (last : Ledger) : List (Answer W (Outcome S)) → Program W (Outcome S) → Prop where
  | calls (onward : Attempt (Except Error (Merged S)) → Program W (Outcome S)) :
      Merges engine request position next node joined last [] (.call (engine.merger request.base joined) onward)
  | reads {time : Nat} {world : W} (onward : Readings → Program W (Outcome S)) :
      Merges engine request position next node joined last [.called time world] (.clock onward)
  | goesOn {time : Nat} {world : W} {readings : Readings} {result : Merged S}
      {behind : List (Answer W (Outcome S))} {ledger : Ledger} {program : Program W (Outcome S)}
      (answered : (engine.merger request.base joined time world).1 = .ok (.ok result))
      (followed : (next (reconciled request.base position node joined result readings)).after ledger
        behind = some (last, program)) :
      Merges engine request position next node joined last (.called time world :: .read readings :: behind) program

/-- The branches that have not reported will not do so. -/
def RanOut (request : ForkRequest S) (reports : List (BranchReport S))
    (rest : List (Answer W (Outcome S))) : Prop :=
  match request.strategy with
  | .sequential => reports.length = request.targets.length ∧ rest = []
  | .parallel | .conditional => ∃ now world, rest = [.called now world, .delivered .closed]

/-- Where a fork stands that has heard these reports in complete rounds, after the answers `rest` behind them. -/
inductive Stands (engine : Engine W S) (branch : Snapshot S → Program W (Outcome S)) (request : ForkRequest S)
    (position : Position) (next : Snapshot S → Program W (Outcome S)) (channel : Nat) (last : Ledger)
    (reports : List (BranchReport S)) : List (Answer W (Outcome S)) → Program W (Outcome S) → Prop where
  | waits {rest : List (Answer W (Outcome S))} {program : Program W (Outcome S)}
      (undecided : Undecided request.targets.length reports)
      (waits : engine.Waits branch request channel reports rest program) :
      Stands engine branch request position next channel last reports rest program
  | looks {rest : List (Answer W (Outcome S))} {report : BranchReport S}
      (sequential : request.strategy = .sequential)
      (brings : Brings branch request reports rest report)
      (goesOn : Undecided request.targets.length (reports ++ [report]) ∨
        ∃ node joined, Decides request.targets.length (reports ++ [report]) (.joined node joined))
      (onward : Nat → Program W (Outcome S)) :
      Stands engine branch request position next channel last reports rest (.time onward)
  | ended {rest : List (Answer W (Outcome S))} {report : BranchReport S} {outcome : Outcome S}
      (brings : Brings branch request reports rest report)
      (decides : Decides request.targets.length (reports ++ [report]) (.ended outcome)) :
      Stands engine branch request position next channel last reports rest (.done outcome)
  | joined {node : NodeId} {joined : List (JoinedBranch S)} {rest : List (Answer W (Outcome S))}
      {program : Program W (Outcome S)}
      (decides : Decides request.targets.length reports (.joined node joined))
      (once : (joined.map JoinedBranch.branch).Subperm request.targets)
      (merges : engine.Merges request position next node joined last rest program) :
      Stands engine branch request position next channel last reports rest program
  | lost {rest : List (Answer W (Outcome S))} {message : String}
      (undecided : Undecided request.targets.length reports) (ranOut : RanOut request reports rest) :
      Stands engine branch request position next channel last reports rest
        (.done (.failed (.taskJoin message) (some request.base)))

section
variable {engine : Engine W S} {request : ForkRequest S} {position : Position}
  {next : Snapshot S → Program W (Outcome S)}

end

end Engine

end FlowGraph
