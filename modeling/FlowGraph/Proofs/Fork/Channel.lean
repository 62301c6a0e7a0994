import FlowGraph.Proofs.Fork.Reports
import FlowGraph.Proofs.Fork.Rounds

/-! Forks whose branches report over a channel: submitting the branches, and the loop that waits for them. -/

namespace FlowGraph.Engine
variable {W S : Type} {engine : Engine W S} {branch : Snapshot S → Program W (Outcome S)} {request : ForkRequest S}
  {position : Position} {next : Snapshot S → Program W (Outcome S)} {channel : Nat}

/-- Some rounds bring further reports, and the fork stands where it should with all of them. -/
def Collects (engine : Engine W S) (branch : Snapshot S → Program W (Outcome S)) (request : ForkRequest S)
    (position : Position) (next : Snapshot S → Program W (Outcome S)) (channel : Nat) (last : Ledger)
    (reports : List (BranchReport S)) (history : List (Answer W (Outcome S))) (program : Program W (Outcome S)) :
    Prop :=
  ∃ rounds rest more, history = rounds ++ rest ∧ Rounds rounds more ∧
    ((reports ++ more).map Prod.fst).Subperm request.targets ∧
    engine.Stands branch request position next channel last (reports ++ more) rest program

/-- However many rounds the fork listens, the first join that it has heard of sets no timeout. -/
def StaysUntimed (reports : List (BranchReport S)) (history : List (Answer W (Outcome S))) : Prop :=
  ∀ rounds rest more, history = rounds ++ rest → Rounds rounds more → Untimed (reports ++ more)

section
variable {last : Ledger} {reports : List (BranchReport S)} {history : List (Answer W (Outcome S))}
  {program : Program W (Outcome S)} {name : NodeId} {outcome : Outcome S} {now : Nat} {world : W}

theorem Collects.stands (soFar : (reports.map Prod.fst).Subperm request.targets)
    (stands : engine.Stands branch request position next channel last reports history program) :
    Collects engine branch request position next channel last reports history program :=
  ⟨[], history, [], rfl, .start, by rwa [List.append_nil], by rwa [List.append_nil]⟩

theorem Collects.quiet
    (collects : Collects engine branch request position next channel last reports history program) :
    Collects engine branch request position next channel last reports
      (.called now world :: .delivered .quiet :: history) program := by
  obtain ⟨rounds, rest, more, rfl, heard, branches, stands⟩ := collects
  exact ⟨_, rest, more, rfl, heard.quiet, branches, stands⟩

theorem Collects.report
    (collects : Collects engine branch request position next channel last (reports ++ [(name, outcome)]) history
      program) :
    Collects engine branch request position next channel last reports
      (.called now world :: .delivered (.report name outcome) :: history) program := by
  obtain ⟨rounds, rest, more, rfl, heard, branches, stands⟩ := collects
  rw [List.append_assoc] at branches stands
  exact ⟨_, rest, _, rfl, heard.report, branches, stands⟩

theorem StaysUntimed.here (untimed : StaysUntimed reports history) : Untimed reports := by
  have none_ := untimed [] history [] rfl .start
  rwa [List.append_nil] at none_

theorem StaysUntimed.quiet
    (untimed : StaysUntimed reports (.called now world :: .delivered .quiet :: history)) :
    StaysUntimed reports history := by
  rintro rounds rest more rfl heard
  exact untimed _ rest more rfl heard.quiet

theorem StaysUntimed.report
    (untimed : StaysUntimed reports (.called now world :: .delivered (.report name outcome) :: history)) :
    StaysUntimed (reports ++ [(name, outcome)]) history := by
  rintro rounds rest more rfl heard
  rw [List.append_assoc]
  exact untimed _ rest _ rfl heard.report

end

theorem taken_cons (engine : Engine W S) (target : NodeId) (rest : List NodeId) (time : Nat) (world : W)
    (calls : List (Nat × W)) :
    engine.taken (target :: rest) ((time, world) :: calls) =
      if (engine.executor time world).1 = true then target :: engine.taken rest calls
      else engine.taken rest calls := by
  simp only [taken, List.zip_cons_cons, List.filter_cons]
  split <;> rfl

theorem submit_after (targets : List NodeId) :
    ∀ {goOn : List NodeId → Program W (Outcome S)} {ledger last : Ledger}
      {history : List (Answer W (Outcome S))} {program : Program W (Outcome S)},
      (engine.submit goOn targets).after ledger history = some (last, program) →
        (∃ calls rest, history = submissions calls ++ rest ∧ calls.length = targets.length ∧
          (goOn (engine.taken targets calls)).after ledger rest = some (last, program)) ∨
        ∃ calls onward, history = submissions calls ∧ calls.length < targets.length ∧
          program = .call engine.executor onward := by
  induction targets with
  | nil =>
      intro goOn ledger last history program followed
      exact .inl ⟨[], history, rfl, rfl, followed⟩
  | cons target rest ih =>
      intro goOn ledger last history program followed
      rcases history with _ | ⟨first, history⟩
      · cases followed
        exact .inr ⟨[], _, rfl, Nat.succ_pos _, rfl⟩
      obtain ⟨time, world, rfl, behind⟩ := Program.after_call followed
      rcases ih behind with ⟨calls, later, rfl, all, goesOn⟩ | ⟨calls, onward, rfl, fewer, asks⟩
      · refine .inl ⟨(time, world) :: calls, later, rfl, by simp [all], ?_⟩
        rwa [taken_cons]
      · exact .inr ⟨(time, world) :: calls, onward, rfl, by simp [fewer], asks⟩

/-- A fork that knows when it has begun, up to the loop that waits for reports. -/
def startBranches (engine : Engine W S) (branch : Snapshot S → Program W (Outcome S)) (room : Nat)
    (request : ForkRequest S) (next : Snapshot S → Program W (Outcome S)) (started : Nat) :
    Program W (Outcome S) :=
  .clock fun readings => engine.submit
    (fun taken => .launch taken (fun place target => branch (request.base.moveTo target (readings place)))
      fun channel => engine.gather request started channel (engine.conclude request · next) room
        (Join.start request.source request.targets.length engine.config.joinTimeout))
    request.targets

theorem fork_startBranches (channelled : request.strategy ≠ .sequential)
    (branch : Snapshot S → Program W (Outcome S)) (room : Nat) :
    engine.fork branch room request next = .time fun started =>
      engine.startBranches branch room request next started := by
  cases strategy : request.strategy with
  | sequential => contradiction
  | parallel => simp only [fork, startBranches, strategy]
  | conditional => simp only [fork, startBranches, strategy]

end FlowGraph.Engine
