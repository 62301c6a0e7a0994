import FlowGraph.Proofs.Fork.Reports
import FlowGraph.Proofs.Fork.Rounds

/-! Forks that run one branch after the other, so that the targets report in their order. -/

namespace FlowGraph.Engine
variable {W S : Type} {engine : Engine W S} {branch : Snapshot S → Program W (Outcome S)} {request : ForkRequest S}
  {position : Position} {next : Snapshot S → Program W (Outcome S)}

theorem bind_ne_done {reached : Program W (Outcome S)} {next : Outcome S → Program W (Outcome S)}
    (unfinished : ∀ outcome, reached ≠ .done outcome) (outcome : Outcome S) :
    reached.bind next ≠ .done outcome := by
  cases reached with
  | done result => exact (unfinished result rfl).elim
  | call effect rest => exact nofun
  | clock rest => exact nofun
  | sleep millis rest => exact nofun
  | launch names branch rest => exact nofun
  | receive channel interval rest => exact nofun
  | broken panic => exact nofun
  | never => exact nofun
  | exhausted => exact nofun

theorem fork_inSequence (sequential : request.strategy = .sequential) (branch : Snapshot S → Program W (Outcome S))
    (room : Nat) :
    engine.fork branch room request next = .time fun started =>
      inSequence branch request started (engine.conclude request · next)
        (Join.start request.source request.targets.length engine.config.joinTimeout) request.targets := by
  simp only [fork, sequential]

def CollectsInTurn (engine : Engine W S) (branch : Snapshot S → Program W (Outcome S))
    (request : ForkRequest S) (position : Position) (next : Snapshot S → Program W (Outcome S))
    (last : Ledger) (targets : List NodeId) (reports : List (BranchReport S))
    (history : List (Answer W (Outcome S))) (program : Program W (Outcome S)) : Prop :=
  ∃ heard rest more, history = heard ++ rest ∧ InTurn branch request.base targets heard more ∧
    ((reports ++ more).map Prod.fst).Subperm request.targets ∧
    engine.Stands branch request position next 0 last (reports ++ more) rest program

def StaysUntimedInTurn (branch : Snapshot S → Program W (Outcome S)) (request : ForkRequest S)
    (targets : List NodeId) (reports : List (BranchReport S))
    (history : List (Answer W (Outcome S))) : Prop :=
  ∀ heard rest more, history = heard ++ rest → InTurn branch request.base targets heard more →
    Untimed (reports ++ more)

section
variable {targets rest : List NodeId} {target : NodeId} {reports : List (BranchReport S)} {outcome : Outcome S}
  {readings : Readings} {own behind : List (Answer W (Outcome S))} {before middle last : Ledger}
  {program : Program W (Outcome S)} {now : Nat} {world : W}

theorem CollectsInTurn.stands {history : List (Answer W (Outcome S))}
    (soFar : (reports.map Prod.fst).Subperm request.targets)
    (stands : engine.Stands branch request position next 0 last reports history program) :
    CollectsInTurn engine branch request position next last targets reports history program :=
  ⟨[], history, [], rfl, .start targets, by rwa [List.append_nil], by rwa [List.append_nil]⟩

theorem CollectsInTurn.turn
    (runs : (branch (request.base.moveTo target (readings 0))).after before own =
      some (middle, .done outcome))
    (collects : CollectsInTurn engine branch request position next last rest
      (reports ++ [(target, outcome)]) behind program) :
    CollectsInTurn engine branch request position next last (target :: rest) reports
      (.read readings :: (own ++ .called now world :: behind)) program := by
  obtain ⟨heard, later, more, rfl, inTurn, branches, stands⟩ := collects
  rw [List.append_assoc, List.singleton_append] at branches stands
  exact ⟨.read readings :: own ++ .called now world :: heard, later, _, by simp,
    .turn runs inTurn, branches, stands⟩

theorem StaysUntimedInTurn.turn
    (untimed : StaysUntimedInTurn branch request (target :: rest) reports
      (.read readings :: (own ++ .called now world :: behind)))
    (runs : (branch (request.base.moveTo target (readings 0))).after before own =
      some (middle, .done outcome)) :
    StaysUntimedInTurn branch request rest (reports ++ [(target, outcome)]) behind := by
  rintro heard later more rfl inTurn
  rw [List.append_assoc, List.singleton_append]
  exact untimed (.read readings :: own ++ .called now world :: heard) later _ (by simp)
    (.turn runs inTurn)

theorem StaysUntimedInTurn.here {history : List (Answer W (Outcome S))}
    (untimed : StaysUntimedInTurn branch request targets reports history) : Untimed reports := by
  have none_ := untimed [] history [] rfl (.start targets)
  rwa [List.append_nil] at none_

end

end FlowGraph.Engine
