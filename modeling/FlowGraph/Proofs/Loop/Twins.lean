import FlowGraph.Proofs.Program.Twins
import FlowGraph.Proofs.Workflow.Request

/-!
Loops do not care about the numbers of their channels. Each fork listens on the channel that it has opened, until it
is satisfied or fails, and no loop listens on that channel again.
-/

namespace FlowGraph
variable {W S O : Type}

namespace Engine
variable {engine : Engine W S} {own : Option (Nat × Nat)} {request : ForkRequest S}
  {next : Snapshot S → Program W (Outcome S)} {branch : Snapshot S → Program W (Outcome S)}

theorem twins_failed (error : Error) (snapshot : Snapshot S) :
    Program.Twins (W := W) Eq own (failed error snapshot) (failed error snapshot) :=
  .done _

theorem notify_twins (engine : Engine W S) (own : Option (Nat × Nat)) (notice : Notice S)
    {program other : Program W (Outcome S)} (rest : Program.Twins Eq own program other) :
    Program.Twins Eq own (engine.notify notice program) (engine.notify notice other) :=
  .call (.refl _) fun _ _ => rest

theorem conclude_twins (request : ForkRequest S) (join : Join S)
    (goesOn : ∀ own later, Program.Twins Eq own (next later) (next later)) :
    Program.Twins Eq own (engine.conclude request join next) (engine.conclude request join next) := by
  unfold Engine.conclude
  split
  · exact twins_failed _ _
  · refine .call (.refl _) fun answer _ => .clock fun readings => ?_
    split
    · exact goesOn _ _
    · exact twins_failed _ _

theorem inSequence_twins (started : Nat) {collect : Join S → Program W (Outcome S)}
    (branches : ∀ own first, Program.Twins Eq own (branch first) (branch first))
    (goesOn : ∀ own join, Program.Twins Eq own (collect join) (collect join)) (targets : List NodeId) :
    ∀ own join, Program.Twins Eq own (inSequence branch request started collect join targets)
      (inSequence branch request started collect join targets) := by
  induction targets with
  | nil => exact goesOn
  | cons target rest ih =>
      intro own join
      rw [inSequence]
      split
      · exact goesOn own join
      · refine .clock fun readings => (branches own _).bind fun own outcome => ?_
        split
        · exact .done _
        · refine .time fun now => ?_
          split
          · exact twins_failed _ _
          · exact ih own _

theorem submit_twins (targets : List NodeId) : ∀ {collect : List NodeId → Program W (Outcome S)},
    (∀ taken, Program.Twins Eq own (collect taken) (collect taken)) →
      Program.Twins Eq own (engine.submit collect targets) (engine.submit collect targets) := by
  induction targets with
  | nil => exact fun goesOn => goesOn []
  | cons target rest ih => exact fun goesOn => .call (.refl _) fun taken _ => ih fun others => goesOn _

theorem gather_twins (started channel other : Nat) {collect : Join S → Program W (Outcome S)}
    (goesOn : ∀ own join, Program.Twins Eq own (collect join) (collect join)) (allowance : Nat) :
    ∀ join, Program.Twins Eq (some (channel, other))
      (engine.gather request started channel collect allowance join)
      (engine.gather request started other collect allowance join) := by
  induction allowance with
  | zero => exact fun _ => .exhausted
  | succ allowance ih =>
      intro join
      rw [gather, gather]
      split
      · exact goesOn _ join
      · refine .time fun now => ?_
        split
        · exact twins_failed _ _
        · split
          · exact .broken _
          · refine .receive ?_
            rintro (⟨name, outcome⟩ | _ | _)
            · simp only
              split
              · exact .done _
              · exact ih _
            · exact twins_failed _ _
            · exact ih join

/-- A fork that has heard enough goes on without listening on its channel. -/
theorem gather_twins_of_satisfied (engine : Engine W S) {request : ForkRequest S} (started channel : Nat)
    {collect : Join S → Program W (Outcome S)}
    (goesOn : ∀ own join, Program.Twins Eq own (collect join) (collect join)) (allowance : Nat) {join : Join S}
    (satisfied : join.isSatisfied = true) (own : Option (Nat × Nat)) :
    Program.Twins Eq own (engine.gather request started channel collect allowance join)
      (engine.gather request started channel collect allowance join) := by
  cases allowance with
  | zero => exact .exhausted
  | succ allowance =>
      rw [gather, if_pos satisfied]
      exact goesOn own join

theorem fork_twins (allowance : Nat) (request : ForkRequest S)
    (branches : ∀ own first, Program.Twins Eq own (branch first) (branch first))
    (goesOn : ∀ own later, Program.Twins Eq own (next later) (next later)) :
    Program.Twins Eq own (engine.fork branch allowance request next)
      (engine.fork branch allowance request next) := by
  have concludes (own : Option (Nat × Nat)) (join : Join S) :
      Program.Twins Eq own (engine.conclude request join next) (engine.conclude request join next) :=
    conclude_twins request join goesOn
  have channelled (started : Nat) (readings : Readings) (taken : List NodeId) :
      Program.Twins Eq own
        (.launch taken (fun place target => branch (request.base.moveTo target (readings place))) fun channel =>
          engine.gather request started channel (engine.conclude request · next) allowance
            (Join.start request.source request.targets.length engine.config.joinTimeout))
        (.launch taken (fun place target => branch (request.base.moveTo target (readings place))) fun channel =>
          engine.gather request started channel (engine.conclude request · next) allowance
            (Join.start request.source request.targets.length engine.config.joinTimeout)) :=
    .launch (fun place target _ => branches none _) fun channel other =>
      gather_twins started channel other concludes allowance _
  refine .time fun started => ?_
  split
  · exact inSequence_twins started branches concludes request.targets _ _
  · exact .clock fun readings => submit_twins _ (channelled started readings)
  · exact .clock fun readings => submit_twins _ (channelled started readings)

theorem drive_twins (engine : Engine W S) (allowance : Nat) :
    ∀ (mode : Mode) (steps : Nat) (snapshot : Snapshot S) (own : Option (Nat × Nat)),
      Program.Twins Eq own (engine.drive allowance mode steps snapshot)
        (engine.drive allowance mode steps snapshot) := by
  induction allowance with
  | zero => exact fun _ _ _ _ => .exhausted
  | succ allowance ih =>
      intro mode steps snapshot own
      rw [drive]
      split
      · exact twins_failed _ _
      split
      · exact twins_failed _ _
      split
      · exact twins_failed _ _
      · have proceeds (own : Option (Nat × Nat)) (next : Snapshot S) :=
          engine.notify_twins own (.stateUpdated snapshot next) (ih mode (steps + 1) next own)
        refine notify_twins _ _ _ (Program.Twins.perform ?_ own)
        intro own answer
        split
        · exact twins_failed _ _
        · refine notify_twins _ _ _ (.clock fun readings => ?_)
          cases engine.apply mode _ snapshot _ readings with
          | error panic => exact .broken panic
          | ok step =>
              cases step with
              | proceed later => exact proceeds own later
              | finish outcome => exact .done outcome
              | fork request =>
                  exact fork_twins allowance request (fun own first => ih .branch 0 first own) proceeds

end Engine

namespace Workflow

theorem resumeWith_twins (workflow : Workflow W S O) (allowance : Nat) (snapshot : Snapshot S) (updates : Context)
    (options : ResumeOptions) :
    Program.Twins Eq none (workflow.resumeWith allowance snapshot updates options)
      (workflow.resumeWith allowance snapshot updates options) := by
  refine .clock fun readings => ?_
  split
  · exact .done _
  · exact Engine.notify_twins _ _ _ (workflow.engine.drive_twins allowance .root 0 _ _)

end Workflow

theorem Request.program_twins (workflow : Workflow W S O) (allowance : Nat) (request : Request S) :
    Program.Twins Eq none (request.program workflow allowance) (request.program workflow allowance) := by
  cases request with
  | start input context =>
      refine .call (.refl _) fun text _ => ?_
      split
      · exact .done _
      · exact .clock fun readings => Engine.notify_twins _ _ _ (workflow.engine.drive_twins allowance .root 0 _ _)
  | resume snapshot => exact workflow.resumeWith_twins allowance snapshot _ _
  | resumeWith snapshot updates options => exact workflow.resumeWith_twins allowance snapshot updates options

end FlowGraph
