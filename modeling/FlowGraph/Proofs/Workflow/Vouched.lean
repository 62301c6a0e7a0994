import FlowGraph.Proofs.Loop.Vouched

/-!
Runs whose outcomes their notes vouch for. It is enough that the notes vouch for the loop, that the snapshots that
runs begin with are fit, and that the notes vouch for what keeps a run from its loop.
-/

namespace FlowGraph
variable {W S O : Type}

def Result.closing : Result S O → Notice S
  | success _ snapshot => .workflowCompleted snapshot
  | suspended suspension => .workflowSuspended suspension.snapshot suspension.id suspension.reason
  | failure error snapshot => .workflowError snapshot error

/-- The notes vouch for the runs of the workflow. -/
structure Workflow.Vouching (workflow : Workflow W S O) (fit : Snapshot S → Prop) (joinable : NodeId → Prop)
    (vouches : List (Note S) → Outcome S → Prop) : Prop where
  engine : workflow.engine.Vouching fit joinable vouches
  enduring : Enduring vouches
  unnamed : ∀ {notes text error}, (Ident.ofText text : Except Error WorkflowId) = .error error →
    vouches notes (.failed error none)
  initial : ∀ id input context time, fit (.initial id input context workflow.engine.topology.entry time)
  refused : ∀ {notes problem last}, vouches notes (.failed (.resume problem) (some last))
  resumed : ∀ {snapshot updates options readings first},
    workflow.prepareResume snapshot updates options readings = .ok first → fit first

namespace Workflow
variable {workflow : Workflow W S O} {fit : Snapshot S → Prop} {joinable : NodeId → Prop}
  {vouches : List (Note S) → Outcome S → Prop}

theorem prepareResume_error {snapshot last : Snapshot S} {updates : Context} {options : ResumeOptions}
    {readings : Readings} {error : Error}
    (refused : workflow.prepareResume snapshot updates options readings = .error (error, last)) :
    ∃ problem, error = .resume problem := by
  simp only [prepareResume] at refused
  split at refused
  · cases refused
  · split at refused
    · cases refused
      exact ⟨_, rfl⟩
    · cases refused

namespace Vouching

theorem resumeWith (vouching : workflow.Vouching fit joinable vouches) (allowance : Nat) (snapshot : Snapshot S)
    (updates : Context) (options : ResumeOptions) (notes : List (Note S)) :
    (workflow.noting.resumeWith allowance snapshot updates options).Vouched vouches notes := by
  intro readings
  have same : workflow.noting.prepareResume snapshot updates options readings =
      workflow.prepareResume snapshot updates options readings := rfl
  simp only [same]
  cases prepared : workflow.prepareResume snapshot updates options readings with
  | error fault =>
      obtain ⟨problem, same⟩ := prepareResume_error prepared
      simp only [same]
      exact vouching.refused
  | ok first =>
      exact Engine.notify_vouched _ fun more _ =>
        vouching.engine.drive allowance .root 0 first (vouching.resumed prepared) more

theorem program (vouching : workflow.Vouching fit joinable vouches) (allowance : Nat) (request : Request S)
    (notes : List (Note S)) : (request.program workflow.noting allowance).Vouched vouches notes := by
  cases request with
  | start input context =>
      refine .call (Engine.beside_adds _ _) fun text more => ?_
      cases named : (Ident.ofText text : Except Error WorkflowId) with
      | error error => exact vouching.unnamed named
      | ok id =>
          intro readings
          exact Engine.notify_vouched _ fun latest _ =>
            vouching.engine.drive allowance .root 0 _ (vouching.initial id input context _) latest
  | resume snapshot => exact vouching.resumeWith allowance snapshot _ _ notes
  | resumeWith snapshot updates options => exact vouching.resumeWith allowance snapshot updates options notes

theorem entry (vouching : workflow.Vouching fit joinable vouches) {clock : Nat → Readings} {world : W}
    {request : Request S} {first : Snapshot S} (enters : request.entry workflow clock world = .ok first) :
    fit first := by
  have resumes {snapshot : Snapshot S} {updates : Context} {options : ResumeOptions}
      (resumed : Request.resumeEntry workflow clock snapshot updates options = .ok first) : fit first := by
    unfold Request.resumeEntry at resumed
    split at resumed
    · cases resumed
    · cases resumed
      exact vouching.resumed ‹_›
  cases request with
  | start input context =>
      simp only [Request.entry] at enters
      split at enters
      · cases enters
      · cases enters
        exact vouching.initial _ _ _ _
  | resume snapshot => exact resumes enters
  | resumeWith snapshot updates options => exact resumes enters

end Vouching

theorem finish_noted (workflow : Workflow W S O) (outcome : Outcome S) (time : Nat) (world : W × List (Note S)) :
    (workflow.noting.finish outcome time world).1 = (workflow.finish outcome time world.1).1 ∧
      (workflow.noting.finish outcome time world).2.2 =
        world.2 ++ [.told (workflow.finish outcome time world.1).1.closing] := by
  cases outcome with
  | completed snapshot =>
      have same : (workflow.noting.extractor snapshot time world).1 = (workflow.extractor snapshot time world.1).1 :=
        rfl
      simp only [finish, Effect.andThen, same]
      cases (workflow.extractor snapshot time world.1).1 with
      | ok output => exact ⟨rfl, rfl⟩
      | error panic => exact ⟨rfl, rfl⟩
  | suspended suspension => exact ⟨rfl, rfl⟩
  | failed error snapshot => exact ⟨rfl, rfl⟩
  | joined node policy timeout snapshot => exact ⟨rfl, rfl⟩

theorem finish_adds (workflow : Workflow W S O) (outcome : Outcome S) : (workflow.noting.finish outcome).Adds := by
  intro time world
  rw [(workflow.finish_noted outcome time world).2]
  exact List.subset_append_left _ _

/-- The result of a run is made of an outcome of its main loop that its notes vouch for. -/
theorem Vouching.of_run (vouching : workflow.Vouching fit joinable vouches) {attached : Bool}
    {clock : Nat → Readings} {allowance : Nat} {request : Request S} {world : W} {result : Result S O}
    {machine : Machine W (Outcome S)}
    (finished : workflow.run attached clock allowance request world = some (.settled result, machine)) :
    ∃ rounds outcome time view, vouches (workflow.notes attached clock allowance request world rounds) outcome ∧
      ¬IsJoin outcome ∧ (workflow.finish outcome time view).1 = result := by
  have begins : Beside workflow.engine.AllHonest (world, []) world := ⟨rfl, by simp [Engine.AllHonest]⟩
  have mirrors := workflow.noting_mirrors
  have follows := Machine.Follows.start begins 0 (mirrors.program request (2 * allowance) allowance)
  have vouched : Machine.Vouched vouches (.start (world, []) (request.program workflow.noting allowance)) :=
    .start (vouching.program allowance request [])
  obtain ⟨rounds, outcome, time, view, explains, final, closes⟩ := Machine.run_vouched vouching.enduring attached
    clock mirrors.finish workflow.finish_adds allowance vouched follows (by simp) finished
  exact ⟨rounds, outcome, time, view, explains, final outcome rfl, closes⟩

end Workflow
end FlowGraph
