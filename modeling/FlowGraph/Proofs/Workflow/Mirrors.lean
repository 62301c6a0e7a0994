import FlowGraph.Proofs.Program.Lockstep.Run
import FlowGraph.Proofs.Workflow.Request

/-!
Workflows whose parts do the same in related worlds. For each request their programs follow each other, and the
runs come to the same result at the same time.
-/

namespace FlowGraph
variable {W V S O : Type}

/-- The parts of the workflows do the same in related worlds. -/
structure Workflow.Mirrors (worlds : W → V → Prop) (workflow : Workflow W S O) (other : Workflow V S O) :
    Prop where
  engine : workflow.engine.Mirrors none worlds other.engine
  ids : ∀ kind, (workflow.ids kind).Alike worlds (other.ids kind)
  extractor : ∀ snapshot, (workflow.extractor snapshot).Alike worlds (other.extractor snapshot)
  config : workflow.config = other.config
  entry : workflow.engine.topology.entry = other.engine.topology.entry
  contains : ∀ id, workflow.engine.topology.contains id = other.engine.topology.contains id

/-- The machine of a run after so many rounds. -/
def Workflow.machineAfter (workflow : Workflow W S O) (attached : Bool) (clock : Nat → Readings)
    (allowance : Nat) (request : Request S) (world : W) (rounds : Nat) : Machine W (Outcome S) :=
  (Machine.round attached clock workflow.finish)^[rounds] (.start world (request.program workflow allowance))

/-- The main loop of a run does not end by joining. -/
def Final {S : Type} (attempt : Attempt (Outcome S)) : Prop := ∀ outcome, attempt = .ok outcome → ¬IsJoin outcome

theorem final_failed {S : Type} (error : Error) (snapshot : Option (Snapshot S)) :
    Final (.ok (.failed error snapshot)) := by
  rintro _ ⟨⟩ ⟨_, _, _, _, ⟨⟩⟩

namespace Workflow.Mirrors
variable {worlds : W → V → Prop} {workflow : Workflow W S O} {other : Workflow V S O}

theorem prepareResume (mirrors : workflow.Mirrors worlds other) (snapshot : Snapshot S) (updates : Context)
    (options : ResumeOptions) (readings : Readings) :
    workflow.prepareResume snapshot updates options readings =
      other.prepareResume snapshot updates options readings := by
  simp only [Workflow.prepareResume, resumeFault, mirrors.contains, mirrors.entry]

theorem drive (mirrors : workflow.Mirrors worlds other) (count allowance : Nat) (first : Snapshot S) :
    Program.Follows none worlds count .closed Final (workflow.engine.drive allowance .root 0 first)
      (other.engine.drive allowance .root 0 first) := by
  refine (mirrors.engine.drive allowance count .closed .root 0 first).weaken (Nat.le_refl _)
    (Protocol.Widens.refl _) ?_
  rintro _ comes outcome rfl
  exact Engine.Ends.not_join comes

theorem resumeWith (mirrors : workflow.Mirrors worlds other) (count allowance : Nat) (snapshot : Snapshot S)
    (updates : Context) (options : ResumeOptions) :
    Program.Follows none worlds count .closed Final
      (workflow.resumeWith allowance snapshot updates options)
      (other.resumeWith allowance snapshot updates options) := by
  refine .clock fun readings => ?_
  simp only [mirrors.prepareResume]
  cases other.prepareResume snapshot updates options readings with
  | error refused => exact .done (final_failed _ _)
  | ok first => exact mirrors.engine.notify (.workflowResumed first) trivial (mirrors.drive count allowance first)

theorem program (mirrors : workflow.Mirrors worlds other) (request : Request S) (count allowance : Nat) :
    Program.Follows none worlds count .closed Final (request.program workflow allowance)
      (request.program other allowance) := by
  cases request with
  | start input context =>
      refine .call (mirrors.ids _) fun text _ => ?_
      simp only [mirrors.entry]
      cases (Ident.ofText text : Except Error WorkflowId) with
      | error error => exact .done (final_failed _ _)
      | ok id =>
          exact .clock fun readings =>
            mirrors.engine.notify (.workflowStarted _) trivial (mirrors.drive count allowance _)
  | resume snapshot =>
      simp only [Request.program, Workflow.resume, mirrors.config]
      exact mirrors.resumeWith count allowance snapshot _ _
  | resumeWith snapshot updates options => exact mirrors.resumeWith count allowance snapshot updates options

theorem finish (mirrors : workflow.Mirrors worlds other) (outcome : Outcome S) :
    (workflow.finish outcome).Alike worlds (other.finish outcome) := by
  have fails (error : Error) (snapshot : Option (Snapshot S)) :
      (workflow.fail error snapshot).Alike worlds (other.fail error snapshot) :=
    (mirrors.engine.observer (.workflowError snapshot error) trivial).map _
  cases outcome with
  | completed snapshot =>
      refine (mirrors.extractor snapshot).andThen ?_
      rintro (panic | output)
      · exact fails _ _
      · exact (mirrors.engine.observer (.workflowCompleted snapshot) trivial).map _
  | suspended suspension =>
      exact (mirrors.engine.observer
        (.workflowSuspended suspension.snapshot suspension.id suspension.reason) trivial).map _
  | failed error snapshot => exact fails error snapshot
  | joined node policy timeout snapshot => exact fails _ _

theorem related_after (mirrors : workflow.Mirrors worlds other) (attached : Bool) (clock : Nat → Readings)
    (allowance : Nat) (request : Request S) {world : W} {view : V} (starts : worlds world view) (rounds : Nat) :
    worlds (workflow.machineAfter attached clock allowance request world rounds).world
      (other.machineAfter attached clock allowance request view rounds).world := by
  have follows := Machine.Follows.start starts 0 (mirrors.program request (2 * rounds) allowance)
  obtain ⟨_, later⟩ := follows.rounds attached clock mirrors.finish rounds
  exact later.related

theorem run (mirrors : workflow.Mirrors worlds other) (attached : Bool) (clock : Nat → Readings)
    (allowance : Nat) (request : Request S) {world : W} {view : V} (starts : worlds world view) :
    Option.Rel (Machine.EndsAlike worlds) (workflow.run attached clock allowance request world)
      (other.run attached clock allowance request view) :=
  Machine.run_alike attached clock mirrors.finish allowance
    (Machine.Follows.start starts 0 (mirrors.program request (2 * allowance) allowance))

end Workflow.Mirrors
end FlowGraph
