import FlowGraph.Engine.Drive
import FlowGraph.Program.Scheduler

/-!
Workflows: a graph that has been checked, with all that is needed to run it. A run starts at the entry
node or resumes a snapshot, and comes to one result.
-/

namespace FlowGraph

structure Workflow (W S O : Type) where
  name : Option String
  engine : Engine W S
  extractor : Snapshot S → Effect W (Attempt O)
  ids : (kind : String) → Effect W String
  config : EngineConfig

structure ResumeOptions where
  strict : Bool
  deriving DecidableEq

namespace Workflow
variable {W S O : Type}

def start (workflow : Workflow W S O) (allowance : Nat) (input : S) (context : Context) :
    Program W (Outcome S) :=
  .call (workflow.ids IdentKind.workflow.name) fun text =>
    match Ident.ofText text with
    | .error error => .done (.failed error none)
    | .ok id => .clock fun readings =>
      let entry := workflow.engine.topology.entry
      let snapshot := Snapshot.initial id input context entry (readings 0)
      workflow.engine.notify (.workflowStarted snapshot) <|
        workflow.engine.drive allowance .root 0 snapshot

/-- What keeps a snapshot from being resumed where it stands. -/
def resumeFault (topology : Topology W S) (snapshot : Snapshot S) : Option String :=
  match snapshot.currentNode with
  | none => some "state is not positioned at any node"
  | some node =>
    if topology.contains node then none
    else some ("node '" ++ node.text ++ "' is not part of this workflow")

/-- The snapshot that a resumed run takes up. A snapshot that does not fit the graph is refused, or
else sent back to the entry node. -/
def prepareResume (workflow : Workflow W S O) (snapshot : Snapshot S) (updates : Context)
    (options : ResumeOptions) (readings : Readings) :
    Except (Error × Snapshot S) (Snapshot S) :=
  let topology := workflow.engine.topology
  let updated :=
    if updates.isEmpty then snapshot else snapshot.mergeContext updates (readings 0)
  match resumeFault topology updated with
  | none => .ok updated
  | some problem =>
    if options.strict then .error (.resume problem, updated)
    else .ok (updated.resetTo topology.entry (readings 1))

def resumeWith (workflow : Workflow W S O) (allowance : Nat) (snapshot : Snapshot S)
    (updates : Context) (options : ResumeOptions) : Program W (Outcome S) :=
  .clock fun readings =>
    match workflow.prepareResume snapshot updates options readings with
    | .error (error, snapshot) => .done (.failed error (some snapshot))
    | .ok snapshot =>
      workflow.engine.notify (.workflowResumed snapshot) <|
        workflow.engine.drive allowance .root 0 snapshot

def resume (workflow : Workflow W S O) (allowance : Nat) (snapshot : Snapshot S) :
    Program W (Outcome S) :=
  workflow.resumeWith allowance snapshot .empty ⟨workflow.config.resume.strict⟩

def fail (workflow : Workflow W S O) (error : Error) (snapshot : Option (Snapshot S)) :
    Effect W (Result S O) :=
  (workflow.engine.observer (.workflowError snapshot error)).map fun _ => .failure error snapshot

def finish (workflow : Workflow W S O) (outcome : Outcome S) : Effect W (Result S O) :=
  match outcome with
  | .completed snapshot =>
    (workflow.extractor snapshot).andThen fun
      | .ok output =>
        (workflow.engine.observer (.workflowCompleted snapshot)).map fun _ =>
          .success output snapshot
      | .error panic => workflow.fail (.outputExtraction panic.message) (some snapshot)
  | .suspended suspension =>
    (workflow.engine.observer
      (.workflowSuspended suspension.snapshot suspension.id suspension.reason)).map fun _ =>
        .suspended suspension
  | .failed error snapshot => workflow.fail error snapshot
  | .joined node _ _ snapshot =>
    workflow.fail (.invalidCommand ("join at " ++ node.text ++ " reported outside a fork"))
      (some snapshot)

/-- The end of a run: what became of it, when, and the world it left behind. -/
structure Ending (W S O : Type) where
  verdict : Verdict (Result S O)
  elapsed : Nat
  world : W

def perform (workflow : Workflow W S O) (clock : Nat → Readings) (allowance : Nat)
    (program : Program W (Outcome S)) (world : W) : Option (Ending W S O) :=
  (Machine.run true clock workflow.finish allowance none (.start world program)).map
    fun (verdict, machine) => ⟨verdict, machine.time, machine.world⟩

def lostTask : Result S O := .failure (.taskJoin "workflow task ended without a result") none

/-- Runs a program of the workflow as a task of the executor. A task that is dropped or panics leaves
no result behind. -/
def performAsync (workflow : Workflow W S O) (clock : Nat → Readings) (allowance : Nat)
    (program : Program W (Outcome S)) (world : W) : Option (Ending W S O) :=
  let (taken, world) := workflow.engine.executor 0 world
  if taken then
    (Machine.run false clock workflow.finish allowance none (.start world program)).map
      fun (verdict, machine) =>
        match verdict with
        | .settled result => ⟨.settled result, machine.time, machine.world⟩
        | .broken _ => ⟨.settled lostTask, machine.time, machine.world⟩
  else some ⟨.settled lostTask, 0, world⟩

end Workflow

end FlowGraph
