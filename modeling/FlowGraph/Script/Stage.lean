import FlowGraph.Ident.Sequence
import FlowGraph.Notice.Bus

/-!
The stage on which scripted workflows run: the log, counters of calls, and for each graph its identifiers,
its event bus and its record of notifications.
-/

namespace FlowGraph.Script

inductive IdSource where
  | sequence (ids : IdSequence)
  | fixed (text : String)

def IdSource.draw (kind : String) : IdSource → String × IdSource
  | sequence ids =>
    let (text, rest) := ids.draw kind
    (text, sequence rest)
  | fixed text => (text, fixed text)

structure Scene where
  ids : IdSource
  bus : EventBus
  recording : List String
  submissions : Nat

structure Stage where
  log : List (Nat × String)
  calls : Dict String Nat
  replayed : Dict String Nat
  scenes : Dict String Scene
  tracing : Bool

instance : Inhabited Scene := ⟨.sequence default, .new 1, [], 0⟩

namespace Stage

def empty (tracing : Bool) : Stage := ⟨[], .empty, .empty, .empty, tracing⟩

def write (text : String) : Effect Stage Unit :=
  .change fun time stage => { stage with log := (time, text) :: stage.log }

def notAfter (a b : Nat × String) : Bool := a.1 < b.1 || (a.1 == b.1 && a.2 ≤ b.2)

def lines (stage : Stage) (sorted : Bool) : List String :=
  let written := stage.log.reverse
  let ordered := if sorted then written.mergeSort notAfter else written
  ordered.map fun line => "[" ++ toString line.1 ++ "] " ++ line.2

def clearLog (stage : Stage) : Stage := { stage with log := [] }

def scene (stage : Stage) (name : String) : Scene := (stage.scenes.get? name).getD default

def setScene (stage : Stage) (name : String) (scene : Scene) : Stage :=
  { stage with scenes := stage.scenes.insert name scene }

def withScene {α : Type} (name : String) (act : Scene → α × Scene) : Effect Stage α :=
  fun _ stage =>
    let (value, scene) := act (stage.scene name)
    (value, stage.setScene name scene)

def countCall (name : String) : Effect Stage Nat := fun _ stage =>
  let before := (stage.calls.get? name).getD 0
  (before, { stage with calls := stage.calls.insert name (before + 1) })

def countReplay (name : String) : Effect Stage Nat := fun _ stage =>
  let before := (stage.replayed.get? name).getD 0
  (before, { stage with replayed := stage.replayed.insert name (before + 1) })

def tracer : Tracer Stage := fun trace time stage =>
  if stage.tracing then
    let fields := trace.fields.map fun field => " " ++ field.1 ++ "=" ++ field.2
    write ("tracing " ++ trace.level.name ++ " " ++ trace.message ++ String.join fields) time stage
  else ((), stage)

def drawId (scene kind : String) : Effect Stage String :=
  withScene scene fun scene =>
    let (text, ids) := scene.ids.draw kind
    (text, { scene with ids })

def publish (scene : String) (event : Event) (stage : Stage) : Stage :=
  (withScene scene (fun scene => ((), { scene with bus := scene.bus.publish event })) 0 stage).2

def record (scene text : String) (stage : Stage) : Stage :=
  (withScene scene (fun scene => ((), { scene with recording := text :: scene.recording })) 0
    stage).2

inductive Intake where
  | all
  | none
  | allBut (places : List Nat)

def submit (scene : String) (intake : Intake) : Effect Stage Bool :=
  withScene scene fun scene =>
    let taken :=
      match intake with
      | .all => true
      | .none => false
      | .allBut places => !places.contains scene.submissions
    (taken, { scene with submissions := scene.submissions + 1 })

end Stage

end FlowGraph.Script
