import FlowGraph.Script.Reader.Command
import FlowGraph.Script.Crew
import FlowGraph.Workflow.Blueprint

/-! Reading nodes and whole graphs, and putting them on a stage. -/

namespace FlowGraph.Script

open Reading

inductive Manner where
  | playing (delays : List Nat) (acts : List Act)
  | replaying (delay : Nat) (replies : List (Except Error (Command Json)))
  | answering (reply : Except Error (Command Json))
  | panicking (panic : Panic)

def Manner.processor (name place : String) : Manner → Processor
  | playing delays acts => Script.playing name delays acts
  | replaying delay replies => Script.replaying place delay replies
  | answering reply => Script.answering reply
  | panicking panic => Script.panicking panic

def asReply (json : Json) : Reading (Except Error (Command Json)) := do
  match ← asAct json with
  | .command recipe => .ok (recipe.make .null)
  | .fail error => .ok (.error error)
  | _ => malformed

def asManner (json : Json) (id : NodeId) : Reading Manner := do
  let delays ← (← listOr json "delays").mapM asNat
  let acts (_ : Unit) : Reading (List Act) := do (← listOr json "actions").mapM asAct
  match ← textOr json "impl" "async" with
  | "async" => .ok (.playing delays (← acts ()))
  | "sync" | "counting" => .ok (.playing [] (← acts ()))
  | "scripted" =>
    .ok (.replaying (delays.head?.getD 0) (← (← listOr json "actions").mapM asReply))
  | "traversing" => .ok (.answering (.ok (.traverse (← ident json "target"))))
  | "completing" => .ok (.answering (.ok .complete))
  | "failing" => .ok (.answering (.error (.nodeExecution id (← text json "message"))))
  | "panicking" => .ok (.panicking (.text (← text json "message")))
  | _ => malformed

structure Role where
  id : NodeId
  metadata : NodeMetadata
  manner : Manner
  hooks : Hooks Stage Json

def Role.node (role : Role) (place : String) : Node Stage Json :=
  ⟨role.id, role.metadata, role.manner.processor role.id.text place, role.hooks⟩

def asHook (json : Json) (name : String) : Reading (Option (Option Panic)) :=
  optional (fun json => optional (asPanic json) json "panic") json name

def asValidation (json : Json) : Reading Validation := do
  let panic ← optional (asPanic json) json "panic"
  let rejection ← optional asReport json "fail"
  let exception ← optional (fun json => deferred (asCondition json)) json "unless"
  pure ⟨panic, rejection, exception⟩

def asRole (json : Json) : Reading Role := do
  let id : NodeId ← ident json "id"
  let manner ← asManner json id
  let metadata ← orElse (loaded NodeMetadata.load) default json "metadata"
  let type ← orElse (loaded NodeType.load) metadata.type json "type"
  let entryPoint ← flag json "entry"
  let validate ← optional asValidation json "validate"
  let before ← asHook json "before"
  let after ← asHook json "after"
  let onError ← asHook json "on_error"
  pure
    ⟨id, { metadata with type, entryPoint := metadata.entryPoint || entryPoint }, manner,
      Script.hooks id validate before after onError⟩

def asMerger (json : Json) : Reading (Merger Stage Json) := do
  match given json "m" with
  | none => .ok .lastWriterWins
  | some (.string "list") => .ok listing
  | some (.string "base") => .ok keepingBase
  | some (.string "fail") => .ok (Script.failing (← asReport (part json "fail")))
  | some (.string "panic") => .ok (breaking (← asPanic json (part json "v")))
  | _ => malformed

def asExtractor (json : Json) : Reading (Option Extractor) := do
  match json, part json "x" with
  | .null, _ | .string "data", _ => .ok (some payload)
  | _, .string "trace" => .ok (some visits)
  | _, .string "context" =>
    let kind ← asKind (part json "type")
    .ok (some (contextValue (⟨← text json "key"⟩ : ContextKey kind)))
  | _, .string "panic" => .ok (some (collapsing (← asPanic json (part json "v"))))
  | _, .string "none" => .ok none
  | _, _ => malformed

def asIntake : Json → Reading Stage.Intake
  | .null => .ok .all
  | .string "drop" => .ok .none
  | json => do pure (.allBut (← (← list json "drop").mapM asNat))

abbrev MadeMonitor := Monitor Stage Json × List String

def composed (made : List MadeMonitor) : MadeMonitor :=
  let line (count : Nat) := "composite of " ++ toString count ++ " empty " ++ toString (count == 0)
  (.composite Stage.tracer (made.map Prod.fst),
    line 0 :: made.flatMap Prod.snd ++ [line made.length])

def asMonitorWithin (scene : String) : (nesting : Nat) → Json → Reading MadeMonitor
  | 0, _ => malformed
  | nesting + 1, json =>
    match json, given json "panic_on", given json "composite" with
    | .string "detail", _, _ => .ok (detailed [], [])
    | .string "bus", _, _ => .ok (Script.publishing scene, [])
    | .string "recording", _, _ => .ok (Script.recording scene, [])
    | .string "panicking", _, _ => .ok (exploding, [])
    | .string "noop", _, _ => .ok (.silent, [])
    | .string "tracing", _, _ => .ok (.tracing Stage.tracer, [])
    | _, some hooks, _ => do pure (detailed (← (← asList hooks).mapM asText), [])
    | _, none, some parts => do
      pure (composed (← (← asList parts).mapM (asMonitorWithin scene nesting)))
    | _, none, none => malformed

def namesMonitor (name : String) : (nesting : Nat) → Json → Bool
  | 0, _ => false
  | nesting + 1, json =>
    match json, part json "composite" with
    | .string text, _ => text == name
    | _, .array parts => parts.any (namesMonitor name nesting)
    | _, _ => false

structure EdgeScript where
  id : Option EdgeId
  source : NodeId
  target : NodeId
  condition : Condition Json

def asEdgeScript (json : Json) : Reading EdgeScript := do
  pure
    ⟨← optional asIdent json "id", ← ident json "from", ← ident json "to",
      ← orElse asCondition .always json "cond"⟩

structure GraphScript where
  name : Option String
  ids : IdSource
  config : EngineConfig
  roles : List Role
  edges : List EdgeScript
  defaultEntry : Option NodeId
  extractor : Option Extractor
  monitors : List MadeMonitor
  hasBus : Bool
  hasRecording : Bool
  intake : Stage.Intake
  merger : Merger Stage Json

def asIds (json : Json) : Reading IdSource :=
  match given json "fixed_id", given json "ids" with
  | some fixed, _ => do pure (.fixed (← asText fixed))
  | none, some stem => do pure (.sequence (.startingWith (← asText stem)))
  | none, none => pure (.sequence default)

def asGraph (scene : String) (json : Json) : Reading GraphScript := do
  let ids ← asIds json
  let name ← optional asText json "name"
  let config ← orElse (loaded (EngineConfig.load true)) {} json "config"
  let roles ← (← listOr json "nodes").mapM asRole
  let edges ← (← listOr json "edges").mapM asEdgeScript
  let defaultEntry ← optional asIdent json "default_entry"
  let extractor ← asExtractor (part json "extract")
  let monitors ← listOr json "monitors"
  let made ← monitors.mapM (asMonitorWithin scene 128)
  let intake ← asIntake (part json "executor")
  let merger ← asMerger (part json "merger")
  pure
    { name, ids, config, roles, edges, defaultEntry, extractor, intake, merger
      monitors := made
      hasBus := monitors.any (namesMonitor "bus" 128)
      hasRecording := monitors.any (namesMonitor "recording" 128) }

namespace GraphScript

def prepare (script : GraphScript) (scene : String) (stage : Stage) : Stage :=
  (Effect.each Stage.write (script.monitors.flatMap Prod.snd) 0
    (stage.setScene scene ⟨script.ids, .new 1, [], 0⟩)).2

def openBus (script : GraphScript) (scene : String) (stage : Stage) : Attempt Stage :=
  if script.hasBus then do
    let bus ← EventBus.ofCapacity script.config.monitor.eventBusCapacity
    pure (stage.setScene scene { stage.scene scene with bus := bus.subscribe scene })
  else pure stage

def connected (scene : String) (now : Instant) :
    List EdgeScript → Stage → Except Error (List (Edge Json)) × Stage
  | [], stage => (.ok [], stage)
  | script :: rest, stage =>
    let (id, stage) : Except Error EdgeId × Stage :=
      match script.id with
      | some id => (.ok id, stage)
      | none => ((Stage.drawId scene IdentKind.edge.name).map Ident.ofText) 0 stage
    match id with
    | .error error => (.error error, stage)
    | .ok id =>
      let (others, stage) := connected scene now rest stage
      let edge : Edge Json := .new id script.source script.target script.condition now
      (others.map (edge :: ·), stage)

def nodesFrom (scene : String) (place : Nat) : List Role → List (Node Stage Json)
  | [] => []
  | role :: rest =>
    role.node (scene ++ "/" ++ toString place) :: nodesFrom scene (place + 1) rest

/-- The parts of the graph, with the edges that were made for it. Without timers nobody takes tasks. -/
def blueprint (script : GraphScript) (scene : String) (timers : Option String)
    (edges : List (Edge Json)) : Blueprint Stage Json Json where
  name := script.name
  nodes := nodesFrom scene 0 script.roles
  edges
  defaultEntry := script.defaultEntry
  extractor := script.extractor
  monitors := script.monitors.map Prod.fst
  executor := Stage.submit scene (if timers.isSome then .none else script.intake)
  merger := script.merger
  ids := Stage.drawId scene
  tracer := Stage.tracer
  timers
  config := script.config

end GraphScript

end FlowGraph.Script
