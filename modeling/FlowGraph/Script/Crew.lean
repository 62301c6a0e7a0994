import FlowGraph.Engine.Merge
import FlowGraph.Script.Actor

/-! Monitors, mergers and extractors for scripted workflows. -/

namespace FlowGraph.Script

def place (snapshot : Snapshot Json) : String :=
  ((snapshot.currentNode.map Ident.text).getD "-") ++ " v" ++ toString snapshot.version

def placeBefore (snapshot : Snapshot Json) : String :=
  "v" ++ toString snapshot.version ++ " " ++ ((snapshot.currentNode.map Ident.text).getD "-")

def detail : Notice Json → String
  | .workflowStarted snapshot =>
    "workflow_started " ++ snapshot.workflow.text ++ " at " ++ place snapshot
  | .nodeStarted node snapshot =>
    "node_started " ++ node.text ++ " depth " ++ toString snapshot.depth ++ " v" ++
      toString snapshot.version
  | .nodeCompleted node snapshot command =>
    "node_completed " ++ node.text ++ " " ++ command.kind ++ " v" ++ toString snapshot.version
  | .stateUpdated previous current =>
    "state_updated " ++ placeBefore previous ++ " -> " ++ placeBefore current
  | .workflowSuspended snapshot id reason =>
    "workflow_suspended " ++ id ++ " at " ++ place snapshot ++ ": " ++ reason
  | .workflowResumed snapshot => "workflow_resumed at " ++ place snapshot
  | .workflowCompleted snapshot => "workflow_completed at " ++ place snapshot
  | .workflowError snapshot error =>
    "workflow_error " ++ error.kind ++ " at " ++ ((snapshot.map place).getD "none")

def shortHook (notice : Notice Json) : String := (notice.hook.drop 3).toString

def detailed (panicOn : List String) : Monitor Stage Json := fun notice =>
  (Stage.write (detail notice)).map fun _ =>
    if panicOn.contains (shortHook notice) then
      .error (.text ("monitor exploded on " ++ shortHook notice))
    else .ok ()

def brief : Notice Json → String
  | .workflowStarted snapshot => "started:" ++ snapshot.workflow.text
  | .nodeStarted node _ => "node_started:" ++ node.text
  | .nodeCompleted node _ command => "node_completed:" ++ node.text ++ ":" ++ command.kind
  | .stateUpdated _ current => "state_updated:" ++ toString current.version
  | .workflowSuspended _ id _ => "suspended:" ++ id
  | .workflowResumed _ => "resumed"
  | .workflowCompleted _ => "completed"
  | .workflowError _ error => "error:" ++ error.message

def recording (scene : String) : Monitor Stage Json := fun notice =>
  (Effect.change fun _ stage => stage.record scene (brief notice)).map .ok

def exploding : Monitor Stage Json := fun notice =>
  .pure <|
    match notice with
    | .workflowStarted _ => .error (.text "monitor exploded on start")
    | .nodeStarted .. => .error (.text "monitor exploded on node start")
    | .workflowCompleted _ => .error (.text "monitor exploded on completion")
    | _ => .ok ()

def publishing (scene : String) : Monitor Stage Json := .publishing (Stage.publish scene)

def listing : Merger Stage Json := fun base branches =>
  let entry (joined : JoinedBranch Json) : Json :=
    .array [joined.branch.toJson, joined.joinNode.toJson, joined.snapshot.data,
      .ofNat joined.snapshot.version]
  .pure (.ok (.ok ⟨.array (branches.map entry), base.context⟩))

def keepingBase : Merger Stage Json := fun base _ => .pure (.ok (.ok ⟨base.data, .empty⟩))

def failing (error : Error) : Merger Stage Json := fun _ _ => .pure (.ok (.error error))

def breaking (panic : Panic) : Merger Stage Json := fun _ _ => .pure (.error panic)

abbrev Extractor := Snapshot Json → Effect Stage (Attempt Json)

def payload : Extractor := fun snapshot => .pure (.ok snapshot.data)

def visits : Extractor := fun snapshot =>
  .pure (.ok (.array (snapshot.trace.map Ident.toJson)))

def foundJson {kind : Kind} : Option kind.Value → Json
  | none => .null
  | some value =>
    match kind.encode value with
    | .ok form => .ofFields [("some", form)]
    | .error _ => .null

def contextValue {kind : Kind} (key : ContextKey kind) : Extractor := fun snapshot =>
  .pure (.ok (foundJson (snapshot.context.get key)))

def collapsing (panic : Panic) : Extractor := fun _ => .pure (.error panic)

end FlowGraph.Script
