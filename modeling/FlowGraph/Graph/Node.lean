import FlowGraph.Graph.Node.Command
import FlowGraph.Program.Effect

/-! Nodes: an identifier, metadata, the processor that answers a snapshot with a command, and hooks. -/

namespace FlowGraph

/-- The role of a node. Only `start` and `stop` have a meaning: entry and exit of the graph. -/
inductive NodeType where
  | task
  | decision
  | fork
  | join
  | start
  | stop
  | suspend
  deriving DecidableEq, Inhabited

namespace NodeType

def name : NodeType → String
  | task => "task"
  | decision => "decision"
  | fork => "fork"
  | join => "join"
  | start => "start"
  | stop => "end"
  | suspend => "suspend"

def title : NodeType → String
  | task => "Task"
  | decision => "Decision"
  | fork => "Fork"
  | join => "Join"
  | start => "Start"
  | stop => "End"
  | suspend => "Suspend"

def ofName? : String → Option NodeType
  | "task" => some task
  | "decision" => some decision
  | "fork" => some fork
  | "join" => some join
  | "start" => some start
  | "end" => some stop
  | "suspend" => some suspend
  | _ => none

def load : Json.Load NodeType := Json.loadName ofName?

end NodeType

structure NodeMetadata where
  name : Option String
  description : Option String
  type : NodeType
  entryPoint : Bool
  tags : List String
  properties : Dict String Json

namespace NodeMetadata

def new (type : NodeType) : NodeMetadata := ⟨none, none, type, false, [], .empty⟩

instance : Inhabited NodeMetadata := ⟨new default⟩

def withName (metadata : NodeMetadata) (name : String) : NodeMetadata :=
  { metadata with name := some name }

def withDescription (metadata : NodeMetadata) (description : String) : NodeMetadata :=
  { metadata with description := some description }

def withTag (metadata : NodeMetadata) (tag : String) : NodeMetadata :=
  { metadata with tags := metadata.tags ++ [tag] }

def withProperty (metadata : NodeMetadata) (key : String) (value : Json) : NodeMetadata :=
  { metadata with properties := metadata.properties.insert key value }

def toJson (metadata : NodeMetadata) : Json :=
  .ofFields
    [("name", Json.ofOption .string metadata.name),
     ("description", Json.ofOption .string metadata.description),
     ("node_type", .string metadata.type.name), ("entry_point", .bool metadata.entryPoint),
     ("tags", .ofStrings metadata.tags), ("properties", .object metadata.properties.entries)]

def load : Json.Load NodeMetadata :=
  Json.loadRecord true <|
    mk <$> Json.defaulted "name" none (Json.loadOption Json.loadString)
      <*> Json.defaulted "description" none (Json.loadOption Json.loadString)
      <*> Json.defaulted "node_type" default NodeType.load
      <*> Json.defaulted "entry_point" false Json.loadBool
      <*> Json.defaulted "tags" [] (Json.loadList Json.loadString)
      <*> Json.defaulted "properties" .empty (Json.loadDict .ok Json.loadJson)

def describeOption : Option String → String
  | none => "None"
  | some text => "Some(" ++ Text.quoted text ++ ")"

def record (metadata : NodeMetadata) : String :=
  "NodeMetadata " ++ "\x7b name: " ++ describeOption metadata.name ++
    ", description: " ++ describeOption metadata.description ++
    ", node_type: " ++ metadata.type.title ++
    ", entry_point: " ++ toString metadata.entryPoint ++
    ", tags: " ++ Kind.bracketed (metadata.tags.map Text.quoted) ++
    ", properties: " ++ Kind.braced (Kind.describeFields metadata.properties.entries) ++ " \x7d"

end NodeMetadata

structure Hooks (W S : Type) where
  validate : Option (Snapshot S → Effect W (Attempt (Except Error Unit))) := none
  before : Option (Snapshot S → Effect W (Attempt Unit)) := none
  after : Option (Snapshot S → Command S → Effect W (Attempt Unit)) := none
  onError : Option (Snapshot S → Error → Effect W (Attempt Unit)) := none

structure Node (W S : Type) where
  id : NodeId
  metadata : NodeMetadata
  process : Snapshot S → Activity W (Except Error (Command S))
  hooks : Hooks W S

namespace Node
variable {W S : Type}

def new (id : NodeId) (process : Snapshot S → Activity W (Except Error (Command S))) : Node W S :=
  ⟨id, default, process, {}⟩

def withType (node : Node W S) (type : NodeType) : Node W S :=
  { node with metadata := { node.metadata with type } }

def asEntryPoint (node : Node W S) : Node W S :=
  { node with metadata := { node.metadata with entryPoint := true } }

def isEntryPoint (node : Node W S) : Bool :=
  node.metadata.entryPoint || node.metadata.type = .start

def record (node : Node W S) : String :=
  "GraphWorkflowNode " ++ "\x7b id: NodeId(" ++ Text.quoted node.id.text ++
    "), metadata: " ++ node.metadata.record ++ ", .. \x7d"

end Node

end FlowGraph
