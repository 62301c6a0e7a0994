import FlowGraph.Graph.Condition

/-! Directed edges between nodes, with the condition under which each may be taken. -/

namespace FlowGraph

structure EdgeMetadata where
  name : Option String
  description : Option String
  weight : Binary64
  properties : Dict String Json
  created : Instant

namespace EdgeMetadata

def one : Binary64 := .ofNat 1

def new (now : Instant) : EdgeMetadata := ⟨none, none, one, .empty, now⟩

def withWeight (metadata : EdgeMetadata) (weight : Binary64) : Except Error EdgeMetadata :=
  if weight.isNaN || weight.lt .zero then
    .error (.invalidMetadata
      ("edge weight must be >= 0, got " ++ DecimalStyle.plain.text weight))
  else .ok { metadata with weight }

def withName (metadata : EdgeMetadata) (name : String) : EdgeMetadata :=
  { metadata with name := some name }

def withDescription (metadata : EdgeMetadata) (description : String) : EdgeMetadata :=
  { metadata with description := some description }

def withProperty (metadata : EdgeMetadata) (key : String) (value : Json) : EdgeMetadata :=
  { metadata with properties := metadata.properties.insert key value }

def toJson (stamp : Instant → String) (metadata : EdgeMetadata) : Json :=
  .ofFields
    [("name", Json.ofOption .string metadata.name),
     ("description", Json.ofOption .string metadata.description),
     ("weight", .ofFloat metadata.weight), ("properties", .object metadata.properties.entries),
     ("created_at", .string (stamp metadata.created))]

def load : Json.Load EdgeMetadata :=
  Json.loadRecord true <|
    mk <$> Json.defaulted "name" none (Json.loadOption Json.loadString)
      <*> Json.defaulted "description" none (Json.loadOption Json.loadString)
      <*> Json.defaulted "weight" one Json.loadFloat
      <*> Json.defaulted "properties" .empty (Json.loadDict .ok Json.loadJson)
      <*> Json.required "created_at" Instant.load

end EdgeMetadata

structure Edge (S : Type) where
  id : EdgeId
  source : NodeId
  target : NodeId
  condition : Condition S
  metadata : EdgeMetadata

namespace Edge
variable {S : Type}

def new (id : EdgeId) (source target : NodeId) (condition : Condition S) (now : Instant) : Edge S :=
  ⟨id, source, target, condition, .new now⟩

def withCondition (edge : Edge S) (condition : Condition S) : Edge S := { edge with condition }

def withMetadata (edge : Edge S) (metadata : EdgeMetadata) : Edge S := { edge with metadata }

def isSelfLoop (edge : Edge S) : Bool := edge.source = edge.target

def connects (edge : Edge S) (source target : NodeId) : Bool :=
  edge.source = source && edge.target = target

def admits (edge : Edge S) (snapshot : Snapshot S) : Attempt Bool :=
  edge.condition.evaluate snapshot

end Edge

end FlowGraph
