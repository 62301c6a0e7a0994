import FlowGraph.Workflow

/-! Blueprints: the parts of a workflow before they are checked and put together. -/

namespace FlowGraph

structure Blueprint (W S O : Type) where
  name : Option String
  nodes : List (Node W S)
  edges : List (Edge S)
  defaultEntry : Option NodeId
  extractor : Option (Snapshot S → Effect W (Attempt O))
  monitors : List (Monitor W S)
  executor : Effect W Bool
  merger : Merger W S
  ids : (kind : String) → Effect W String
  tracer : Tracer W
  timers : Option String
  config : EngineConfig

namespace Blueprint
variable {W S O : Type}

def addNode (blueprint : Blueprint W S O) (node : Node W S) : Blueprint W S O :=
  { blueprint with nodes := blueprint.nodes ++ [node] }

def addEdge (blueprint : Blueprint W S O) (edge : Edge S) : Blueprint W S O :=
  { blueprint with edges := blueprint.edges ++ [edge] }

def newEdge (blueprint : Blueprint W S O) (source target : NodeId) (condition : Condition S)
    (now : Instant) : Effect W (Except Error (Edge S)) :=
  (blueprint.ids IdentKind.edge.name).map fun text =>
    (Ident.ofText text).map fun id => .new id source target condition now

def validate (blueprint : Blueprint W S O) : Report :=
  Graph.validate blueprint.nodes blueprint.edges blueprint.defaultEntry

def monitor (blueprint : Blueprint W S O) : Monitor W S :=
  match blueprint.monitors with
  | [] => .tracing blueprint.tracer
  | [monitor] => monitor
  | monitors => .composite blueprint.tracer monitors

def build (blueprint : Blueprint W S O) : Except Error (Workflow W S O) := do
  let report := blueprint.validate
  if !report.isValid then throw (.validation report.errors)
  match blueprint.extractor with
  | none => throw .missingOutputExtractor
  | some extractor =>
    let topology ← Topology.build blueprint.nodes blueprint.edges blueprint.defaultEntry
    pure
      { name := blueprint.name
        extractor
        ids := blueprint.ids
        config := blueprint.config
        engine :=
          { topology
            observer := blueprint.monitor.guarded blueprint.tracer
            executor := blueprint.executor
            merger := blueprint.merger
            config := blueprint.config.execution
            timers := blueprint.timers } }

end Blueprint

end FlowGraph
