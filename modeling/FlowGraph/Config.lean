import FlowGraph.Error

/-! The configuration of an engine, with the defaults of everything that is left out. -/

namespace FlowGraph

structure ExecutionConfig where
  maxSteps : Nat := 10000
  /-- How often a node may have been visited; zero for no limit. -/
  maxVisitsPerNode : Nat := 0
  joinPollInterval : Nat := 25
  /-- For joins without a timeout of their own; zero for none. -/
  defaultJoinTimeout : Nat := 0
  enforceEdgeConditions : Bool := true
  deriving DecidableEq, Inhabited

structure ResumeConfig where
  strict : Bool := true
  deriving DecidableEq, Inhabited

structure MonitorConfig where
  eventBusCapacity : Nat := 256
  deriving DecidableEq, Inhabited

structure EngineConfig where
  execution : ExecutionConfig := {}
  resume : ResumeConfig := {}
  monitor : MonitorConfig := {}
  deriving DecidableEq, Inhabited

namespace ExecutionConfig

def pollInterval (config : ExecutionConfig) : Nat := max config.joinPollInterval 1

def joinTimeout (config : ExecutionConfig) : Option Span :=
  if 0 < config.defaultJoinTimeout then some (.ofMillis config.defaultJoinTimeout) else none

def visitLimit (config : ExecutionConfig) : Option Nat :=
  if 0 < config.maxVisitsPerNode then some config.maxVisitsPerNode else none

def toJson (config : ExecutionConfig) : Json :=
  .ofFields
    [("max_steps", .ofNat config.maxSteps), ("max_visits_per_node", .ofNat config.maxVisitsPerNode),
     ("join_poll_interval_ms", .ofNat config.joinPollInterval),
     ("default_join_timeout_ms", .ofNat config.defaultJoinTimeout),
     ("enforce_edge_conditions", .bool config.enforceEdgeConditions)]

def load (exact : Bool) : Json.Load ExecutionConfig :=
  let standard : ExecutionConfig := {}
  Json.loadRecord exact <|
    mk <$> Json.defaulted "max_steps" standard.maxSteps Json.loadNat
      <*> Json.defaulted "max_visits_per_node" standard.maxVisitsPerNode Json.loadNat
      <*> Json.defaulted "join_poll_interval_ms" standard.joinPollInterval Json.loadNat
      <*> Json.defaulted "default_join_timeout_ms" standard.defaultJoinTimeout Json.loadNat
      <*> Json.defaulted "enforce_edge_conditions" standard.enforceEdgeConditions Json.loadBool

end ExecutionConfig

def ResumeConfig.load (exact : Bool) : Json.Load ResumeConfig :=
  Json.loadRecord exact (mk <$> Json.defaulted "strict" true Json.loadBool)

def MonitorConfig.load (exact : Bool) : Json.Load MonitorConfig :=
  Json.loadRecord exact (mk <$> Json.defaulted "event_bus_capacity" 256 Json.loadNat)

namespace EngineConfig

def toJson (config : EngineConfig) : Json :=
  .ofFields
    [("execution", config.execution.toJson),
     ("resume", .ofFields [("strict", .bool config.resume.strict)]),
     ("monitor", .ofFields [("event_bus_capacity", .ofNat config.monitor.eventBusCapacity)])]

/-- Loads a configuration; `exact` refuses arrays with more items than a record has fields. -/
def load (exact : Bool) : Json.Load EngineConfig :=
  Json.loadRecord exact <|
    mk <$> Json.defaulted "execution" {} (ExecutionConfig.load exact)
      <*> Json.defaulted "resume" {} (ResumeConfig.load exact)
      <*> Json.defaulted "monitor" {} (MonitorConfig.load exact)

def checked (config : EngineConfig) : Except Error EngineConfig :=
  if config.execution.maxSteps = 0 then .error (.config "execution.max_steps must be > 0")
  else if config.monitor.eventBusCapacity = 0 then
    .error (.config "monitor.event_bus_capacity must be > 0")
  else .ok config

end EngineConfig

end FlowGraph
