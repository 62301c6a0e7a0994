import FlowGraph.Config
import FlowGraph.Config.Expand
import FlowGraph.Toml.Reader

/-! Configurations that are written as TOML texts, with references to variables of the environment. -/

namespace FlowGraph.EngineConfig

def malformedText : String := "malformed configuration"

def ofText (environment : Environment) (text : String) : Except Error EngineConfig :=
  match (Toml.read (environment.expand text)).map (load false) with
  | some (.ok config) => config.checked
  | _ => .error (.config malformedText)

def ofFile (environment : Environment) (path : String) (content : Option String) :
    Except Error EngineConfig :=
  match content with
  | some text => ofText environment text
  | none => .error (.configNotFound path)

end FlowGraph.EngineConfig
