/-! Calls of supplied functions, which may break off with a panic instead of giving a result. -/

namespace FlowGraph

inductive Panic where
  | text (message : String)
  /-- A panic whose payload is no text. -/
  | other
  deriving DecidableEq

def Panic.message : Panic → String
  | text message => message
  | other => "unknown panic payload"

abbrev Attempt (α : Type) := Except Panic α

end FlowGraph
