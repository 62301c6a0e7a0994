import FlowGraph.Dict
import FlowGraph.Text.Blank

/-! Identifiers of nodes, edges and workflows: texts that are not empty and have no blanks at their ends. -/

namespace FlowGraph

inductive IdentKind where
  | node
  | edge
  | workflow
  deriving DecidableEq

def IdentKind.name : IdentKind → String
  | .node => "node"
  | .edge => "edge"
  | .workflow => "workflow"

structure Ident (kind : IdentKind) where
  text : String
  trimmed : Text.trim text = text
  nonempty : text ≠ ""
  deriving DecidableEq

abbrev NodeId := Ident .node
abbrev EdgeId := Ident .edge
abbrev WorkflowId := Ident .workflow

namespace Ident
variable {kind : IdentKind}

theorem ext_text {a b : Ident kind} (same : a.text = b.text) : a = b := by
  cases a; cases b; cases same; rfl

instance : Key (Ident kind) := ⟨Ident.text, ext_text⟩

def ofText? (text : String) : Option (Ident kind) :=
  if nonempty : Text.trim text = "" then none
  else some ⟨Text.trim text, Text.trim_trim text, nonempty⟩

end Ident

end FlowGraph
