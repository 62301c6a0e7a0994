import FlowGraph.Ident
import FlowGraph.Json.Problem
import FlowGraph.Time.Span

/-! What can go wrong when a graph is built, loaded or run, and the messages that say so. -/

namespace FlowGraph

inductive Error where
  | invalidId (message : String)
  | invalidMetadata (message : String)
  | invalidPosition (message : String)
  | invalidCommand (message : String)
  | validation (errors : List String)
  | missingOutputExtractor
  | nodeNotFound (node : NodeId)
  | traversal (source target : NodeId) (reason : String)
  | stateValidation (node : NodeId) (message : String)
  | nodeExecution (node : NodeId) (message : String)
  | command (node : NodeId) (message : String) (recoverable : Bool)
  | joinTimeout (joinNode : NodeId) (timeout : Span)
  | maxStepsExceeded (limit : Nat)
  | visitLimitExceeded (node : NodeId) (limit : Nat)
  | unpositioned
  | resume (message : String)
  | outputExtraction (message : String)
  | taskJoin (message : String)
  | config (message : String)
  | configNotFound (path : String)
  | io (message : String)
  | json (message : String)

namespace Error

def kind : Error → String
  | invalidId _ => "InvalidId"
  | invalidMetadata _ => "InvalidMetadata"
  | invalidPosition _ => "InvalidPosition"
  | invalidCommand _ => "InvalidCommand"
  | validation _ => "Validation"
  | missingOutputExtractor => "MissingOutputExtractor"
  | nodeNotFound _ => "NodeNotFound"
  | traversal .. => "Traversal"
  | stateValidation .. => "StateValidation"
  | nodeExecution .. => "NodeExecution"
  | command .. => "Command"
  | joinTimeout .. => "JoinTimeout"
  | maxStepsExceeded _ => "MaxStepsExceeded"
  | visitLimitExceeded .. => "VisitLimitExceeded"
  | unpositioned => "Unpositioned"
  | resume _ => "Resume"
  | outputExtraction _ => "OutputExtraction"
  | taskJoin _ => "TaskJoin"
  | config _ => "Config"
  | configNotFound _ => "ConfigNotFound"
  | io _ => "Io"
  | json _ => "Json"

def message : Error → String
  | invalidId text => "Invalid identifier: " ++ text
  | invalidMetadata text => "Invalid metadata: " ++ text
  | invalidPosition text => "Invalid position: " ++ text
  | invalidCommand text => "Invalid command: " ++ text
  | validation errors => "Graph validation failed: " ++ "; ".intercalate errors
  | missingOutputExtractor => "No output extractor configured"
  | nodeNotFound node => "Node not found: " ++ node.text
  | traversal source target reason =>
    "Cannot traverse " ++ source.text ++ " -> " ++ target.text ++ ": " ++ reason
  | stateValidation node text => "State rejected by node " ++ node.text ++ ": " ++ text
  | nodeExecution node text => "Node " ++ node.text ++ " failed: " ++ text
  | command node text recoverable =>
    "Node " ++ node.text ++ " reported error (recoverable: " ++ toString recoverable ++ "): " ++ text
  | joinTimeout joinNode timeout => "Join at " ++ joinNode.text ++ " timed out after " ++ timeout.text
  | maxStepsExceeded limit => "Workflow exceeded max steps (" ++ toString limit ++ ")"
  | visitLimitExceeded node limit =>
    "Node " ++ node.text ++ " visited more than " ++ toString limit ++ " times"
  | unpositioned => "Workflow state is not positioned at any node"
  | resume text => "Cannot resume: " ++ text
  | outputExtraction text => "Output extraction failed: " ++ text
  | taskJoin text => "Workflow task failed: " ++ text
  | config text => "Config error: " ++ text
  | configNotFound path => "Config file not found: " ++ path
  | io text => "I/O error: " ++ text
  | json text => "JSON error: " ++ text

def isRecoverable : Error → Bool
  | command _ _ recoverable => recoverable
  | _ => false

def isTimeout : Error → Bool
  | joinTimeout .. => true
  | _ => false

def ofProblem (description : String) : Error := json (Json.Problem.ofText description).text

end Error

namespace Ident
variable {kind : IdentKind}

def blank (kind : IdentKind) : Error := .invalidId (kind.name ++ " must not be empty")

def ofText (text : String) : Except Error (Ident kind) :=
  match ofText? text with
  | some ident => .ok ident
  | none => .error (blank kind)

def loadText (text : String) : Except String (Ident kind) :=
  (ofText text).mapError Error.message

def load : Json.Load (Ident kind)
  | .string text => loadText text
  | _ => Json.mismatch

def toJson (ident : Ident kind) : Json := .string ident.text

end Ident

def Json.loaded {α : Type} (load : Json.Load α) (json : Json) : Except Error α :=
  (load json).mapError .ofProblem

end FlowGraph
