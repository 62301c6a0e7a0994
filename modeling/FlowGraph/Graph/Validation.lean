import FlowGraph.Graph.Node

/-! Checks of a list of nodes and edges. Errors stand in the way of a graph, warnings do not. -/

namespace FlowGraph

structure Report where
  errors : List String
  warnings : List String
  deriving DecidableEq

namespace Report

def isValid (report : Report) : Bool := report.errors.isEmpty

def text (report : Report) : String :=
  toString report.errors.length ++ " error(s), " ++ toString report.warnings.length ++
    " warning(s)" ++ String.join (report.errors.map ("\n  error: " ++ ·)) ++
    String.join (report.warnings.map ("\n  warning: " ++ ·))

end Report

namespace Graph
variable {W S : Type}

/-- Those occurrences that another one goes before. -/
def repeated {α : Type} [DecidableEq α] (seen : List α) : List α → List α
  | [] => []
  | value :: rest =>
    if seen.contains value then value :: repeated seen rest else repeated (value :: seen) rest

def duplicateNodes (nodes : List (Node W S)) : List String :=
  (repeated [] (nodes.map Node.id)).map fun id => "Duplicate node id '" ++ id.text ++ "'"

def hasNode (nodes : List (Node W S)) (id : NodeId) : Bool := nodes.any fun node => node.id = id

def edgeErrors (nodes : List (Node W S)) (seen : List EdgeId) (edge : Edge S) : List String :=
  (if seen.contains edge.id then ["Duplicate edge id '" ++ edge.id.text ++ "'"] else []) ++
  (if hasNode nodes edge.source then []
   else
    ["Edge '" ++ edge.id.text ++ "' references unknown source node '" ++ edge.source.text ++ "'"]) ++
  (if hasNode nodes edge.target then []
   else
    ["Edge '" ++ edge.id.text ++ "' references unknown target node '" ++ edge.target.text ++ "'"])

def edgesErrors (nodes : List (Node W S)) (seen : List EdgeId) : List (Edge S) → List String
  | [] => []
  | edge :: rest => edgeErrors nodes seen edge ++ edgesErrors nodes (edge.id :: seen) rest

def declaredEntries (nodes : List (Node W S)) : List NodeId :=
  (nodes.filter Node.isEntryPoint).map Node.id

def entryErrors (nodes : List (Node W S)) : Option NodeId → List String
  | some entry =>
    if hasNode nodes entry then []
    else ["Default entry point '" ++ entry.text ++ "' is not a node in the graph"]
  | none =>
    if (declaredEntries nodes).isEmpty then
      ["No entry point: mark a node as an entry point or set a default entry point"]
    else []

def entryWarnings (nodes : List (Node W S)) (entry : Option NodeId) : List String :=
  match entry, declaredEntries nodes with
  | none, first :: second :: rest =>
    ["Multiple entry points (" ++ ", ".intercalate ((first :: second :: rest).map Ident.text) ++
      "); '" ++ first.text ++ "' is used"]
  | _, _ => []

def roots (nodes : List (Node W S)) (entry : Option NodeId) : List NodeId :=
  declaredEntries nodes ++ (entry.toList.filter (hasNode nodes))

def discovered (seen : List NodeId) (source : NodeId) : List (Edge S) → List NodeId
  | [] => []
  | edge :: rest =>
    if edge.source = source && !seen.contains edge.target then
      edge.target :: discovered (edge.target :: seen) source rest
    else discovered seen source rest

/-- Breadth-first search. A node enters the queue once, so `rounds` need not exceed the number of
roots and edges. -/
def search (edges : List (Edge S)) : (rounds : Nat) → (seen queue : List NodeId) → List NodeId
  | 0, seen, _ => seen
  | _ + 1, seen, [] => seen
  | rounds + 1, seen, current :: queue =>
    let found := discovered seen current edges
    search edges rounds (found ++ seen) (queue ++ found)

def reachable (edges : List (Edge S)) (roots : List NodeId) : List NodeId :=
  search edges (roots.length + edges.length) roots roots

def unreachableWarnings (nodes : List (Node W S)) (edges : List (Edge S)) (entry : Option NodeId) :
    List String :=
  let roots := roots nodes entry
  if roots.isEmpty then []
  else
    let reached := reachable edges roots
    (nodes.filter fun node => !reached.contains node.id).map fun node =>
      "Node '" ++ node.id.text ++ "' is unreachable from any entry point"

def validate (nodes : List (Node W S)) (edges : List (Edge S)) (entry : Option NodeId) : Report :=
  if nodes.isEmpty then ⟨["Graph has no nodes"], []⟩
  else
    { errors := duplicateNodes nodes ++ edgesErrors nodes [] edges ++ entryErrors nodes entry
      warnings := entryWarnings nodes entry ++ unreachableWarnings nodes edges entry }

end Graph

end FlowGraph
