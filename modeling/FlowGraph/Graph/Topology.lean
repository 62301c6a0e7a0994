import FlowGraph.Graph.Validation

/-!
The fixed shape of a workflow: nodes and edges in the order they were declared, tables from a node to the
places of its edges, and the entry points.
-/

namespace FlowGraph

structure Topology (W S : Type) where
  nodes : List (Node W S)
  edges : List (Edge S)
  places : Dict NodeId Nat
  outgoing : Dict NodeId (List Nat)
  incoming : Dict NodeId (List Nat)
  entryPoints : List NodeId
  defaultEntry : Option NodeId
  entry : NodeId

namespace Topology
variable {W S : Type}

def nodePlaces (place : Nat) (table : Dict NodeId Nat) : List (Node W S) → Dict NodeId Nat
  | [] => table
  | node :: rest => nodePlaces (place + 1) (table.insert node.id place) rest

def edgePlaces (nodeOf : Edge S → NodeId) (place : Nat) (table : Dict NodeId (List Nat)) :
    List (Edge S) → Dict NodeId (List Nat)
  | [] => table
  | edge :: rest =>
    let known := (table.get? (nodeOf edge)).getD []
    edgePlaces nodeOf (place + 1) (table.insert (nodeOf edge) (known ++ [place])) rest

def build (nodes : List (Node W S)) (edges : List (Edge S)) (defaultEntry : Option NodeId) :
    Except Error (Topology W S) :=
  let report := Graph.validate nodes edges defaultEntry
  if !report.isValid then .error (.validation report.errors)
  else
    match Command.distinct (defaultEntry.toList ++ Graph.declaredEntries nodes) with
    | [] => .error (.validation ["No entry point"])
    | entry :: others =>
      .ok
        { nodes, edges, defaultEntry, entry
          entryPoints := entry :: others
          places := nodePlaces 0 .empty nodes
          outgoing := edgePlaces Edge.source 0 .empty edges
          incoming := edgePlaces Edge.target 0 .empty edges }

def node? (topology : Topology W S) (id : NodeId) : Option (Node W S) :=
  (topology.places.get? id).bind fun place => topology.nodes[place]?

def contains (topology : Topology W S) (id : NodeId) : Bool := topology.places.contains id

def edgesAt (topology : Topology W S) (places : Option (List Nat)) : List (Edge S) :=
  (places.getD []).filterMap fun place => topology.edges[place]?

def edgesFrom (topology : Topology W S) (id : NodeId) : List (Edge S) :=
  topology.edgesAt (topology.outgoing.get? id)

def edgesTo (topology : Topology W S) (id : NodeId) : List (Edge S) :=
  topology.edgesAt (topology.incoming.get? id)

def edgesBetween (topology : Topology W S) (source target : NodeId) : List (Edge S) :=
  (topology.edgesFrom source).filter fun edge => edge.target = target

/-- Nodes of type `stop` and nodes that no edge leaves. -/
def isExitPoint (topology : Topology W S) (id : NodeId) : Bool :=
  match topology.node? id with
  | some node => node.metadata.type = .stop || !topology.outgoing.contains id
  | none => false

def validate (topology : Topology W S) : Report :=
  Graph.validate topology.nodes topology.edges topology.defaultEntry

end Topology

end FlowGraph
