import FlowGraph.Error
import FlowGraph.Time.Stamp

/-!
Where a run stands and how it came there: every visit in order, and the time at which each edge was last
taken. A position stands at a node, so its history is never empty and ends with that node.
-/

namespace FlowGraph

structure Position where
  current : NodeId
  /-- The nodes visited before the current one, the latest first. -/
  behind : List NodeId
  previous : Option NodeId
  traversals : Dict EdgeId Instant
  deriving DecidableEq

namespace Position

def start (node : NodeId) : Position := ⟨node, [], none, .empty⟩

def visited (position : Position) : List NodeId := (position.current :: position.behind).reverse

def depth (position : Position) : Nat := position.behind.length

def push (position : Position) (node : NodeId) (previous : Option NodeId) : Position :=
  { position with current := node, behind := position.current :: position.behind, previous }

def moveTo (position : Position) (node : NodeId) : Position :=
  position.push node (some position.current)

def traverse (position : Position) (edge : EdgeId) (node : NodeId) (time : Instant) : Position :=
  let next := position.moveTo node
  { next with traversals := next.traversals.insert edge time }

def resetTo (position : Position) (node : NodeId) : Position := position.push node none

/-- Keeps the later of two stamps of an edge. -/
def stampLatest (stamps : Dict EdgeId Instant) (edge : EdgeId) (time : Instant) :
    Dict EdgeId Instant :=
  match stamps.get? edge with
  | some known => if known.before time then stamps.insert edge time else stamps
  | none => stamps.insert edge time

/-- Appends the visits of another position from the place `since` on, and its stamps. -/
def absorb (position other : Position) (since : Nat) : Position :=
  let next := (other.visited.drop since).foldl moveTo position
  { next with
    traversals := other.traversals.entries.foldl
      (fun stamps entry => stampLatest stamps entry.1 entry.2) next.traversals }

def visitCount (position : Position) (node : NodeId) : Nat :=
  (position.current :: position.behind).countP (· = node)

def hasVisited (position : Position) (node : NodeId) : Bool :=
  (position.current :: position.behind).any (· = node)

def hasCycle (position : Position) : Bool := position.behind.any (· = position.current)

def traversedAt (position : Position) (edge : EdgeId) : Option Instant :=
  position.traversals.get? edge

def toJson (stamp : Instant → String) (position : Position) : Json :=
  .ofFields
    [("current_node", position.current.toJson),
     ("previous_node", Json.ofOption Ident.toJson position.previous),
     ("visited", .array (position.visited.map Ident.toJson)),
     ("edge_traversals",
       .object (position.traversals.entries.map fun entry =>
         (entry.1.text, .string (stamp entry.2)))),
     ("depth", .ofNat position.depth)]

structure Fields where
  current : NodeId
  previous : Option NodeId
  visited : List NodeId
  traversals : Dict EdgeId Instant
  depth : Nat

/-- Fields make a position if the history ends with the current node and the depth counts the moves. -/
def ofFields (fields : Fields) : Except Error Position :=
  match fields.visited.reverse with
  | [] => .error (.invalidPosition "visited history is empty")
  | last :: behind =>
    if last ≠ fields.current then
      .error (.invalidPosition
        ("history ends at " ++ last.text ++ " but current node is " ++ fields.current.text))
    else if fields.depth ≠ behind.length then
      .error (.invalidPosition
        ("depth " ++ toString fields.depth ++ " does not match " ++
          toString fields.visited.length ++ " visited nodes"))
    else .ok ⟨fields.current, behind, fields.previous, fields.traversals⟩

end Position

def Instant.load : Json.Load Instant
  | .string text =>
    match ofStamp text with
    | some instant => .ok instant
    | none => Json.mismatch
  | _ => Json.mismatch

namespace Position

def loadFields : Json.Load Fields :=
  Json.loadRecord true <|
    Fields.mk <$> Json.required "current_node" Ident.load
      <*> Json.nullable "previous_node" Ident.load
      <*> Json.required "visited" (Json.loadList Ident.load)
      <*> Json.defaulted "edge_traversals" .empty (Json.loadDict Ident.loadText Instant.load)
      <*> Json.required "depth" Json.loadNat

def load (json : Json) : Except String Position := do
  let fields ← loadFields json
  (ofFields fields).mapError Error.message

end Position

end FlowGraph
