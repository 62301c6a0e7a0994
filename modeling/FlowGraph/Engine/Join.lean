import FlowGraph.Engine.Basic

/-!
The join of a fork. The first branch that joins fixes the node, the policy and the timeout; later ones
must join at the same node.
-/

namespace FlowGraph

/-- What the first joined branch has fixed. -/
structure JoinTerms where
  node : NodeId
  policy : WaitPolicy
  timeout : Option Span

structure Join (S : Type) where
  forkNode : NodeId
  total : Nat
  defaultTimeout : Option Span
  terms : Option JoinTerms
  /-- In the order they joined. -/
  joined : List (JoinedBranch S)

namespace Join
variable {S : Type}

def start (forkNode : NodeId) (total : Nat) (defaultTimeout : Option Span) : Join S :=
  ⟨forkNode, total, defaultTimeout, none, []⟩

def isSatisfied (join : Join S) : Bool :=
  match join.terms with
  | some terms => terms.policy.isSatisfied join.joined.length join.total
  | none => false

def timeout (join : Join S) : Option Span :=
  match join.terms with
  | some terms => terms.timeout <|> join.defaultTimeout
  | none => join.defaultTimeout

def expired (join : Join S) (elapsed : Nat) : Option Error :=
  match join.timeout with
  | none => none
  | some timeout =>
    if elapsed * 1000000 < timeout.toNanos then none
    else some (.joinTimeout ((join.terms.map JoinTerms.node).getD join.forkNode) timeout)

/-- Takes the report of a branch: either it joins, or its outcome is that of the whole fork. -/
def record (join : Join S) (branch : NodeId) (outcome : Outcome S) :
    Except (Outcome S) (Join S) :=
  match outcome with
  | .joined node policy timeout snapshot =>
    let joined := join.joined ++ [⟨branch, node, snapshot⟩]
    match join.terms with
    | none => .ok { join with terms := some ⟨node, policy, timeout⟩, joined }
    | some terms =>
      if terms.node = node then .ok { join with joined }
      else
        let source := snapshot.currentNode.getD branch
        let reason :=
          "branches must join at a single node, '" ++ terms.node.text ++ "' already used"
        .error (.failed (.traversal source node reason) (some snapshot))
  | outcome => .error outcome

end Join

namespace Engine
variable {W S : Type}

/-- The visits of all branches, one after the other, behind those of the base. -/
def absorbed (base : Position) (branches : List (JoinedBranch S)) : Position :=
  branches.foldl
    (fun position joined =>
      match joined.snapshot.position with
      | some other => position.absorb other base.visited.length
      | none => position)
    base

def highestVersion (branches : List (JoinedBranch S)) : Nat :=
  branches.foldl (fun highest joined => max highest joined.snapshot.version) 0

/-- The snapshot that goes on at the join: merged payload and context, the whole history, and a version
above all others. -/
def reconciled (base : Snapshot S) (position : Position) (node : NodeId)
    (branches : List (JoinedBranch S)) (merged : Merged S) (readings : Readings) : Snapshot S :=
  let withData := base.withData merged.data (readings 0)
  let withContext := withData.withContext merged.context (readings 1)
  let withPosition := withContext.withPosition (absorbed position branches) (readings 2)
  let moved := withPosition.moveTo node (readings 3)
  moved.advancedPast (highestVersion branches) (readings 4)

/-- Settles a merger's answer. -/
def reconcile (base : Snapshot S) (node : NodeId) (branches : List (JoinedBranch S))
    (answer : Attempt (Except Error (Merged S))) (readings : Readings) :
    Except Error (Snapshot S) :=
  match answer with
  | .error panic =>
    .error (.taskJoin ("join merger panicked at " ++ node.text ++ ": " ++ panic.message))
  | .ok (.error error) => .error error
  | .ok (.ok merged) =>
    match base.position with
    | none => .error .unpositioned
    | some position => .ok (reconciled base position node branches merged readings)

end Engine

end FlowGraph
