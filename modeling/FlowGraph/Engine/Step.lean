import FlowGraph.Engine.Basic

/-!
One step of a loop: what a command makes of the snapshot that its node was given. Conditions see that
snapshot as it was before the updates of the command, except for those of the branches of a fork.
-/

namespace FlowGraph

structure ForkRequest (S : Type) where
  source : NodeId
  base : Snapshot S
  targets : List NodeId
  strategy : ForkStrategy

inductive Step (S : Type) where
  | proceed (snapshot : Snapshot S)
  | finish (outcome : Outcome S)
  | fork (request : ForkRequest S)

namespace Engine
variable {W S : Type}

def firstAdmitting (snapshot : Snapshot S) : List (Edge S) → Attempt (Option (Edge S))
  | [] => pure none
  | edge :: rest => do
    if ← edge.admits snapshot then pure (some edge) else firstAdmitting snapshot rest

def refusedBy (edges : List (Edge S)) : String :=
  "no edge condition satisfied (" ++
    ", ".intercalate (edges.map fun edge => edge.condition.description) ++ ")"

/-- The edge to take: the first one that admits the snapshot, or the first one at all if conditions are
not enforced. -/
def selectEdge (engine : Engine W S) (current : NodeId) (snapshot : Snapshot S)
    (target : NodeId) : Attempt (Except Error (Edge S)) :=
  let refused (reason : String) : Except Error (Edge S) :=
    .error (.traversal current target reason)
  if !engine.topology.contains target then pure (refused "target node does not exist")
  else
    match engine.topology.edgesBetween current target with
    | [] => pure (refused "no edge connects the nodes")
    | first :: others =>
      if !engine.config.enforceEdgeConditions then pure (.ok first)
      else do
        match ← firstAdmitting snapshot (first :: others) with
        | some edge => pure (.ok edge)
        | none => pure (refused (refusedBy (first :: others)))

def conditionHolds (condition : Option (Condition S)) (snapshot : Snapshot S) : Attempt Bool :=
  match condition with
  | some condition => condition.evaluate snapshot
  | none => pure true

def describeCondition (condition : Option (Condition S)) : String :=
  match condition with
  | some condition => condition.description
  | none => ""

def traverse (engine : Engine W S) (current : NodeId) (snapshot : Snapshot S) (target : NodeId)
    (condition : Option (Condition S)) (updates : Context) (data : Option S)
    (readings : Readings) : Attempt (Except Error (Snapshot S)) := do
  if !(← conditionHolds condition snapshot) then
    let reason := "condition not satisfied: " ++ describeCondition condition
    return .error (.traversal current target reason)
  match ← engine.selectEdge current snapshot target with
  | .error error => return .error error
  | .ok edge =>
    let updated := withUpdates snapshot updates data readings
    return .ok (updated.traverse edge.id target (readings edgeReading) (readings moveReading))

def forkFault (engine : Engine W S) (current : NodeId) : List NodeId → Option Error
  | [] => none
  | target :: rest =>
    if !engine.topology.contains target then
      some (.traversal current target "fork target does not exist")
    else if (engine.topology.edgesBetween current target).isEmpty then
      some (.traversal current target "fork target is not adjacent")
    else engine.forkFault current rest

def branchHolds (conditions : Dict NodeId (Condition S)) (base : Snapshot S) (target : NodeId) :
    Attempt Bool :=
  conditionHolds (conditions.get? target) base

def eligible (conditions : Dict NodeId (Condition S)) (base : Snapshot S) :
    List NodeId → Attempt (List NodeId)
  | [] => pure []
  | target :: rest => do
    let held ← branchHolds conditions base target
    let others ← eligible conditions base rest
    pure (if held then target :: others else others)

def forkTargets (current : NodeId) (base : Snapshot S) (targets : List NodeId)
    (strategy : ForkStrategy) (conditions : Dict NodeId (Condition S)) :
    Attempt (Except Error (List NodeId)) :=
  match strategy with
  | .parallel | .sequential => pure (.ok targets)
  | .conditional => do
    match ← eligible conditions base targets, targets with
    | [], first :: _ =>
      pure (.error (.traversal current first "no fork branch condition satisfied"))
    | kept, _ => pure (.ok kept)

def ofMove (snapshot : Snapshot S) : Except Error (Snapshot S) → Step S
  | .ok next => .proceed next
  | .error error => .finish (.failed error (some snapshot))

/-- Interprets a command against the snapshot it answers. -/
def apply (engine : Engine W S) (mode : Mode) (current : NodeId) (snapshot : Snapshot S)
    (command : Command S) (readings : Readings) : Attempt (Step S) :=
  let updated (data : Option S) := withUpdates snapshot command.updates data readings
  let move (target : NodeId) (condition : Option (Condition S)) (data : Option S) :
      Attempt (Step S) := do
    let moved ←
      engine.traverse current snapshot target condition command.updates data readings
    pure (ofMove snapshot moved)
  match command.action with
  | .traverse target condition data => move target condition data
  | .fork targets strategy conditions data =>
    match engine.forkFault current targets with
    | some error => pure (.finish (.failed error (some snapshot)))
    | none => do
      let base := updated data
      match ← forkTargets current base targets strategy conditions with
      | .ok targets => pure (.fork ⟨current, base, targets, strategy⟩)
      | .error error => pure (.finish (.failed error (some base)))
  | .join node policy timeout data =>
    match mode with
    | .root => move node none data
    | .branch => do
      match ← engine.selectEdge current snapshot node with
      | .error error => pure (.finish (.failed error (some snapshot)))
      | .ok _ => pure (.finish (.joined node policy timeout (updated data)))
  | .suspend id reason timeout =>
    pure (.finish (.suspended ⟨id, reason, timeout, updated none⟩))
  | .complete data => pure (.finish (.completed (updated data)))
  | .error message recoverable fallback =>
    match recoverable, fallback with
    | true, some fallback =>
      if engine.topology.contains fallback then
        pure (.proceed ((updated none).moveTo fallback (readings moveReading)))
      else pure (.finish (.failed (.nodeNotFound fallback) (some (updated none))))
    | _, _ =>
      pure (.finish (.failed (.command current message recoverable) (some (updated none))))

end Engine

end FlowGraph
