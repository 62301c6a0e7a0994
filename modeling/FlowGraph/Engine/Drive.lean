import FlowGraph.Engine.Join
import FlowGraph.Engine.Step
import FlowGraph.Graph.Node.Lifecycle

/-!
The loop that runs a workflow: execute the node at hand, apply its command, go on with the next
snapshot. A fork runs the same loop for each of its branches. Every turn of a loop, and every look at
the reports of a fork, uses up one unit of the allowance.
-/

namespace FlowGraph.Engine
variable {W S : Type}

def failed (error : Error) (snapshot : Snapshot S) : Program W (Outcome S) :=
  .done (.failed error (some snapshot))

def notify (engine : Engine W S) (notice : Notice S) (next : Program W (Outcome S)) :
    Program W (Outcome S) :=
  .call (engine.observer notice) fun _ => next

/-- What keeps a loop from executing a node: too many steps, or too many visits. -/
def guardFault (config : ExecutionConfig) (steps : Nat) (snapshot : Snapshot S)
    (current : NodeId) : Option Error :=
  if config.maxSteps < steps then some (.maxStepsExceeded config.maxSteps)
  else
    match config.visitLimit with
    | none => none
    | some limit =>
      if limit < snapshot.visitCount current then some (.visitLimitExceeded current limit)
      else none

def conclude (engine : Engine W S) (request : ForkRequest S) (join : Join S)
    (next : Snapshot S → Program W (Outcome S)) : Program W (Outcome S) :=
  match join.terms with
  | none =>
    failed (.taskJoin ("fork at " ++ request.source.text ++ " ended without any branch joining"))
      request.base
  | some terms =>
    .call (engine.merger request.base join.joined) fun answer => .clock fun readings =>
      match reconcile request.base terms.node join.joined answer readings with
      | .ok snapshot => next snapshot
      | .error error => failed error request.base

def inSequence (branch : Snapshot S → Program W (Outcome S)) (request : ForkRequest S)
    (started : Nat) (next : Join S → Program W (Outcome S)) :
    Join S → List NodeId → Program W (Outcome S)
  | join, [] => next join
  | join, target :: rest =>
    if join.isSatisfied then next join
    else .clock fun readings =>
      (branch (request.base.moveTo target (readings 0))).bind fun outcome =>
        match join.record target outcome with
        | .error outcome => .done outcome
        | .ok join => .time fun now =>
          match join.expired (now - started) with
          | some error => failed error request.base
          | none => inSequence branch request started next join rest

def submit (engine : Engine W S) (next : List NodeId → Program W (Outcome S)) :
    List NodeId → Program W (Outcome S)
  | [] => next []
  | target :: rest => .call engine.executor fun taken =>
    submit engine (fun others => next (if taken then target :: others else others)) rest

def lost (request : ForkRequest S) (join : Join S) : Error :=
  .taskJoin ("fork at " ++ request.source.text ++ " lost " ++
    toString (join.total - join.joined.length) ++ " branch(es) before they reported")

/-- Waits for reports until the join is satisfied, looking at the deadline before each. -/
def gather (engine : Engine W S) (request : ForkRequest S) (started channel : Nat)
    (next : Join S → Program W (Outcome S)) : (allowance : Nat) → Join S → Program W (Outcome S)
  | 0, _ => .exhausted
  | allowance + 1, join =>
    if join.isSatisfied then next join
    else .time fun now =>
      match join.expired (now - started) with
      | some error => failed error request.base
      | none =>
        match engine.timers with
        | some text => .broken (.text text)
        | none => .receive channel engine.config.pollInterval fun
          | .report branch outcome =>
            match join.record branch outcome with
            | .error outcome => .done outcome
            | .ok join => gather engine request started channel next allowance join
          | .closed => failed (lost request join) request.base
          | .quiet => gather engine request started channel next allowance join

def fork (engine : Engine W S) (branch : Snapshot S → Program W (Outcome S)) (allowance : Nat)
    (request : ForkRequest S) (next : Snapshot S → Program W (Outcome S)) :
    Program W (Outcome S) :=
  let join := Join.start request.source request.targets.length engine.config.joinTimeout
  .time fun started =>
    match request.strategy with
    | .sequential =>
      inSequence branch request started (engine.conclude request · next) join request.targets
    | .parallel | .conditional =>
      .clock fun readings => engine.submit
        (fun taken => .launch taken
          (fun place target => branch (request.base.moveTo target (readings place)))
          fun channel =>
            engine.gather request started channel (engine.conclude request · next) allowance join)
        request.targets

/-- Drives a snapshot until it completes, suspends, fails or, as a branch, joins. `steps` counts the
nodes that this loop has executed. -/
def drive (engine : Engine W S) : (allowance : Nat) → Mode → (steps : Nat) → Snapshot S →
    Program W (Outcome S)
  | 0, _, _, _ => .exhausted
  | allowance + 1, mode, steps, snapshot =>
    match snapshot.currentNode with
    | none => failed .unpositioned snapshot
    | some current =>
      match guardFault engine.config (steps + 1) snapshot current with
      | some error => failed error snapshot
      | none =>
        match engine.topology.node? current with
        | none => failed (.nodeNotFound current) snapshot
        | some node =>
          engine.notify (.nodeStarted current snapshot) <|
            .perform (node.lifecycle engine.timers snapshot) fun
              | .error error => failed error snapshot
              | .ok command =>
                engine.notify (.nodeCompleted current snapshot command) <|
                  .clock fun readings =>
                    .ofAttempt (engine.apply mode current snapshot command readings) fun step =>
                      let proceed (next : Snapshot S) :=
                        engine.notify (.stateUpdated snapshot next)
                          (engine.drive allowance mode (steps + 1) next)
                      match step with
                      | .proceed next => proceed next
                      | .finish outcome => .done outcome
                      | .fork request =>
                        engine.fork (engine.drive allowance .branch 0) allowance request proceed

end FlowGraph.Engine
