import FlowGraph.Engine.Drive
import FlowGraph.Proofs.Program.Agrees

/-!
One round of a fork that waits. In sequence it runs the next branch, takes up its outcome and looks at the clock.
On a channel it looks at the clock, listens, and takes up what it has been delivered.
-/

namespace FlowGraph.Engine
variable {W S : Type} {engine : Engine W S} {branch : Snapshot S → Program W (Outcome S)} {request : ForkRequest S}
  {join held : Join S} {target : NodeId} {outcome ending : Outcome S}

def lookingInTurn (branch : Snapshot S → Program W (Outcome S)) (request : ForkRequest S) (started : Nat)
    (next : Join S → Program W (Outcome S)) (join : Join S) (rest : List NodeId) (now : Nat) :
    Program W (Outcome S) :=
  match join.expired (now - started) with
  | some error => failed error request.base
  | none => inSequence branch request started next join rest

def heardInTurn (branch : Snapshot S → Program W (Outcome S)) (request : ForkRequest S) (started : Nat)
    (next : Join S → Program W (Outcome S)) (join : Join S) (target : NodeId) (rest : List NodeId)
    (outcome : Outcome S) : Program W (Outcome S) :=
  .unlessEnded (join.record target outcome) fun held =>
    .time (lookingInTurn branch request started next held rest)

theorem inSequence_runs (unsatisfied : join.isSatisfied = false) (branch : Snapshot S → Program W (Outcome S))
    (started : Nat) (next : Join S → Program W (Outcome S)) (target : NodeId) (rest : List NodeId) :
    inSequence branch request started next join (target :: rest) = .clock fun readings =>
      (branch (request.base.moveTo target (readings 0))).bind
        (heardInTurn branch request started next join target rest) := by
  simp only [inSequence, unsatisfied, Bool.false_eq_true, ↓reduceIte]
  refine congrArg Program.clock (funext fun readings => congrArg (Program.bind _) (funext fun outcome => ?_))
  simp only [heardInTurn]
  cases join.record target outcome <;> rfl

theorem heardInTurn_refused (refused : join.record target outcome = .error ending) (started : Nat)
    (next : Join S → Program W (Outcome S)) (rest : List NodeId) :
    heardInTurn branch request started next join target rest outcome = .done ending := by
  simp only [heardInTurn, refused]
  rfl

theorem heardInTurn_recorded (recorded : join.record target outcome = .ok held) (started : Nat)
    (next : Join S → Program W (Outcome S)) (rest : List NodeId) :
    heardInTurn branch request started next join target rest outcome =
      .time (lookingInTurn branch request started next held rest) := by
  simp only [heardInTurn, recorded]
  rfl

theorem lookingInTurn_unexpired {started now : Nat} (unexpired : join.expired (now - started) = none)
    (branch : Snapshot S → Program W (Outcome S)) (request : ForkRequest S) (next : Join S → Program W (Outcome S))
    (rest : List NodeId) :
    lookingInTurn branch request started next join rest now =
      inSequence branch request started next join rest := by
  simp only [lookingInTurn, unexpired]

theorem lookingInTurn_expired {started now : Nat} {error : Error}
    (expired : join.expired (now - started) = some error) (branch : Snapshot S → Program W (Outcome S))
    (request : ForkRequest S) (next : Join S → Program W (Outcome S)) (rest : List NodeId) :
    lookingInTurn branch request started next join rest now = failed error request.base := by
  simp only [lookingInTurn, expired]

def heard (request : ForkRequest S) (join : Join S) (collect : Join S → Program W (Outcome S)) :
    Delivery (Outcome S) → Program W (Outcome S)
  | .report branch outcome =>
    match join.record branch outcome with
    | .error outcome => .done outcome
    | .ok join => collect join
  | .closed => failed (lost request join) request.base
  | .quiet => collect join

def listening (engine : Engine W S) (request : ForkRequest S) (started channel : Nat) (join : Join S)
    (collect : Join S → Program W (Outcome S)) (now : Nat) : Program W (Outcome S) :=
  match join.expired (now - started) with
  | some error => failed error request.base
  | none => .receive channel engine.config.pollInterval (heard request join collect)

theorem gather_waiting (timers : engine.timers = none) (request : ForkRequest S) (started channel : Nat)
    (next : Join S → Program W (Outcome S)) (allowance : Nat) {join : Join S}
    (waits : join.isSatisfied = false) :
    engine.gather request started channel next (allowance + 1) join =
      .time (engine.listening request started channel join
        (engine.gather request started channel next allowance)) := by
  simp only [gather, waits, timers, Bool.false_eq_true, ↓reduceIte]
  rfl

theorem gather_satisfied (satisfied : join.isSatisfied = true) (engine : Engine W S) (request : ForkRequest S)
    (started channel : Nat) (next : Join S → Program W (Outcome S)) (allowance : Nat) :
    engine.gather request started channel next (allowance + 1) join = next join := by
  rw [gather, if_pos satisfied]

theorem listening_expired {started now : Nat} {error : Error}
    (expired : join.expired (now - started) = some error) (engine : Engine W S) (request : ForkRequest S)
    (channel : Nat) (collect : Join S → Program W (Outcome S)) :
    engine.listening request started channel join collect now = failed error request.base := by
  simp only [listening, expired]

theorem listening_unexpired {started now : Nat} (unexpired : join.expired (now - started) = none)
    (engine : Engine W S) (request : ForkRequest S) (channel : Nat) (collect : Join S → Program W (Outcome S)) :
    engine.listening request started channel join collect now =
      .receive channel engine.config.pollInterval (heard request join collect) := by
  simp only [listening, unexpired]

theorem heard_report (request : ForkRequest S) (join : Join S) (collect : Join S → Program W (Outcome S))
    (target : NodeId) (outcome : Outcome S) :
    heard request join collect (.report target outcome) = .unlessEnded (join.record target outcome) collect := by
  simp only [heard]
  cases join.record target outcome <;> rfl

theorem heard_refused (refused : join.record target outcome = .error ending) (request : ForkRequest S)
    (collect : Join S → Program W (Outcome S)) :
    heard request join collect (.report target outcome) = .done ending := by
  simp only [heard, refused]

theorem heard_recorded (recorded : join.record target outcome = .ok held) (request : ForkRequest S)
    (collect : Join S → Program W (Outcome S)) :
    heard request join collect (.report target outcome) = collect held := by
  simp only [heard, recorded]

end FlowGraph.Engine
