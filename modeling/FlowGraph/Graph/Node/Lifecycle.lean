import FlowGraph.Graph.Node

/-!
The lifecycle of one execution: validation, the hook before, the processor, and then the hook after it or
the hook for errors. A panic in any stage ends the execution with a suspension.
-/

namespace FlowGraph.Node
variable {W S : Type}

def contain (panic : Panic) : Except Error (Command S) := .ok (.executionError panic.message)

/-- Runs a hook. A panic gives the result, and what comes next is left out. -/
def guarded {α : Type} (effect : Effect W (Attempt α))
    (next : α → Activity W (Except Error (Command S))) : Activity W (Except Error (Command S)) :=
  .call effect fun
    | .ok value => next value
    | .error panic => .done (contain panic)

def rejection (node : Node W S) (error : Error) : Error :=
  match error with
  | .stateValidation .. => error
  | _ => .stateValidation node.id error.message

def validated (node : Node W S) (snapshot : Snapshot S)
    (next : Activity W (Except Error (Command S))) : Activity W (Except Error (Command S)) :=
  match node.hooks.validate with
  | none => next
  | some validate =>
    guarded (validate snapshot) fun
      | .ok () => next
      | .error error => .done (.error (node.rejection error))

def prepared (node : Node W S) (snapshot : Snapshot S)
    (next : Activity W (Except Error (Command S))) : Activity W (Except Error (Command S)) :=
  match node.hooks.before with
  | none => next
  | some before => guarded (before snapshot) fun _ => next

def concluded (node : Node W S) (snapshot : Snapshot S) (reply : Except Error (Command S)) :
    Activity W (Except Error (Command S)) :=
  match reply with
  | .ok command =>
    match node.hooks.after with
    | none => .done (.ok command)
    | some after => guarded (after snapshot command) fun _ => .done (.ok command)
  | .error error =>
    match node.hooks.onError with
    | none => .done (.error error)
    | some onError => guarded (onError snapshot error) fun _ => .done (.error error)

/-- What the processor came to: its own reply, or the suspension for a panic. -/
inductive Reply (S : Type) where
  | given (reply : Except Error (Command S))
  | broken (panic : Panic)

def processed (timers : Option String) (node : Node W S) (snapshot : Snapshot S) :
    Activity W (Reply S) :=
  ((node.process snapshot).bind fun reply => .done (.given reply)).contained timers .broken

/-- One execution of the node on a snapshot. It never panics. -/
def lifecycle (timers : Option String) (node : Node W S) (snapshot : Snapshot S) :
    Activity W (Except Error (Command S)) :=
  node.validated snapshot <| node.prepared snapshot <|
    (node.processed timers snapshot).bind fun
      | .given reply => node.concluded snapshot reply
      | .broken panic => .done (contain panic)

end FlowGraph.Node
