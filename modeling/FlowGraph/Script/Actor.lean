import FlowGraph.Graph.Node
import FlowGraph.Script.Stage

/-! Nodes and hooks that act as their script tells them to. The payload of a scripted workflow is JSON. -/

namespace FlowGraph.Script

inductive Predicate where
  | const (value : Bool)
  | dataEquals (value : Json)
  | dataAbove (threshold : Binary64)
  | visitedAtLeast (node : NodeId) (count : Nat)
  | standsAt (node : NodeId)
  | depthAtLeast (depth : Nat)
  | versionAtLeast (version : Nat)
  | panics (panic : Panic)

def Predicate.holds (predicate : Predicate) (snapshot : Snapshot Json) : Attempt Bool :=
  match predicate with
  | const value => pure value
  | dataEquals value => pure (snapshot.data.same value)
  | dataAbove threshold => pure (snapshot.data.toFloat?.any threshold.lt)
  | visitedAtLeast node count => pure (count ≤ snapshot.visitCount node)
  | standsAt node => pure (snapshot.currentNode = some node)
  | depthAtLeast depth => pure (depth ≤ snapshot.depth)
  | versionAtLeast version => pure (version ≤ snapshot.version)
  | panics panic => .error panic

inductive PayloadRule where
  | literal (value : Json)
  | append (item : Json)
  | add (amount : Int)

def PayloadRule.apply (rule : PayloadRule) (current : Json) : Json :=
  match rule, current with
  | literal value, _ => value
  | append item, .array items => .array (items ++ [item])
  | append item, _ => .array [item]
  | add amount, .int value => .int (if value < 0x8000000000000000 then value + amount else amount)
  | add amount, _ => .int amount

/-- A command that is made when it is needed: a first form and amendments in order. -/
structure Recipe where
  base : Except Error (Command Json)
  amendments : List (Json → Command Json → Except Error (Command Json))

def Recipe.make (recipe : Recipe) (payload : Json) : Except Error (Command Json) := do
  recipe.amendments.foldlM (fun command amend => amend payload command) (← recipe.base)

inductive Act where
  | choose (condition : Except Error (Condition Json)) (yes no : Act)
  | collapse (panic : Panic)
  | fail (error : Error)
  | command (recipe : Recipe)

def Act.reply : Act → Snapshot Json → Attempt (Except Error (Command Json))
  | choose condition yes no, snapshot =>
    match condition with
    | .error error => pure (.error error)
    | .ok condition => do
      if ← condition.evaluate snapshot then yes.reply snapshot else no.reply snapshot
  | collapse panic, _ => .error panic
  | fail error, _ => pure (.error error)
  | command recipe, snapshot => pure (recipe.make snapshot.data)

def entryOrLast {α : Type} (entries : List α) (place : Nat) : Option α :=
  entries[min place (entries.length - 1)]?

abbrev Processor := Snapshot Json → Activity Stage (Except Error (Command Json))

def playing (name : String) (delays : List Nat) (acts : List Act) : Processor := fun snapshot =>
  .call (Stage.countCall name) fun place =>
    let play (_ : Unit) : Activity Stage (Except Error (Command Json)) :=
      match entryOrLast acts place with
      | some act => .attempt (.pure (act.reply snapshot))
      | none => .done (.ok .complete)
    match (entryOrLast delays place).getD 0 with
    | 0 => play ()
    | delay + 1 => .sleep (delay + 1) play

def replaying (name : String) (delay : Nat) (replies : List (Except Error (Command Json))) :
    Processor := fun _ =>
  .call (Stage.countReplay name) fun place =>
    let reply := (replies[place]?).getD (.ok .complete)
    if delay = 0 then .done reply else .sleep delay fun _ => .done reply

def answering (reply : Except Error (Command Json)) : Processor := fun _ => .done reply

def panicking (panic : Panic) : Processor := fun _ => .broken panic

def hook (line : String) (panic : Option Panic) : Effect Stage (Attempt Unit) :=
  (Stage.write ("hook " ++ line)).map fun _ =>
    match panic with
    | some panic => .error panic
    | none => .ok ()

structure Validation where
  panic : Option Panic
  rejection : Option Error
  exception : Option (Except Error (Condition Json))

def Validation.verdict (validation : Validation) (snapshot : Snapshot Json) :
    Attempt (Except Error Unit) :=
  match validation.rejection, validation.exception with
  | none, _ => pure (.ok ())
  | some error, none => pure (.error error)
  | some _, some (.error fault) => pure (.error fault)
  | some error, some (.ok condition) => do
    pure (if ← condition.evaluate snapshot then .ok () else .error error)

def Validation.hook (validation : Validation) (id : NodeId) (snapshot : Snapshot Json) :
    Effect Stage (Attempt (Except Error Unit)) :=
  (Script.hook ("validate " ++ id.text) validation.panic).map fun attempt => do
    attempt
    validation.verdict snapshot

def versioned (stage : String) (id : NodeId) (snapshot : Snapshot Json) : String :=
  stage ++ " " ++ id.text ++ " v" ++ toString snapshot.version

def hooks (id : NodeId) (validate : Option Validation) (before after onError : Option (Option Panic)) :
    Hooks Stage Json where
  validate := validate.map fun validation => validation.hook id
  before := before.map fun panic snapshot => hook (versioned "before" id snapshot) panic
  after := after.map fun panic snapshot command =>
    hook (versioned "after" id snapshot ++ " " ++ command.kind) panic
  onError := onError.map fun panic snapshot error =>
    hook (versioned "on_error" id snapshot ++ " " ++ error.kind) panic

end FlowGraph.Script
