import FlowGraph.Ident
import FlowGraph.Program.Effect
import FlowGraph.Time.Instant

/-!
Programs: what a run does, as a tree of its visible steps. A scheduler decides when each step happens;
the tree decides everything else.
-/

namespace FlowGraph

abbrev Readings := Nat → Instant

inductive Delivery (R : Type) where
  | report (branch : NodeId) (result : R)
  /-- No branch is left that could report. -/
  | closed
  /-- The interval has passed without a report. -/
  | quiet

inductive Program (W R : Type) : Type 1 where
  | done (result : R)
  | call {β : Type} (effect : Effect W β) (next : β → Program W R)
  | clock (next : Readings → Program W R)
  | sleep (millis : Nat) (next : Unit → Program W R)
  /-- Starts one program for each name; their results arrive on a new channel. -/
  | launch (names : List NodeId) (branch : (place : Nat) → NodeId → Program W R)
      (next : (channel : Nat) → Program W R)
  | receive (channel interval : Nat) (next : Delivery R → Program W R)
  | broken (panic : Panic)
  | never
  | exhausted

namespace Program
variable {W R α : Type}

def bind : Program W R → (R → Program W R) → Program W R
  | done result, next => next result
  | call effect rest, next => call effect fun value => (rest value).bind next
  | clock rest, next => clock fun readings => (rest readings).bind next
  | sleep millis rest, next => sleep millis fun _ => (rest ()).bind next
  | launch names branch rest, next => launch names branch fun channel => (rest channel).bind next
  | receive channel interval rest, next =>
    receive channel interval fun delivery => (rest delivery).bind next
  | broken panic, _ => broken panic
  | never, _ => never
  | exhausted, _ => exhausted

def perform : Activity W α → (α → Program W R) → Program W R
  | .done value, next => next value
  | .call effect rest, next => call effect fun value => perform (rest value) next
  | .sleep millis rest, next => sleep millis fun _ => perform (rest ()) next
  | .broken panic, _ => broken panic
  | .never, _ => never

def time (next : Nat → Program W R) : Program W R := call (fun time world => (time, world)) next

def ofAttempt (attempt : Attempt α) (next : α → Program W R) : Program W R :=
  match attempt with
  | .ok value => next value
  | .error panic => broken panic

end Program

end FlowGraph
