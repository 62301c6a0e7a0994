import FlowGraph.Program.Attempt

/-!
Effects and activities. An effect is a supplied function that may look at the time and change the world
around the engine; the world is a parameter of the whole library. An activity also takes time.
-/

namespace FlowGraph

/-- Times are milliseconds since the run began. -/
abbrev Effect (W α : Type) := (time : Nat) → W → α × W

namespace Effect
variable {W α β : Type}

def pure (value : α) : Effect W α := fun _ world => (value, world)

def map (f : α → β) (effect : Effect W α) : Effect W β := fun time world =>
  let (value, world) := effect time world
  (f value, world)

def andThen (first : Effect W α) (next : α → Effect W β) : Effect W β := fun time world =>
  let (value, world) := first time world
  next value time world

def change (f : Nat → W → W) : Effect W Unit := fun time world => ((), f time world)

def each (act : α → Effect W Unit) : List α → Effect W Unit
  | [] => pure ()
  | value :: rest => andThen (act value) fun _ => each act rest

end Effect

inductive Activity (W α : Type) : Type 1 where
  | done (value : α)
  | call {β : Type} (effect : Effect W β) (next : β → Activity W α)
  | sleep (millis : Nat) (next : Unit → Activity W α)
  | broken (panic : Panic)
  | never

namespace Activity
variable {W α β : Type}

def bind : Activity W α → (α → Activity W β) → Activity W β
  | done value, next => next value
  | call effect rest, next => call effect fun value => (rest value).bind next
  | sleep millis rest, next => sleep millis fun _ => (rest ()).bind next
  | broken panic, _ => broken panic
  | never, _ => never

def attempt (effect : Effect W (Attempt α)) : Activity W α :=
  call effect fun
    | .ok value => done value
    | .error panic => broken panic

/-- Gives a value in place of a panic. Without timers, sleeping is a panic with the given text. -/
def contained (timers : Option String) (replace : Panic → α) : Activity W α → Activity W α
  | done value => done value
  | call effect next => call effect fun value => (next value).contained timers replace
  | sleep millis next =>
    match timers with
    | none => sleep millis fun _ => (next ()).contained timers replace
    | some text => done (replace (.text text))
  | broken panic => done (replace panic)
  | never => never

/-- The end of an activity that is left alone: its value, the time and the world. -/
def perform : Activity W α → Nat → W → Option (Attempt α × Nat × W)
  | done value, time, world => some (.ok value, time, world)
  | call effect next, time, world =>
    let (value, world) := effect time world
    (next value).perform time world
  | sleep millis next, time, world => (next ()).perform (time + millis) world
  | broken panic, time, world => some (.error panic, time, world)
  | never, _, _ => none

end Activity

end FlowGraph
