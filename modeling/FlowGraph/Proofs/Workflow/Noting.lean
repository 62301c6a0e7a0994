import FlowGraph.Proofs.Workflow.Mirrors

/-!
Runs with a record of what their observer is told and their merger is asked for. The record stands beside the
world, where no part of the workflow sees it, so the run is the same; and by what loops may come to, what is
recorded is honest.
-/

namespace FlowGraph

section
variable {W α : Type} (N : Type)

def Effect.beside (effect : Effect W α) : Effect (W × N) α := fun time world =>
  ((effect time world.1).1, (effect time world.1).2, world.2)

/-- Does the same and adds a note to those beside the world. -/
def Effect.noting {N : Type} (effect : Effect W α) (note : N) : Effect (W × List N) α := fun time world =>
  ((effect time world.1).1, (effect time world.1).2, world.2 ++ [note])

def Activity.beside : Activity W α → Activity (W × N) α
  | .done value => .done value
  | .call effect next => .call (effect.beside N) fun value => (next value).beside
  | .sleep millis next => .sleep millis fun _ => (next ()).beside
  | .broken panic => .broken panic
  | .never => .never

end

section
variable {W N α β : Type}

/-- The world is the same, and what stands beside it is good. -/
def Beside (good : N → Prop) (world : W × N) (view : W) : Prop := world.1 = view ∧ good world.2

theorem Effect.beside_alike (good : N → Prop) (effect : Effect W α) :
    (effect.beside N).Alike (Beside good) effect := by
  rintro time ⟨world, notes⟩ _ ⟨rfl, holds⟩
  exact ⟨rfl, rfl, holds⟩

theorem Effect.noting_alike {good : N → Prop} (effect : Effect W α) {note : N} (honest : good note) :
    (effect.noting note).Alike (Beside fun notes => ∀ note ∈ notes, good note) effect := by
  rintro time ⟨world, notes⟩ _ ⟨rfl, holds⟩
  refine ⟨rfl, rfl, fun other member => ?_⟩
  rcases List.mem_append.mp member with old | new
  · exact holds other old
  · rwa [List.mem_singleton.mp new]

theorem Effect.gives_of_beside {effect : Effect W α} {value : α} (gives : (effect.beside N).Gives value) :
    effect.Gives value := by
  obtain ⟨time, world, same⟩ := gives
  exact ⟨time, world.1, same⟩

theorem Effect.gives_of_noting {effect : Effect W α} {note : N} {value : α}
    (gives : (effect.noting note).Gives value) : effect.Gives value := by
  obtain ⟨time, world, same⟩ := gives
  exact ⟨time, world.1, same⟩

namespace Activity

theorem beside_follows (good : N → Prop) (activity : Activity W α) :
    (activity.beside N).Follows none (Beside good) activity.MayEnd activity := by
  induction activity with
  | done value => exact .done rfl
  | call effect next ih =>
      refine .call (effect.beside_alike good) fun value gives => ?_
      exact (ih value).mono fun _ may => ⟨value, gives, may⟩
  | sleep millis next ih => exact .sleep (ih ())
  | broken panic => exact .broken rfl
  | never => exact .never rfl

theorem Returns.beside {activity : Activity W α} (returns : activity.Returns) :
    (activity.beside N).Returns := by
  induction activity with
  | done value => trivial
  | call effect next ih => exact fun value gives => ih value (returns value (Effect.gives_of_beside gives))
  | sleep millis next ih => exact ih () returns
  | broken panic => trivial
  | never => exact returns

theorem beside_bind (activity : Activity W α) (next : α → Activity W β) :
    (activity.bind next).beside N = (activity.beside N).bind fun value => (next value).beside N := by
  induction activity with
  | done value => rfl
  | call effect rest ih => simp only [bind, beside, ih]
  | sleep millis rest ih => simp only [bind, beside, ih]
  | broken panic => rfl
  | never => rfl

theorem beside_contained (timers : Option String) (replace : Panic → α) (activity : Activity W α) :
    (activity.contained timers replace).beside N = (activity.beside N).contained timers replace := by
  induction activity with
  | done value => rfl
  | call effect rest ih => simp only [contained, beside, ih]
  | sleep millis rest ih =>
      cases timers with
      | none => simp only [contained, beside, ih]
      | some text => rfl
  | broken panic => rfl
  | never => rfl

end Activity
end

section
variable {W S O : Type} (N : Type)

def Hooks.beside (hooks : Hooks W S) : Hooks (W × N) S where
  validate := hooks.validate.map fun validate snapshot => (validate snapshot).beside N
  before := hooks.before.map fun before snapshot => (before snapshot).beside N
  after := hooks.after.map fun after snapshot command => (after snapshot command).beside N
  onError := hooks.onError.map fun onError snapshot error => (onError snapshot error).beside N

def Node.beside (node : Node W S) : Node (W × N) S where
  id := node.id
  metadata := node.metadata
  process := fun snapshot => (node.process snapshot).beside N
  hooks := node.hooks.beside N

def Topology.beside (topology : Topology W S) : Topology (W × N) S :=
  { topology with nodes := topology.nodes.map (Node.beside N) }

end

section
variable {W S O : Type}

/-- The same engine, which writes down every notice and every merge. -/
def Engine.noting (engine : Engine W S) : Engine (W × List (Note S)) S where
  topology := engine.topology.beside (List (Note S))
  observer := fun notice => (engine.observer notice).noting (.told notice)
  executor := engine.executor.beside (List (Note S))
  merger := fun base joined => (engine.merger base joined).noting (.merges base joined)
  config := engine.config
  timers := engine.timers

def Workflow.noting (workflow : Workflow W S O) : Workflow (W × List (Note S)) S O where
  name := workflow.name
  engine := workflow.engine.noting
  extractor := fun snapshot => (workflow.extractor snapshot).beside (List (Note S))
  ids := fun kind => (workflow.ids kind).beside (List (Note S))
  config := workflow.config

/-- What was noted in the first rounds of a run, in order. -/
def Workflow.notes (workflow : Workflow W S O) (attached : Bool) (clock : Nat → Readings) (allowance : Nat)
    (request : Request S) (world : W) (rounds : Nat) : List (Note S) :=
  (workflow.noting.machineAfter attached clock allowance request (world, []) rounds).world.2

end

namespace Node
variable {W S N : Type}

theorem guarded_beside {α : Type} (effect : Effect W (Attempt α))
    (next : α → Activity W (Except Error (Command S))) :
    (guarded effect next).beside N = guarded (effect.beside N) fun value => (next value).beside N := by
  simp only [guarded, Activity.beside]
  congr 1
  funext answer
  cases answer <;> rfl

theorem validated_beside (node : Node W S) (snapshot : Snapshot S)
    (next : Activity W (Except Error (Command S))) :
    (node.validated snapshot next).beside N = (node.beside N).validated snapshot (next.beside N) := by
  cases hook : node.hooks.validate with
  | none => simp only [validated, beside, Hooks.beside, hook, Option.map_none]
  | some validate =>
      simp only [validated, beside, Hooks.beside, hook, Option.map_some, guarded_beside]
      congr 1
      funext verdict
      cases verdict <;> rfl

theorem prepared_beside (node : Node W S) (snapshot : Snapshot S)
    (next : Activity W (Except Error (Command S))) :
    (node.prepared snapshot next).beside N = (node.beside N).prepared snapshot (next.beside N) := by
  cases hook : node.hooks.before with
  | none => simp only [prepared, beside, Hooks.beside, hook, Option.map_none]
  | some before => simp only [prepared, beside, Hooks.beside, hook, Option.map_some, guarded_beside]

theorem concluded_beside (node : Node W S) (snapshot : Snapshot S) (reply : Except Error (Command S)) :
    (node.concluded snapshot reply).beside N = (node.beside N).concluded snapshot reply := by
  cases reply with
  | ok command =>
      cases hook : node.hooks.after with
      | none => simp only [concluded, beside, Hooks.beside, hook, Option.map_none]; rfl
      | some after =>
          simp only [concluded, beside, Hooks.beside, hook, Option.map_some, guarded_beside]; rfl
  | error error =>
      cases hook : node.hooks.onError with
      | none => simp only [concluded, beside, Hooks.beside, hook, Option.map_none]; rfl
      | some onError =>
          simp only [concluded, beside, Hooks.beside, hook, Option.map_some, guarded_beside]; rfl

theorem lifecycle_beside (timers : Option String) (node : Node W S) (snapshot : Snapshot S) :
    (node.lifecycle timers snapshot).beside N = (node.beside N).lifecycle timers snapshot := by
  simp only [lifecycle, processed, validated_beside, prepared_beside, Activity.beside_bind,
    Activity.beside_contained]
  congr 3
  funext reply
  cases reply with
  | given reply => exact node.concluded_beside snapshot reply
  | broken panic => rfl

theorem Returns.beside {node : Node W S} (returns : node.Returns) : (node.beside N).Returns :=
  fun snapshot => (returns snapshot).beside

end Node

section
variable {W S O : Type}

def Engine.AllHonest (engine : Engine W S) (notes : List (Note S)) : Prop := ∀ note ∈ notes, engine.Honest note

theorem Topology.node?_beside {N : Type} (topology : Topology W S) (id : NodeId) :
    (topology.beside N).node? id = (topology.node? id).map (Node.beside N) := by
  simp only [node?, beside]
  cases topology.places.get? id with
  | none => rfl
  | some place => simp

theorem Engine.node?_noting (engine : Engine W S) (id : NodeId) :
    engine.noting.topology.node? id = (engine.topology.node? id).map (Node.beside (List (Note S))) :=
  engine.topology.node?_beside id

/-- What a step does depends on the edges, on which nodes there are, and on the configuration. -/
theorem Engine.apply_congr {engine : Engine W S} {other : Engine V S}
    (contains : ∀ id, engine.topology.contains id = other.topology.contains id)
    (between : ∀ source target, engine.topology.edgesBetween source target =
      other.topology.edgesBetween source target)
    (config : engine.config = other.config) (mode : Mode) (current : NodeId) (snapshot : Snapshot S)
    (command : Command S) (readings : Readings) :
    engine.apply mode current snapshot command readings = other.apply mode current snapshot command readings := by
  have faults (targets : List NodeId) : engine.forkFault current targets = other.forkFault current targets := by
    induction targets with
    | nil => rfl
    | cons target rest ih => simp only [forkFault, contains, between, ih]
  have selects (target : NodeId) : engine.selectEdge current snapshot target =
      other.selectEdge current snapshot target := by
    simp only [selectEdge, contains, between, config]
  simp only [apply, faults, traverse, selects, contains]

theorem Engine.apply_noting (engine : Engine W S) (mode : Mode) (current : NodeId) (snapshot : Snapshot S)
    (command : Command S) (readings : Readings) :
    engine.noting.apply mode current snapshot command readings =
      engine.apply mode current snapshot command readings := by
  refine apply_congr ?_ ?_ ?_ mode current snapshot command readings
  · exact fun _ => rfl
  · exact fun _ _ => rfl
  · rfl

theorem Engine.lifecycle_noting (engine : Engine W S) (node : Node W S) (snapshot : Snapshot S) :
    (node.beside (List (Note S))).lifecycle engine.noting.timers snapshot =
      (node.lifecycle engine.timers snapshot).beside (List (Note S)) :=
  (node.lifecycle_beside engine.timers snapshot).symm

theorem Engine.noting_mirrors (engine : Engine W S) :
    engine.noting.Mirrors none (Beside engine.AllHonest) engine where
  config := rfl
  timers := rfl
  apply := engine.apply_noting
  nodes id := by
    rw [engine.node?_noting]
    cases engine.topology.node? id with
    | none => exact .none
    | some node =>
        refine .some fun snapshot => ?_
        rw [← Node.lifecycle_beside]
        exact Activity.beside_follows _ _
  observer notice honest := (engine.observer notice).noting_alike honest
  executor := Effect.beside_alike _ _
  merger base joined honest := (engine.merger base joined).noting_alike honest

variable (workflow : Workflow W S O)

theorem Workflow.noting_mirrors : workflow.noting.Mirrors (Beside workflow.engine.AllHonest) workflow where
  engine := workflow.engine.noting_mirrors
  ids _ := Effect.beside_alike _ _
  extractor _ := Effect.beside_alike _ _
  config := rfl
  entry := rfl
  contains _ := rfl

variable {workflow} {attached : Bool} {clock : Nat → Readings} {allowance : Nat} {request : Request S}
  {world : W} {rounds : Nat}

theorem Workflow.entry_noting (notes : List (Note S)) :
    request.entry workflow.noting clock (world, notes) = request.entry workflow clock world := by
  cases request <;> rfl

theorem Workflow.noting_beside (workflow : Workflow W S O) (attached : Bool) (clock : Nat → Readings)
    (allowance : Nat) (request : Request S) (world : W) (rounds : Nat) :
    Beside workflow.engine.AllHonest
      (workflow.noting.machineAfter attached clock allowance request (world, []) rounds).world
      (workflow.machineAfter attached clock allowance request world rounds).world := by
  have starts : Beside workflow.engine.AllHonest (world, []) world := ⟨rfl, by simp [Engine.AllHonest]⟩
  exact workflow.noting_mirrors.related_after attached clock allowance request starts rounds

theorem Workflow.honest_of_noted {note : Note S}
    (noted : note ∈ workflow.notes attached clock allowance request world rounds) : workflow.engine.Honest note :=
  (workflow.noting_beside attached clock allowance request world rounds).2 note noted

end
end FlowGraph
