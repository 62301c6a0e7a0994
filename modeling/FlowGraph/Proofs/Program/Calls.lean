import FlowGraph.Graph.Node.Lifecycle
import FlowGraph.Proofs.Program.Follows

/-!
What supplied functions may do to the world, and what follows for those that call them. If all calls of a
processor and of the hooks are good, then so are all calls of an execution of the node.
-/

namespace FlowGraph

namespace Effect
variable {W α : Type}

/-- In worlds that look the same the effect gives the same value, and they go on looking the same. -/
def Respects (same : W → W → Prop) (effect : Effect W α) : Prop := effect.Alike same effect

/-- The effect leaves the world looking the same as before. -/
def Hidden (same : W → W → Prop) (effect : Effect W α) : Prop :=
  ∀ time world, same world (effect time world).2

variable {β : Type} {same : W → W → Prop}

theorem Hidden.map {effect : Effect W α} (hidden : effect.Hidden same) (f : α → β) :
    (effect.map f).Hidden same := hidden

theorem Hidden.andThen (equivalence : Equivalence same) {effect : Effect W α} {next : α → Effect W β}
    (hidden : effect.Hidden same) (rest : ∀ value, (next value).Hidden same) :
    (effect.andThen next).Hidden same :=
  fun time world => equivalence.trans (hidden time world) (rest _ time _)

theorem Hidden.alike (equivalence : Equivalence same) {effect other : Effect W Unit} (hidden : effect.Hidden same)
    (otherHidden : other.Hidden same) : effect.Alike same other := by
  intro time world view looks
  exact ⟨rfl, equivalence.trans (equivalence.symm (hidden time world))
    (equivalence.trans looks (otherHidden time view))⟩

end Effect

namespace Activity
variable {W α β : Type}

def Calls (good : ∀ {γ : Type}, Effect W γ → Prop) : Activity W α → Prop
  | done _ => True
  | call effect next => good effect ∧ ∀ value, effect.Gives value → (next value).Calls good
  | sleep _ next => (next ()).Calls good
  | broken _ => True
  | never => True

variable {good : ∀ {γ : Type}, Effect W γ → Prop}

theorem Calls.bind {activity : Activity W α} {next : α → Activity W β} (first : activity.Calls good)
    (rest : ∀ value, (next value).Calls good) : (activity.bind next).Calls good := by
  induction activity with
  | done value => exact rest value
  | call effect _ ih => exact ⟨first.1, fun value gives => ih value (first.2 value gives)⟩
  | sleep millis _ ih => exact ih () first
  | broken panic => trivial
  | never => trivial

theorem Calls.contained {activity : Activity W α} (calls : activity.Calls good) (timers : Option String)
    (replace : Panic → α) : (activity.contained timers replace).Calls good := by
  induction activity with
  | done value => trivial
  | call effect _ ih => exact ⟨calls.1, fun value gives => ih value (calls.2 value gives)⟩
  | sleep millis _ ih =>
      cases timers with
      | none => exact ih () calls
      | some text => trivial
  | broken panic => trivial
  | never => trivial

theorem Calls.follows {same : W → W → Prop} {activity : Activity W α}
    (calls : activity.Calls (Effect.Respects same)) :
    activity.Follows none same activity.MayEnd activity := by
  induction activity with
  | done value => exact .done rfl
  | call effect _ ih =>
      refine .call calls.1 fun value gives => ?_
      exact (ih value (calls.2 value gives)).mono fun _ may => ⟨value, gives, may⟩
  | sleep millis _ ih => exact .sleep (ih () calls)
  | broken panic => exact .broken rfl
  | never => exact .never rfl

end Activity

namespace Node
variable {W S : Type}

structure Calls (good : ∀ {γ : Type}, Effect W γ → Prop) (node : Node W S) : Prop where
  process : ∀ snapshot, (node.process snapshot).Calls good
  validate : ∀ hook, node.hooks.validate = some hook → ∀ snapshot, good (hook snapshot)
  before : ∀ hook, node.hooks.before = some hook → ∀ snapshot, good (hook snapshot)
  after : ∀ hook, node.hooks.after = some hook → ∀ snapshot command, good (hook snapshot command)
  onError : ∀ hook, node.hooks.onError = some hook → ∀ snapshot error, good (hook snapshot error)

variable {good : ∀ {γ : Type}, Effect W γ → Prop} {node : Node W S} {snapshot : Snapshot S}

theorem guarded_calls {α : Type} {effect : Effect W (Attempt α)}
    {next : α → Activity W (Except Error (Command S))} (first : good effect)
    (rest : ∀ value, (next value).Calls good) : (guarded effect next).Calls good := by
  refine ⟨first, fun answer _ => ?_⟩
  cases answer with
  | ok value => exact rest value
  | error panic => trivial

theorem Calls.validated (calls : node.Calls good) {next : Activity W (Except Error (Command S))}
    (rest : next.Calls good) : (node.validated snapshot next).Calls good := by
  unfold Node.validated
  split
  · exact rest
  · rename_i hook given
    refine guarded_calls (calls.validate hook given snapshot) ?_
    rintro (error | _)
    · trivial
    · exact rest

theorem Calls.prepared (calls : node.Calls good) {next : Activity W (Except Error (Command S))}
    (rest : next.Calls good) : (node.prepared snapshot next).Calls good := by
  unfold Node.prepared
  split
  · exact rest
  · rename_i hook given
    exact guarded_calls (calls.before hook given snapshot) fun _ => rest

theorem Calls.concluded (calls : node.Calls good) (reply : Except Error (Command S)) :
    (node.concluded snapshot reply).Calls good := by
  unfold Node.concluded
  cases reply with
  | ok command =>
      simp only
      split
      · trivial
      · rename_i hook given
        exact guarded_calls (calls.after hook given snapshot command) fun _ => trivial
  | error error =>
      simp only
      split
      · trivial
      · rename_i hook given
        exact guarded_calls (calls.onError hook given snapshot error) fun _ => trivial

theorem Calls.lifecycle (calls : node.Calls good) (timers : Option String) (snapshot : Snapshot S) :
    (node.lifecycle timers snapshot).Calls good := by
  have replies : ((node.process snapshot).bind fun reply => .done (Reply.given reply)).Calls good :=
    (calls.process snapshot).bind fun _ => trivial
  refine calls.validated (calls.prepared ((replies.contained timers Reply.broken).bind ?_))
  rintro (reply | panic)
  · exact calls.concluded reply
  · trivial

end Node
end FlowGraph
