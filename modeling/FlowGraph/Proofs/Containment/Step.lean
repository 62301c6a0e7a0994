import FlowGraph.Engine.Step
import FlowGraph.Graph.Node.Lifecycle
import FlowGraph.Proofs.Program.Yields
import FlowGraph.Proofs.Snapshot.Updates

/-!
What an execution of a node and the step after it do with panics. Hooks and the processor are called where
a panic turns into a suspension. The step itself panics only if a condition does that it looks at.
-/

namespace FlowGraph

inductive ConditionPlace where
  | edge
  | move
  | branch

section
variable {W S : Type}

/-- The conditions that the engine looks at to carry out a command. -/
def Command.conditions (command : Command S) : List (ConditionPlace × Condition S) :=
  match command.action with
  | .traverse _ (some condition) _ => [(.move, condition)]
  | .fork _ .conditional conditions _ => conditions.entries.map fun entry => (.branch, entry.2)
  | _ => []

def Command.Within (allowed : ConditionPlace → Condition S → Prop) (command : Command S) : Prop :=
  ∀ entry ∈ command.conditions, allowed entry.1 entry.2

/-- A command that is answered has allowed conditions only; errors and panics may be answered as well. -/
def Command.AnsweredWithin (allowed : ConditionPlace → Condition S → Prop) :
    Attempt (Except Error (Command S)) → Prop
  | .ok (.ok command) => command.Within allowed
  | _ => True

def Node.Within (allowed : ConditionPlace → Condition S → Prop) (node : Node W S) : Prop :=
  ∀ snapshot, (node.process snapshot).Yields (Command.AnsweredWithin allowed)

/-- The conditions give an answer for every snapshot that has a position. -/
def NeverPanic (allowed : ConditionPlace → Condition S → Prop) : Prop :=
  ∀ place condition, allowed place condition → ∀ snapshot : Snapshot S, snapshot.position.isSome →
    ∃ answer, condition.evaluate snapshot = .ok answer

end

namespace Node
variable {W S : Type} {allowed : ConditionPlace → Condition S → Prop}

def Answers (allowed : ConditionPlace → Condition S → Prop) :
    Attempt (Except Error (Command S)) → Prop
  | .ok (.ok command) => command.Within allowed
  | .ok (.error _) => True
  | .error _ => False

theorem answers_contain (panic : Panic) : Answers allowed (.ok (contain panic)) := by
  intro entry member
  cases member

theorem guarded_answers {α : Type} {effect : Effect W (Attempt α)}
    {next : α → Activity W (Except Error (Command S))}
    (answers : ∀ value, (next value).Yields (Answers allowed)) :
    (guarded effect next).Yields (Answers allowed) := by
  intro time world
  cases (effect time world).1 with
  | ok value => exact answers value
  | error panic => exact answers_contain panic

theorem validated_answers (node : Node W S) (snapshot : Snapshot S)
    {next : Activity W (Except Error (Command S))} (answers : next.Yields (Answers allowed)) :
    (node.validated snapshot next).Yields (Answers allowed) := by
  unfold validated
  split
  · exact answers
  · apply guarded_answers
    intro verdict
    cases verdict with
    | ok _ => exact answers
    | error error => trivial

theorem prepared_answers (node : Node W S) (snapshot : Snapshot S)
    {next : Activity W (Except Error (Command S))} (answers : next.Yields (Answers allowed)) :
    (node.prepared snapshot next).Yields (Answers allowed) := by
  unfold prepared
  split
  · exact answers
  · exact guarded_answers fun _ => answers

theorem concluded_answers (node : Node W S) (snapshot : Snapshot S)
    {reply : Except Error (Command S)} (answers : Answers allowed (.ok reply)) :
    (node.concluded snapshot reply).Yields (Answers allowed) := by
  unfold concluded
  cases reply with
  | ok command =>
      simp only
      split
      · exact answers
      · exact guarded_answers fun _ => answers
  | error error =>
      simp only
      split
      · trivial
      · exact guarded_answers fun _ => trivial

def Replies (allowed : ConditionPlace → Condition S → Prop) : Attempt (Reply S) → Prop
  | .ok (.given reply) => Answers allowed (.ok reply)
  | .ok (.broken _) => True
  | .error _ => False

theorem processed_replies (timers : Option String) {node : Node W S} (within : node.Within allowed)
    (snapshot : Snapshot S) : (node.processed timers snapshot).Yields (Replies allowed) := by
  refine Activity.Yields.contained (fun _ => trivial) (Activity.Yields.bind ?_)
  refine (within snapshot).mono ?_
  rintro (panic | error | command) answers
  · trivial
  · trivial
  · exact answers

theorem lifecycle_answers (timers : Option String) {node : Node W S} (within : node.Within allowed)
    (snapshot : Snapshot S) : (node.lifecycle timers snapshot).Yields (Answers allowed) := by
  refine node.validated_answers snapshot (node.prepared_answers snapshot (Activity.Yields.bind ?_))
  refine (processed_replies timers within snapshot).mono ?_
  rintro (panic | reply | panic) answers
  · exact answers
  · exact node.concluded_answers snapshot answers
  · exact answers_contain panic

end Node

section
variable {α β : Type}

def Attempt.Succeeds (attempt : Attempt α) : Prop := ∃ value, attempt = .ok value

theorem Attempt.succeeds_pure (value : α) : Attempt.Succeeds (pure value) := ⟨value, rfl⟩

theorem Attempt.Succeeds.bind {attempt : Attempt α} {next : α → Attempt β}
    (first : attempt.Succeeds) (rest : ∀ value, (next value).Succeeds) :
    Attempt.Succeeds (attempt >>= next) := by
  obtain ⟨value, rfl⟩ := first
  exact rest value

end

namespace Topology
variable {W S : Type}

theorem mem_nodes_of_node? {topology : Topology W S} {id : NodeId} {node : Node W S}
    (found : topology.node? id = some node) : node ∈ topology.nodes := by
  obtain ⟨place, _, at_place⟩ := Option.bind_eq_some_iff.mp found
  exact List.mem_of_getElem? at_place

theorem mem_edges_of_edgesBetween {topology : Topology W S} {source target : NodeId} {edge : Edge S}
    (member : edge ∈ topology.edgesBetween source target) : edge ∈ topology.edges := by
  have leaving := (List.mem_filter.mp member).1
  obtain ⟨place, _, at_place⟩ := List.mem_filterMap.mp leaving
  exact List.mem_of_getElem? at_place

end Topology

theorem Dict.mem_entries_of_get? {κ α : Type} [Key κ] {table : Dict κ α} {key : κ} {value : α}
    (found : table.get? key = some value) : ∃ entry ∈ table.entries, entry.2 = value := by
  obtain ⟨entry, first, same⟩ := Option.map_eq_some_iff.mp found
  exact ⟨entry, List.mem_of_find?_eq_some first, same⟩

namespace Engine
variable {W S : Type} {allowed : ConditionPlace → Condition S → Prop} {engine : Engine W S}

structure Within (allowed : ConditionPlace → Condition S → Prop) (engine : Engine W S) : Prop where
  timers : engine.timers = none
  edges : engine.config.enforceEdgeConditions = true →
    ∀ edge ∈ engine.topology.edges, edge.condition = .always ∨ allowed .edge edge.condition
  nodes : ∀ node ∈ engine.topology.nodes, node.Within allowed

theorem firstAdmitting_succeeds {snapshot : Snapshot S} (edges : List (Edge S))
    (admits : ∀ edge ∈ edges, (edge.admits snapshot).Succeeds) :
    (firstAdmitting snapshot edges).Succeeds := by
  induction edges with
  | nil => exact Attempt.succeeds_pure none
  | cons edge rest ih =>
      refine (admits edge List.mem_cons_self).bind fun open_ => ?_
      split
      · exact Attempt.succeeds_pure (some edge)
      · exact ih fun later member => admits later (List.mem_cons_of_mem edge member)

theorem admits_succeeds (calm : NeverPanic allowed) (within : engine.Within allowed)
    (enforced : engine.config.enforceEdgeConditions = true) {snapshot : Snapshot S}
    (positioned : snapshot.position.isSome) {edge : Edge S} (member : edge ∈ engine.topology.edges) :
    (edge.admits snapshot).Succeeds := by
  unfold Edge.admits
  rcases within.edges enforced edge member with always | permitted
  · rw [always]
    exact Attempt.succeeds_pure true
  · exact calm .edge edge.condition permitted snapshot positioned

theorem selectEdge_succeeds (calm : NeverPanic allowed) (within : engine.Within allowed)
    {snapshot : Snapshot S} (positioned : snapshot.position.isSome) (current target : NodeId) :
    (engine.selectEdge current snapshot target).Succeeds := by
  unfold selectEdge
  simp only
  split
  · exact Attempt.succeeds_pure _
  split
  · exact Attempt.succeeds_pure _
  · rename_i first others between
    split
    · exact Attempt.succeeds_pure _
    · rename_i enforced
      refine Attempt.Succeeds.bind (firstAdmitting_succeeds _ ?_) fun found => ?_
      · intro edge member
        rw [← between] at member
        exact admits_succeeds calm within (by simpa using enforced) positioned
          (Topology.mem_edges_of_edgesBetween member)
      · cases found with
        | some edge => exact Attempt.succeeds_pure _
        | none => exact Attempt.succeeds_pure _

theorem conditionHolds_succeeds (calm : NeverPanic allowed) {snapshot : Snapshot S}
    (positioned : snapshot.position.isSome) (place : ConditionPlace)
    (condition : Option (Condition S)) (permitted : ∀ given, condition = some given → allowed place given) :
    (conditionHolds condition snapshot).Succeeds := by
  cases condition with
  | none => exact Attempt.succeeds_pure true
  | some given => exact calm place given (permitted given rfl) snapshot positioned

theorem traverse_succeeds (calm : NeverPanic allowed) (within : engine.Within allowed)
    {snapshot : Snapshot S} (positioned : snapshot.position.isSome) (current target : NodeId)
    (condition : Option (Condition S)) (permitted : ∀ given, condition = some given → allowed .move given)
    (updates : Context) (data : Option S) (readings : Readings) :
    (engine.traverse current snapshot target condition updates data readings).Succeeds := by
  refine (conditionHolds_succeeds calm positioned .move condition permitted).bind fun holds => ?_
  simp only
  split
  · exact Attempt.succeeds_pure _
  · refine (selectEdge_succeeds calm within positioned current target).bind fun selected => ?_
    cases selected with
    | ok edge => exact Attempt.succeeds_pure _
    | error error => exact Attempt.succeeds_pure _

theorem eligible_succeeds (calm : NeverPanic allowed) {base : Snapshot S}
    (positioned : base.position.isSome) (conditions : Dict NodeId (Condition S))
    (permitted : ∀ entry ∈ conditions.entries, allowed .branch entry.2) (targets : List NodeId) :
    (eligible conditions base targets).Succeeds := by
  induction targets with
  | nil => exact Attempt.succeeds_pure []
  | cons target rest ih =>
      have holds : (branchHolds conditions base target).Succeeds := by
        refine conditionHolds_succeeds calm positioned .branch _ fun given found => ?_
        obtain ⟨entry, member, rfl⟩ := Dict.mem_entries_of_get? found
        exact permitted entry member
      exact holds.bind fun _ => ih.bind fun _ => Attempt.succeeds_pure _

theorem forkTargets_succeeds (calm : NeverPanic allowed) {base : Snapshot S}
    (positioned : base.position.isSome) (current : NodeId) (targets : List NodeId)
    (strategy : ForkStrategy) (conditions : Dict NodeId (Condition S))
    (permitted : strategy = .conditional → ∀ entry ∈ conditions.entries, allowed .branch entry.2) :
    (forkTargets current base targets strategy conditions).Succeeds := by
  cases strategy with
  | parallel => exact Attempt.succeeds_pure _
  | sequential => exact Attempt.succeeds_pure _
  | conditional =>
      refine (eligible_succeeds calm positioned conditions (permitted rfl) targets).bind fun kept => ?_
      split
      · exact Attempt.succeeds_pure _
      · exact Attempt.succeeds_pure _

theorem apply_succeeds (calm : NeverPanic allowed) (within : engine.Within allowed) (mode : Mode)
    (current : NodeId) {snapshot : Snapshot S} (positioned : snapshot.position.isSome)
    {command : Command S} (permitted : command.Within allowed) (readings : Readings) :
    (engine.apply mode current snapshot command readings).Succeeds := by
  obtain ⟨action, updates⟩ := command
  cases action with
  | traverse target condition data =>
      refine Attempt.Succeeds.bind ?_ fun _ => Attempt.succeeds_pure _
      refine traverse_succeeds calm within positioned current target condition ?_ updates data readings
      rintro given rfl
      exact permitted (.move, given) List.mem_cons_self
  | fork targets strategy conditions data =>
      simp only [apply]
      split
      · exact Attempt.succeeds_pure _
      · refine Attempt.Succeeds.bind (forkTargets_succeeds calm ?_ current targets strategy conditions ?_)
          fun answer => ?_
        · rw [position_withUpdates]
          exact positioned
        · rintro rfl entry member
          exact permitted (.branch, entry.2) (List.mem_map.mpr ⟨entry, member, rfl⟩)
        · cases answer with
          | ok started => exact Attempt.succeeds_pure _
          | error error => exact Attempt.succeeds_pure _
  | join node policy timeout data =>
      cases mode with
      | root =>
          refine Attempt.Succeeds.bind ?_ fun _ => Attempt.succeeds_pure _
          exact traverse_succeeds calm within positioned current node none (by simp) updates data readings
      | branch =>
          refine (selectEdge_succeeds calm within positioned current node).bind fun selected => ?_
          cases selected with
          | ok edge => exact Attempt.succeeds_pure _
          | error error => exact Attempt.succeeds_pure _
  | suspend id reason timeout => exact Attempt.succeeds_pure _
  | complete data => exact Attempt.succeeds_pure _
  | error message recoverable fallback =>
      simp only [apply]
      split
      · split
        · exact Attempt.succeeds_pure _
        · exact Attempt.succeeds_pure _
      · exact Attempt.succeeds_pure _

end Engine

end FlowGraph
