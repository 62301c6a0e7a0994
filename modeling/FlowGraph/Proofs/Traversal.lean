import FlowGraph.Proofs.Containment.Step
import FlowGraph.Proofs.Graph.Topology

/-!
When a snapshot may move along an edge, and along which one. A traversal looks at its own condition, at the
target, at the edges, and at the conditions of the edges, in this order, and the first of these that fails is
its error. What the command would write into the snapshot does not count.
-/

namespace FlowGraph.Engine
variable {W S : Type}

/-- The snapshot behind a move along the edge: its context is merged with the updates, its payload replaced if
there is a new one, and its version counts each of these changes, without bound. From nowhere, a position starts
at the target. -/
structure Crosses (edge : Edge S) (target : NodeId) (updates : Context) (data : Option S) (readings : Readings)
    (snapshot next : Snapshot S) : Prop where
  position : next.position = some ((snapshot.position.map fun position =>
    position.traverse edge.id target (readings edgeReading)).getD (.start target))
  context : next.context = snapshot.context.merge updates
  payload : next.data = data.getD snapshot.data
  version : next.version =
    snapshot.version + 1 + (if updates.isEmpty then 0 else 1) + (if data.isSome then 1 else 0)

theorem Crosses.version_of_lt {edge : Edge S} {target : NodeId} {updates : Context} {data : Option S}
    {readings : Readings} {snapshot next : Snapshot S}
    (crosses : Crosses edge target updates data readings snapshot next)
    (below : next.version < UInt64.size) :
    (UInt64.ofNat snapshot.version + 1 + (if updates.isEmpty then 0 else 1) + (if data.isSome then 1 else 0)).toNat =
      next.version := by
  have counted : UInt64.ofNat next.version = UInt64.ofNat snapshot.version + 1 +
      (if updates.isEmpty then 0 else 1) + (if data.isSome then 1 else 0) := by
    rw [crosses.version, UInt64.ofNat_add, UInt64.ofNat_add, UInt64.ofNat_add]
    split <;> split <;> rfl
  rw [← counted]
  exact UInt64.toNat_ofNat_of_lt' below

theorem admits_of_firstAdmitting {snapshot : Snapshot S} {edge : Edge S} (edges : List (Edge S))
    (found : firstAdmitting snapshot edges = .ok (some edge)) :
    edge ∈ edges ∧ edge.admits snapshot = .ok true := by
  induction edges with
  | nil => cases found
  | cons first rest ih =>
      cases answers : first.admits snapshot with
      | error panic => simp [firstAdmitting, answers, bind, Except.bind] at found
      | ok admitted =>
          simp only [firstAdmitting, answers, bind, Except.bind, pure, Except.pure] at found
          cases admitted with
          | true =>
              cases found
              exact ⟨List.mem_cons_self, answers⟩
          | false =>
              obtain ⟨member, admits⟩ := ih found
              exact ⟨List.mem_cons_of_mem first member, admits⟩

section
variable {engine : Engine W S} {nodes : List (Node W S)} {edges : List (Edge S)} {defaultEntry : Option NodeId}
  {current target : NodeId} {snapshot : Snapshot S}

theorem selected_of_selectEdge {edge : Edge S}
    (selected : engine.selectEdge current snapshot target = .ok (.ok edge)) :
    engine.topology.contains target = true ∧ edge ∈ engine.topology.edgesBetween current target ∧
      (engine.config.enforceEdgeConditions = true → edge.admits snapshot = .ok true) := by
  simp only [selectEdge, bind, Except.bind, pure, Except.pure] at selected
  split at selected
  · cases selected
  rename_i known
  have contained : engine.topology.contains target = true := by simpa using known
  split at selected
  · cases selected
  rename_i first others between
  split at selected
  · rename_i lax
    cases selected
    refine ⟨contained, ?_, fun enforced => ?_⟩
    · rw [between]
      exact List.mem_cons_self
    · rw [enforced] at lax
      cases lax
  split at selected
  · cases selected
  split at selected
  · rename_i found
    cases selected
    obtain ⟨member, admits⟩ := admits_of_firstAdmitting _ found
    refine ⟨contained, ?_, fun _ => admits⟩
    rwa [between]
  · cases selected

end

section

def hallNode : NodeId := ⟨"hall", by decide +kernel, by decide⟩
def exitNode : NodeId := ⟨"exit", by decide +kernel, by decide⟩
def readyEdge : EdgeId := ⟨"if ready", by decide +kernel, by decide⟩
def plainEdge : EdgeId := ⟨"in any case", by decide +kernel, by decide⟩

/-- Two edges between the same nodes, the first of which asks for a value. -/
def exits : List (Edge String) :=
  [.new readyEdge hallNode exitNode (.present "ready") default, .new plainEdge hallNode exitNode .always default]

def hall : List (Node Unit String) :=
  [(Node.new hallNode fun _ => .never).asEntryPoint, Node.new exitNode fun _ => .never]

def building : Engine Unit String :=
  ⟨(Topology.build hall exits none).toOption.get rfl, fun _ => .pure (), .pure true, .lastWriterWins, {}, none⟩

def ready : Context := ⟨Dict.insert .empty "ready" ⟨"bool", .bool true⟩⟩

def inHall : Snapshot String :=
  .initial ⟨"leaving", by decide +kernel, by decide⟩ "draft" .empty hallNode default

end

end FlowGraph.Engine
