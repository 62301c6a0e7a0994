import FlowGraph.Proofs.Graph.Topology

/-!
What the lookups of a graph answer. The tables are made once, when the graph is built, and nothing compares them
with the declared nodes and edges afterwards: that they agree, and that every place they hold is one of the list
that it counts in, is shown here.
-/

namespace FlowGraph.Topology
variable {W S : Type}

/-- Every lookup, in terms of the nodes and edges as they were declared. -/
structure Indexes (topology : Topology W S) (nodes : List (Node W S)) (edges : List (Edge S)) : Prop where
  distinctNodes : (nodes.map Node.id).Nodup
  distinctEdges : (edges.map Edge.id).Nodup
  node : ∀ id node, topology.node? id = some node ↔ node ∈ nodes ∧ node.id = id
  absent : ∀ id, topology.node? id = none ↔ ∀ node ∈ nodes, node.id ≠ id
  known : ∀ id, topology.contains id = (topology.node? id).isSome
  leaving : ∀ id, topology.edgesFrom id = edges.filter fun edge => edge.source = id
  arriving : ∀ id, topology.edgesTo id = edges.filter fun edge => edge.target = id
  between : ∀ source target,
    topology.edgesBetween source target = edges.filter fun edge => edge.source = source ∧ edge.target = target
  exit : ∀ id, topology.isExitPoint id = true ↔
    ∃ node ∈ nodes, node.id = id ∧ (node.metadata.type = .stop ∨ ∀ edge ∈ edges, edge.source ≠ id)
  nodes : topology.nodes = nodes
  edges : topology.edges = edges

/-- No table holds a place beyond the end of the list that it counts in. -/
structure InBounds (topology : Topology W S) : Prop where
  places : ∀ id place, topology.places.get? id = some place → place < topology.nodes.length
  outgoing : ∀ id listed, topology.outgoing.get? id = some listed → ∀ place ∈ listed, place < topology.edges.length
  incoming : ∀ id listed, topology.incoming.get? id = some listed → ∀ place ∈ listed, place < topology.edges.length

variable {nodes : List (Node W S)} {edges : List (Edge S)} {defaultEntry : Option NodeId} {topology : Topology W S}

theorem node?_eq_none_iff (built : build nodes edges defaultEntry = .ok topology) {id : NodeId} :
    topology.node? id = none ↔ ∀ node ∈ nodes, node.id ≠ id := by
  rw [Option.eq_none_iff_forall_ne_some]
  constructor
  · exact fun unknown node member same => unknown node ((node?_eq_some_iff built).mpr ⟨member, same⟩)
  · intro other node known
    obtain ⟨member, same⟩ := (node?_eq_some_iff built).mp known
    exact other node member same

theorem contains_eq_isSome (built : build nodes edges defaultEntry = .ok topology) (id : NodeId) :
    topology.contains id = (topology.node? id).isSome := by
  rw [Bool.eq_iff_iff, contains_iff built, Option.isSome_iff_exists, List.mem_map]
  exact exists_congr fun node => (node?_eq_some_iff built).symm

theorem contains_outgoing_iff (built : build nodes edges defaultEntry = .ok topology) (id : NodeId) :
    topology.outgoing.contains id = true ↔ ∃ edge ∈ edges, edge.source = id := by
  rw [Dict.contains, (madeOf_build built).outgoing, Option.isSome_iff_ne_none, get?_edgePlaces_ne_none_iff,
    List.mem_map]
  exact or_iff_right fun known => known rfl

theorem isExitPoint_iff (built : build nodes edges defaultEntry = .ok topology) (id : NodeId) :
    topology.isExitPoint id = true ↔
      ∃ node ∈ nodes, node.id = id ∧ (node.metadata.type = .stop ∨ ∀ edge ∈ edges, edge.source ≠ id) := by
  have last : (!topology.outgoing.contains id) = true ↔ ∀ edge ∈ edges, edge.source ≠ id := by
    rw [Bool.not_eq_true', ← Bool.not_eq_true, contains_outgoing_iff built]
    simp only [not_exists, not_and]
  rw [isExitPoint]
  cases known : topology.node? id with
  | none =>
      have other := (node?_eq_none_iff built).mp known
      exact iff_of_false Bool.false_ne_true fun ⟨node, member, same, _⟩ => other node member same
  | some found =>
      have declared := (node?_eq_some_iff built).mp known
      rw [Bool.or_eq_true, decide_eq_true_eq, last]
      constructor
      · exact fun ends => ⟨found, declared.1, declared.2, ends⟩
      · rintro ⟨node, member, same, ends⟩
        have there := (node?_eq_some_iff built).mpr ⟨member, same⟩
        obtain rfl : found = node := Option.some.inj (known.symm.trans there)
        exact ends

theorem indexes_of_build (built : build nodes edges defaultEntry = .ok topology) : topology.Indexes nodes edges where
  distinctNodes := (wellFormed_of_build built).distinctNodes
  distinctEdges := (wellFormed_of_build built).distinctEdges
  node _ _ := node?_eq_some_iff built
  absent _ := node?_eq_none_iff built
  known := contains_eq_isSome built
  leaving := edgesFrom_eq built
  arriving := edgesTo_eq built
  between source target := by
    rw [edgesBetween_eq built]
    simp only [Edge.connects, Bool.decide_and]
  exit := isExitPoint_iff built
  nodes := (madeOf_build built).nodes
  edges := (madeOf_build built).edges

theorem inBounds_of_build (built : build nodes edges defaultEntry = .ok topology) : topology.InBounds := by
  have parts := madeOf_build built
  have listedBelow (nodeOf : Edge S → NodeId) (id : NodeId) (listed : List Nat)
      (known : (edgePlaces nodeOf 0 .empty edges).get? id = some listed) :
      ∀ place ∈ listed, place < topology.edges.length := by
    rw [parts.edges]
    exact bounded_of_edgePlaces nodeOf edges id edges.length 0 .empty (by omega)
      (fun _ empty => nomatch empty) listed
      known
  constructor
  case places =>
    intro id place known
    rw [parts.places] at known
    rw [parts.nodes]
    rcases bounded_of_nodePlaces nodes 0 .empty id place known with impossible | ⟨_, below⟩
    · cases impossible
    · omega
  case outgoing =>
    rw [parts.outgoing]
    exact listedBelow Edge.source
  case incoming =>
    rw [incoming_build built]
    exact listedBelow Edge.target

/-- The lookups of a graph that has been built find just what was declared, edges in the order of their
declaration, and never look beyond the end of a list. -/
theorem lookups_find_declared (built : build nodes edges defaultEntry = .ok topology) :
    topology.Indexes nodes edges ∧ topology.InBounds :=
  ⟨indexes_of_build built, inBounds_of_build built⟩

section

def harbourNode : NodeId := ⟨"harbour", by decide +kernel, by decide⟩
def isleNode : NodeId := ⟨"isle", by decide +kernel, by decide⟩
def reefNode : NodeId := ⟨"reef", by decide +kernel, by decide⟩

def morningEdge : EdgeId := ⟨"in the morning", by decide +kernel, by decide⟩
def eveningEdge : EdgeId := ⟨"in the evening", by decide +kernel, by decide⟩
def roundEdge : EdgeId := ⟨"round trip", by decide +kernel, by decide⟩

def ports : List (Node Unit String) :=
  [(Node.new harbourNode fun _ => .never).asEntryPoint, (Node.new isleNode fun _ => .never).withType .stop,
    Node.new reefNode fun _ => .never]

/-- Two ways to the isle, one to the reef, one from the isle back, and one that leads nowhere else. -/
def crossings : List (Edge String) :=
  [.new morningEdge harbourNode isleNode .always default, .new roundEdge harbourNode harbourNode .always default,
    .new ⟨"way back", by decide +kernel, by decide⟩ isleNode harbourNode .always default,
    .new eveningEdge harbourNode isleNode .always default,
    .new ⟨"excursion", by decide +kernel, by decide⟩ harbourNode reefNode .always default]

theorem crossings_are_found : ∃ topology, build ports crossings none = .ok topology ∧
    topology.Indexes ports crossings ∧ topology.InBounds ∧
    (topology.edgesBetween harbourNode isleNode).map Edge.id = [morningEdge, eveningEdge] ∧
    (topology.edgesBetween harbourNode harbourNode).map Edge.id = [roundEdge] ∧
    topology.isExitPoint isleNode = true ∧ topology.isExitPoint reefNode = true ∧
    topology.isExitPoint harbourNode = false := by
  have built : build ports crossings none = .ok ((build ports crossings none).toOption.get rfl) := rfl
  obtain ⟨indexes, inBounds⟩ := lookups_find_declared built
  refine ⟨_, built, indexes, inBounds, ?_, ?_, ?_, ?_, ?_⟩
  · rw [indexes.between]
    decide +kernel
  · rw [indexes.between]
    decide +kernel
  · exact (indexes.exit isleNode).mpr ⟨_, List.mem_cons_of_mem _ List.mem_cons_self, rfl, .inl rfl⟩
  · decide +kernel
  · decide +kernel

end

end FlowGraph.Topology
