import FlowGraph.Graph.Topology
import FlowGraph.Proofs.Dict
import FlowGraph.Proofs.Graph.Validation

/-!
What the tables of a graph hold. A graph that has been built knows just the nodes that were declared, and the
edges that it finds between two nodes are those that were declared, in the same order.
-/

namespace FlowGraph.Topology
variable {W S : Type}

theorem get?_nodePlaces_ne_none_iff (nodes : List (Node W S)) (id : NodeId) :
    ∀ (place : Nat) (table : Dict NodeId Nat),
      (nodePlaces place table nodes).get? id ≠ none ↔ table.get? id ≠ none ∨ id ∈ nodes.map Node.id := by
  induction nodes with
  | nil => simp [nodePlaces]
  | cons node rest ih =>
      intro place table
      rw [nodePlaces, ih, Dict.get?_insert, List.map_cons, List.mem_cons]
      by_cases same : node.id = id
      · simp [same]
      · have apart : ¬Key.text node.id = Key.text id := fun texts => same (Key.text_injective texts)
        have other : ¬id = node.id := fun back => same back.symm
        simp [apart, other]

theorem bounded_of_nodePlaces (nodes : List (Node W S)) : ∀ (place : Nat) (table : Dict NodeId Nat) (id : NodeId)
    (found : Nat), (nodePlaces place table nodes).get? id = some found →
      table.get? id = some found ∨ place ≤ found ∧ found < place + nodes.length := by
  induction nodes with
  | nil => exact fun _ _ _ _ known => .inl known
  | cons node rest ih =>
      intro place table id found known
      rw [List.length_cons]
      rcases ih (place + 1) (table.insert node.id place) id found known with inserted | later
      · rw [Dict.get?_insert] at inserted
        split at inserted
        · cases inserted
          exact .inr (by omega)
        · exact .inl inserted
      · exact .inr (by omega)

theorem bind_nodePlaces (id : NodeId) (nodes : List (Node W S)) :
    ∀ (before : List (Node W S)) (table : Dict NodeId Nat),
      ((nodePlaces before.length table nodes).get? id).bind (fun place => (before ++ nodes)[place]?) =
        (nodes.reverse.find? fun node => node.id = id).or
          ((table.get? id).bind fun place => (before ++ nodes)[place]?) := by
  induction nodes with
  | nil => simp [nodePlaces]
  | cons node rest ih =>
      intro before table
      have later := ih (before ++ [node]) (table.insert node.id before.length)
      rw [List.length_append, List.length_singleton, List.append_assoc, List.singleton_append] at later
      rw [nodePlaces, later, Dict.get?_insert, List.reverse_cons, List.find?_append, Option.or_assoc]
      by_cases same : node.id = id
      · subst same
        simp
      · have apart : ¬Key.text node.id = Key.text id := fun texts => same (Key.text_injective texts)
        simp [apart, same]

theorem get?_edgePlaces_ne_none_iff (nodeOf : Edge S → NodeId) (edges : List (Edge S)) (id : NodeId) :
    ∀ (place : Nat) (table : Dict NodeId (List Nat)),
      (edgePlaces nodeOf place table edges).get? id ≠ none ↔ table.get? id ≠ none ∨ id ∈ edges.map nodeOf := by
  induction edges with
  | nil => simp [edgePlaces]
  | cons edge rest ih =>
      intro place table
      rw [edgePlaces, ih, Dict.get?_insert, List.map_cons, List.mem_cons]
      by_cases same : nodeOf edge = id
      · simp [same]
      · have apart : ¬Key.text (nodeOf edge) = Key.text id := fun texts => same (Key.text_injective texts)
        have other : ¬id = nodeOf edge := fun back => same back.symm
        simp [apart, other]

theorem bounded_of_edgePlaces (nodeOf : Edge S → NodeId) (edges : List (Edge S)) (id : NodeId) (bound : Nat) :
    ∀ (place : Nat) (table : Dict NodeId (List Nat)), place + edges.length ≤ bound →
      (∀ places, table.get? id = some places → ∀ found ∈ places, found < bound) →
        ∀ places, (edgePlaces nodeOf place table edges).get? id = some places → ∀ found ∈ places, found < bound := by
  induction edges with
  | nil => exact fun _ _ _ known => known
  | cons edge rest ih =>
      intro place table within known
      rw [List.length_cons] at within
      refine ih (place + 1) _ (by omega) fun places inserted => ?_
      rw [Dict.get?_insert] at inserted
      split at inserted
      · cases inserted
        rename_i same
        rw [Key.text_injective same]
        intro found member
        rcases List.mem_append.mp member with before | here
        · cases there : table.get? id with
          | none => simp [there] at before
          | some places => exact known places there found (by simpa [there] using before)
        · rw [List.mem_singleton.mp here]
          omega
      · exact known places inserted

theorem filterMap_edgePlaces (nodeOf : Edge S → NodeId) (id : NodeId) (edges : List (Edge S)) :
    ∀ (before : List (Edge S)) (table : Dict NodeId (List Nat)),
      (((edgePlaces nodeOf before.length table edges).get? id).getD []).filterMap
          (fun place => (before ++ edges)[place]?) =
        ((table.get? id).getD []).filterMap (fun place => (before ++ edges)[place]?) ++
          edges.filter fun edge => nodeOf edge = id := by
  induction edges with
  | nil => simp [edgePlaces]
  | cons edge rest ih =>
      intro before table
      have later := ih (before ++ [edge])
        (table.insert (nodeOf edge) ((table.get? (nodeOf edge)).getD [] ++ [before.length]))
      rw [List.length_append, List.length_singleton, List.append_assoc, List.singleton_append] at later
      rw [edgePlaces, later, Dict.get?_insert]
      by_cases same : nodeOf edge = id
      · subst same
        simp
      · have apart : ¬Key.text (nodeOf edge) = Key.text id := fun texts => same (Key.text_injective texts)
        simp [apart, same]

variable {nodes : List (Node W S)} {edges : List (Edge S)} {defaultEntry : Option NodeId} {topology : Topology W S}

/-- The graph is made of valid parts, and begins at the first of its entry points. -/
structure MadeOf (topology : Topology W S) (nodes : List (Node W S)) (edges : List (Edge S))
    (defaultEntry : Option NodeId) : Prop where
  valid : (Graph.validate nodes edges defaultEntry).isValid = true
  places : topology.places = nodePlaces 0 .empty nodes
  outgoing : topology.outgoing = edgePlaces Edge.source 0 .empty edges
  entry : ∃ others, Command.distinct (defaultEntry.toList ++ Graph.declaredEntries nodes) = topology.entry :: others
  nodes : topology.nodes = nodes
  edges : topology.edges = edges

theorem madeOf_build (built : build nodes edges defaultEntry = .ok topology) :
    topology.MadeOf nodes edges defaultEntry := by
  simp only [build] at built
  split at built
  · cases built
  rename_i valid
  split at built <;> cases built
  exact ⟨by simpa using valid, rfl, rfl, ⟨_, ‹_›⟩, rfl, rfl⟩

theorem incoming_build (built : build nodes edges defaultEntry = .ok topology) :
    topology.incoming = edgePlaces Edge.target 0 .empty edges := by
  simp only [build] at built
  split at built
  · cases built
  split at built <;> cases built
  rfl

theorem wellFormed_of_build (built : build nodes edges defaultEntry = .ok topology) :
    Graph.WellFormed nodes edges defaultEntry :=
  Graph.validate_errors_eq_nil_iff.mp (List.isEmpty_iff.mp (madeOf_build built).valid)

theorem contains_iff (built : build nodes edges defaultEntry = .ok topology) (id : NodeId) :
    topology.contains id = true ↔ id ∈ nodes.map Node.id := by
  rw [contains, Dict.contains, (madeOf_build built).places, Option.isSome_iff_ne_none, get?_nodePlaces_ne_none_iff]
  exact or_iff_right fun known => known rfl

theorem node?_eq_some_iff (built : build nodes edges defaultEntry = .ok topology) {id : NodeId} {node : Node W S} :
    topology.node? id = some node ↔ node ∈ nodes ∧ node.id = id := by
  have parts := madeOf_build built
  have distinct := (wellFormed_of_build built).distinctNodes
  have found : topology.node? id = nodes.reverse.find? fun node => node.id = id := by
    have last := bind_nodePlaces id nodes [] .empty
    rw [List.length_nil, List.nil_append] at last
    rw [node?, parts.places, parts.nodes, last]
    exact Option.or_none
  rw [found]
  constructor
  · intro known
    exact ⟨List.mem_reverse.mp (List.mem_of_find?_eq_some known), by simpa using List.find?_some known⟩
  · rintro ⟨member, same⟩
    cases known : nodes.reverse.find? fun node => node.id = id with
    | none => simpa [same] using List.find?_eq_none.mp known node (List.mem_reverse.mpr member)
    | some other =>
        have there := List.mem_reverse.mp (List.mem_of_find?_eq_some known)
        have equal : other.id = id := by simpa using List.find?_some known
        exact congrArg some (List.inj_on_of_nodup_map distinct there member (equal.trans same.symm))

theorem edgesFrom_eq (built : build nodes edges defaultEntry = .ok topology) (id : NodeId) :
    topology.edgesFrom id = edges.filter fun edge => edge.source = id := by
  have parts := madeOf_build built
  have leaving := filterMap_edgePlaces Edge.source id edges [] .empty
  rw [List.length_nil, List.nil_append] at leaving
  rw [edgesFrom, edgesAt, parts.edges, parts.outgoing, leaving]
  rfl

theorem edgesTo_eq (built : build nodes edges defaultEntry = .ok topology) (id : NodeId) :
    topology.edgesTo id = edges.filter fun edge => edge.target = id := by
  have arriving := filterMap_edgePlaces Edge.target id edges [] .empty
  rw [List.length_nil, List.nil_append] at arriving
  rw [edgesTo, edgesAt, (madeOf_build built).edges, incoming_build built, arriving]
  rfl

theorem edgesBetween_eq (built : build nodes edges defaultEntry = .ok topology) (source target : NodeId) :
    topology.edgesBetween source target = edges.filter fun edge => edge.connects source target := by
  rw [edgesBetween, edgesFrom_eq built, List.filter_filter]
  simp only [Edge.connects, Bool.and_comm]

end FlowGraph.Topology
