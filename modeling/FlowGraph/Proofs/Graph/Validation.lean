import FlowGraph.Graph.Validation

/-! What the checks of a list of nodes and edges look for, and that they report no error just where they find it. -/

namespace FlowGraph.Graph
variable {W S : Type} {nodes : List (Node W S)} {edges : List (Edge S)} {entry : Option NodeId}

/-- What a graph must be like to be run. -/
structure WellFormed (nodes : List (Node W S)) (edges : List (Edge S)) (entry : Option NodeId) : Prop where
  inhabited : nodes ≠ []
  distinctNodes : (nodes.map Node.id).Nodup
  distinctEdges : (edges.map Edge.id).Nodup
  connected : ∀ edge ∈ edges, edge.source ∈ nodes.map Node.id ∧ edge.target ∈ nodes.map Node.id
  known : ∀ id, entry = some id → id ∈ nodes.map Node.id
  entered : entry.isSome ∨ ∃ node ∈ nodes, node.isEntryPoint

theorem hasNode_iff {id : NodeId} : hasNode nodes id = true ↔ id ∈ nodes.map Node.id := by
  simp [hasNode]

theorem mem_declaredEntries {id : NodeId} :
    id ∈ declaredEntries nodes ↔ ∃ node ∈ nodes, node.id = id ∧ node.isEntryPoint = true := by
  simp only [declaredEntries, List.mem_map, List.mem_filter]
  exact ⟨fun ⟨node, ⟨member, declared⟩, same⟩ => ⟨node, member, same, declared⟩,
    fun ⟨node, member, same, declared⟩ => ⟨node, ⟨member, declared⟩, same⟩⟩

theorem head?_declaredEntries (nodes : List (Node W S)) :
    (declaredEntries nodes).head? = (nodes.find? Node.isEntryPoint).map Node.id := by
  rw [declaredEntries, List.head?_map, List.head?_filter]

theorem nodup_declaredEntries (distinct : (nodes.map Node.id).Nodup) : (declaredEntries nodes).Nodup :=
  distinct.sublist (List.filter_sublist.map Node.id)

theorem repeated_eq_nil_iff {α : Type} [DecidableEq α] (values : List α) : ∀ seen : List α,
    repeated seen values = [] ↔ values.Nodup ∧ ∀ value ∈ values, value ∉ seen := by
  induction values with
  | nil => simp [repeated]
  | cons value rest ih =>
      intro seen
      by_cases known : value ∈ seen
      · simp [repeated, known]
      · rw [repeated, if_neg (by simpa using known), ih, List.nodup_cons]
        constructor
        · rintro ⟨distinct, apart⟩
          refine ⟨⟨fun again => apart value again List.mem_cons_self, distinct⟩, ?_⟩
          rintro other (_ | ⟨_, later⟩)
          · exact known
          · exact fun before => apart other later (List.mem_cons_of_mem value before)
        · rintro ⟨⟨new, distinct⟩, apart⟩
          refine ⟨distinct, fun other later before => ?_⟩
          rcases List.mem_cons.mp before with rfl | seen
          · exact new later
          · exact apart other (List.mem_cons_of_mem value later) seen

theorem duplicateNodes_eq_nil_iff : duplicateNodes nodes = [] ↔ (nodes.map Node.id).Nodup := by
  simp [duplicateNodes, repeated_eq_nil_iff]

theorem edgeErrors_eq_nil_iff {seen : List EdgeId} {edge : Edge S} : edgeErrors nodes seen edge = [] ↔
    edge.id ∉ seen ∧ edge.source ∈ nodes.map Node.id ∧ edge.target ∈ nodes.map Node.id := by
  simp only [edgeErrors, List.append_eq_nil_iff, ← hasNode_iff, and_assoc]
  refine and_congr ?_ (and_congr ?_ ?_) <;> split <;> simp_all

theorem edgesErrors_eq_nil_iff (edges : List (Edge S)) : ∀ seen : List EdgeId,
    edgesErrors nodes seen edges = [] ↔ repeated seen (edges.map Edge.id) = [] ∧
      ∀ edge ∈ edges, edge.source ∈ nodes.map Node.id ∧ edge.target ∈ nodes.map Node.id := by
  induction edges with
  | nil => simp [edgesErrors, repeated]
  | cons edge rest ih =>
      intro seen
      rw [edgesErrors, List.append_eq_nil_iff, edgeErrors_eq_nil_iff, ih, List.map_cons, repeated,
        List.forall_mem_cons]
      by_cases known : edge.id ∈ seen
      · simp [known]
      · rw [if_neg (by simpa using known), and_iff_right known]
        exact and_left_comm

theorem entryErrors_eq_nil_iff : entryErrors nodes entry = [] ↔
    (∀ id, entry = some id → id ∈ nodes.map Node.id) ∧ (entry.isSome ∨ ∃ node ∈ nodes, node.isEntryPoint) := by
  cases entry with
  | some id => simp [entryErrors, ← hasNode_iff]
  | none => simp [entryErrors, declaredEntries]

theorem validate_errors_eq_nil_iff : (validate nodes edges entry).errors = [] ↔ WellFormed nodes edges entry := by
  by_cases empty : nodes = []
  · refine iff_of_false ?_ fun wellFormed => wellFormed.inhabited empty
    simp [validate, empty]
  · have kept : (validate nodes edges entry).errors =
        duplicateNodes nodes ++ edgesErrors nodes [] edges ++ entryErrors nodes entry := by
      simp [validate, empty]
    rw [kept, List.append_eq_nil_iff, List.append_eq_nil_iff, duplicateNodes_eq_nil_iff, edgesErrors_eq_nil_iff,
      repeated_eq_nil_iff, entryErrors_eq_nil_iff]
    constructor
    · rintro ⟨⟨distinctNodes, ⟨distinctEdges, _⟩, connected⟩, known, entered⟩
      exact ⟨empty, distinctNodes, distinctEdges, connected, known, entered⟩
    · rintro ⟨_, distinctNodes, distinctEdges, connected, known, entered⟩
      exact ⟨⟨distinctNodes, ⟨distinctEdges, by simp⟩, connected⟩, known, entered⟩

end FlowGraph.Graph
