import FlowGraph.Proofs.Graph.Reachability
import FlowGraph.Proofs.Graph.Validation

/-!
The nodes that a check of a graph warns of. They are those that no path from an entry point leads to, in the
order of their declaration.
-/

namespace FlowGraph.Graph
variable {W S : Type} {nodes : List (Node W S)} {edges : List (Edge S)} {entry : Option NodeId} {id : NodeId}

theorem mem_roots_iff : id ∈ roots nodes entry ↔ IsRoot nodes entry id := by
  have chosen : id ∈ entry.toList.filter (hasNode nodes) ↔ ∃ node ∈ nodes, node.id = id ∧ entry = some id := by
    rw [List.mem_filter, Option.mem_toList, hasNode_iff, List.mem_map]
    exact ⟨fun ⟨given, node, member, same⟩ => ⟨node, member, same, given⟩,
      fun ⟨node, member, same, given⟩ => ⟨given, node, member, same⟩⟩
  rw [roots, List.mem_append, mem_declaredEntries, chosen, ← exists_or]
  simp only [IsRoot, ← and_or_left]

theorem mem_reachable_roots_iff : id ∈ reachable edges (roots nodes entry) ↔ Reachable nodes edges entry id := by
  simp only [mem_reachable_iff, mem_roots_iff, Reachable]

instance : Decidable (Reachable nodes edges entry id) :=
  decidable_of_iff ((reachable edges (roots nodes entry)).contains id = true)
    (List.contains_iff_mem.trans mem_reachable_roots_iff)

theorem unreachableWarnings_eq (rooted : ∃ id, IsRoot nodes entry id) :
    unreachableWarnings nodes edges entry =
      (nodes.filter fun node => ¬Reachable nodes edges entry node.id).map fun node =>
        "Node '" ++ node.id.text ++ "' is unreachable from any entry point" := by
  obtain ⟨root, isRoot⟩ := rooted
  have some : (roots nodes entry).isEmpty = false := by
    rw [List.isEmpty_eq_false_iff]
    exact List.ne_nil_of_mem (mem_roots_iff.mpr isRoot)
  simp [unreachableWarnings, some, mem_reachable_roots_iff]

/-- The search for unreachable nodes comes to an end, and no allowance that suffices for it changes what it
finds. Next to the warning about several entry points, the check gives one warning for each declaration of a
node that no path of edges from a root leads to. -/
theorem warns_of_unreachable_nodes (edges : List (Edge S)) (rooted : ∃ id, IsRoot nodes entry id) :
    Searches edges (roots nodes entry) (roots nodes entry) (reachable edges (roots nodes entry)) ∧
    (∀ rounds, (roots nodes entry).length + edges.length ≤ rounds →
      search edges rounds (roots nodes entry) (roots nodes entry) = reachable edges (roots nodes entry)) ∧
    (validate nodes edges entry).warnings = entryWarnings nodes entry ++
      (nodes.filter fun node => ¬Reachable nodes edges entry node.id).map fun node =>
        "Node '" ++ node.id.text ++ "' is unreachable from any entry point" := by
  have ends := searches_reachable edges (roots nodes entry)
  refine ⟨ends, fun rounds enough => ?_, ?_⟩
  · exact ends.unique (searches_of_length_le edges _ enough)
  · have inhabited : nodes.isEmpty = false := by
      obtain ⟨_, node, member, _⟩ := rooted
      rw [List.isEmpty_eq_false_iff]
      exact List.ne_nil_of_mem member
    rw [← unreachableWarnings_eq rooted]
    simp [validate, inhabited]

section

def archNode : NodeId := ⟨"arch", by decide +kernel, by decide⟩
def yardNode : NodeId := ⟨"yard", by decide +kernel, by decide⟩
def bridgeNode : NodeId := ⟨"bridge", by decide +kernel, by decide⟩
def towerNode : NodeId := ⟨"tower", by decide +kernel, by decide⟩
def islandNode : NodeId := ⟨"island", by decide +kernel, by decide⟩

def castle : List (Node Unit String) :=
  [Node.new islandNode fun _ => .never, (Node.new archNode fun _ => .never).asEntryPoint,
    Node.new yardNode fun _ => .never, Node.new towerNode fun _ => .never]

def passages : List (Edge String) :=
  [(archNode, yardNode), (yardNode, archNode), (archNode, bridgeNode), (archNode, bridgeNode),
    (bridgeNode, towerNode),
    (islandNode, islandNode), (islandNode, archNode)].map fun (source, target) =>
      .new ⟨"passage", by decide +kernel, by decide⟩ source target (.present "key") default

theorem island_is_unreachable :
    IsRoot castle none archNode ∧ Reachable castle passages none towerNode ∧
      ¬Reachable castle passages none islandNode ∧
      Searches passages [archNode] [archNode] (reachable passages [archNode]) ∧
      (validate castle passages none).warnings = ["Node 'island' is unreachable from any entry point"] := by
  have rooted : IsRoot castle none archNode :=
    ⟨_, List.mem_cons_of_mem _ List.mem_cons_self, rfl, .inl rfl⟩
  obtain ⟨ends, _, warned⟩ := warns_of_unreachable_nodes passages ⟨archNode, rooted⟩
  refine ⟨rooted, by decide +kernel, by decide +kernel, ends, warned.trans ?_⟩
  decide +kernel

end

end FlowGraph.Graph
