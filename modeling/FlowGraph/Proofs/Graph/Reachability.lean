import FlowGraph.Graph.Validation
import Mathlib.Logic.Relation

/-!
The search that finds unreachable nodes. It is a loop over a queue that grows while it is emptied; here it is
shown to end on every graph, and to find just the ends of the paths from its roots. A path goes along edges
only: neither their conditions nor whether they connect declared nodes counts.
-/

namespace FlowGraph.Graph
variable {W S : Type}

def Leads (edges : List (Edge S)) (source target : NodeId) : Prop :=
  ∃ edge ∈ edges, edge.source = source ∧ edge.target = target

def IsRoot (nodes : List (Node W S)) (entry : Option NodeId) (id : NodeId) : Prop :=
  ∃ node ∈ nodes, node.id = id ∧ (node.isEntryPoint = true ∨ entry = some id)

def Reachable (nodes : List (Node W S)) (edges : List (Edge S)) (entry : Option NodeId) (id : NodeId) : Prop :=
  ∃ root, IsRoot nodes entry root ∧ Relation.ReflTransGen (Leads edges) root id

/-- The search as a loop that nothing bounds: it has an end only if its queue is once empty. -/
inductive Searches (edges : List (Edge S)) : (seen queue reached : List NodeId) → Prop where
  | done {seen : List NodeId} : Searches edges seen [] seen
  | visit {seen queue reached : List NodeId} {current : NodeId}
      (rest : Searches edges (discovered seen current edges ++ seen)
        (queue ++ discovered seen current edges) reached) :
      Searches edges seen (current :: queue) reached

theorem Searches.unique {edges : List (Edge S)} {seen queue reached other : List NodeId}
    (search : Searches edges seen queue reached) (again : Searches edges seen queue other) : other = reached := by
  induction search with
  | done => cases again; rfl
  | visit _ ih =>
      cases again with
      | visit rest => exact ih rest

theorem mem_discovered {source target : NodeId} (edges : List (Edge S)) : ∀ seen : List NodeId,
    target ∈ discovered seen source edges ↔ target ∉ seen ∧ Leads edges source target := by
  induction edges with
  | nil => simp [discovered, Leads]
  | cons edge rest ih =>
      intro seen
      have split : Leads (edge :: rest) source target ↔
          (edge.source = source ∧ edge.target = target) ∨ Leads rest source target := by
        simp [Leads]
      rw [discovered, split]
      by_cases taken : edge.source = source ∧ edge.target ∉ seen
      · rw [if_pos (by simpa using taken), List.mem_cons, ih, List.mem_cons]
        by_cases same : target = edge.target
        · subst same
          simp [taken]
        · have other : edge.target ≠ target := fun back => same back.symm
          simp [same, other]
      · rw [if_neg (by simpa using taken), ih]
        refine and_congr_right fun fresh => (or_iff_right ?_).symm
        rintro ⟨leaves, rfl⟩
        exact taken ⟨leaves, fresh⟩

/-- How many edges lead to nodes that are not seen. -/
def unseen (edges : List (Edge S)) (seen : List NodeId) : Nat := edges.countP fun edge => edge.target ∉ seen

theorem unseen_cons (edge : Edge S) (rest : List (Edge S)) (seen : List NodeId) :
    unseen (edge :: rest) seen = unseen rest seen + if edge.target ∈ seen then 0 else 1 := by
  by_cases known : edge.target ∈ seen <;> simp [unseen, known]

theorem unseen_anti (edges : List (Edge S)) {seen more : List NodeId} (grows : seen ⊆ more) :
    unseen edges more ≤ unseen edges seen := by
  refine List.countP_mono_left fun edge _ fresh => ?_
  simp only [decide_eq_true_eq] at fresh ⊢
  exact fun known => fresh (grows known)

theorem length_discovered_add_unseen_le (source : NodeId) (edges : List (Edge S)) : ∀ seen : List NodeId,
    (discovered seen source edges).length + unseen edges (discovered seen source edges ++ seen) ≤
      unseen edges seen := by
  induction edges with
  | nil => simp [discovered, unseen]
  | cons edge rest ih =>
      intro seen
      by_cases taken : edge.source = source ∧ edge.target ∉ seen
      · have later := ih (edge.target :: seen)
        have fewer := unseen_anti rest (List.subset_cons_self edge.target seen)
        have moved : unseen rest (edge.target :: (discovered (edge.target :: seen) source rest ++ seen)) ≤
            unseen rest (discovered (edge.target :: seen) source rest ++ edge.target :: seen) :=
          unseen_anti rest (by simp)
        rw [discovered, if_pos (by simpa using taken), List.cons_append, List.length_cons, unseen_cons, unseen_cons,
          if_pos List.mem_cons_self, if_neg taken.2]
        omega
      · have later := ih seen
        have known : edge.target ∈ seen → edge.target ∈ discovered seen source rest ++ seen :=
          fun member => List.mem_append_right _ member
        rw [discovered, if_neg (by simpa using taken), unseen_cons, unseen_cons]
        split
        · omega
        · rw [if_neg (mt known ‹_›)]
          omega

theorem searches_search (edges : List (Edge S)) : ∀ (rounds : Nat) (seen queue : List NodeId),
    queue.length + unseen edges seen ≤ rounds → Searches edges seen queue (search edges rounds seen queue) := by
  intro rounds
  induction rounds with
  | zero =>
      intro seen queue enough
      obtain rfl : queue = [] := List.length_eq_zero_iff.mp (by omega)
      exact .done
  | succ rounds ih =>
      intro seen queue enough
      cases queue with
      | nil => exact .done
      | cons current queue =>
          have shrinks := length_discovered_add_unseen_le current edges seen
          refine .visit (ih _ _ ?_)
          simp only [List.length_append, List.length_cons] at enough ⊢
          omega

/-- A search finds just what can be reached from what it has seen, if the edges that leave nodes outside of its
queue lead to nodes that it has seen. -/
theorem Searches.mem_iff {edges : List (Edge S)} {seen queue reached : List NodeId}
    (search : Searches edges seen queue reached) (queued : queue ⊆ seen)
    (closed : ∀ source ∈ seen, source ∉ queue → ∀ target, Leads edges source target → target ∈ seen) (id : NodeId) :
    id ∈ reached ↔ ∃ root ∈ seen, Relation.ReflTransGen (Leads edges) root id := by
  induction search with
  | done =>
      refine ⟨fun member => ⟨id, member, .refl⟩, ?_⟩
      rintro ⟨root, known, path⟩
      induction path with
      | refl => exact known
      | tail _ step ih => exact closed _ ih List.not_mem_nil _ step
  | @visit seen queue reached current rest ih =>
      have here : current ∈ seen := queued List.mem_cons_self
      rw [ih ?queued ?closed]
      case queued =>
        intro waiting member
        rcases List.mem_append.mp member with old | fresh
        · exact List.mem_append_right _ (queued (List.mem_cons_of_mem current old))
        · exact List.mem_append_left _ fresh
      case closed =>
        intro source known idle target step
        by_cases fresh : target ∈ seen
        · exact List.mem_append_right _ fresh
        by_cases same : source = current
        · exact List.mem_append_left _ ((mem_discovered edges seen).mpr ⟨fresh, same ▸ step⟩)
        · have old : source ∈ seen := (List.mem_append.mp known).resolve_left fun found =>
            idle (List.mem_append_right _ found)
          refine absurd (closed source old ?_ target step) fresh
          rintro (_ | ⟨_, waiting⟩)
          · exact same rfl
          · exact idle (List.mem_append_left _ waiting)
      constructor
      · rintro ⟨root, known, path⟩
        rcases List.mem_append.mp known with found | old
        · exact ⟨current, here, .head ((mem_discovered edges seen).mp found).2 path⟩
        · exact ⟨root, old, path⟩
      · rintro ⟨root, known, path⟩
        exact ⟨root, List.mem_append_right _ known, path⟩

theorem searches_of_length_le (edges : List (Edge S)) (roots : List NodeId) {rounds : Nat}
    (enough : roots.length + edges.length ≤ rounds) : Searches edges roots roots (search edges rounds roots roots) :=
  searches_search edges rounds roots roots (Nat.le_trans (Nat.add_le_add_left List.countP_le_length _) enough)

theorem searches_reachable (edges : List (Edge S)) (roots : List NodeId) :
    Searches edges roots roots (reachable edges roots) :=
  searches_of_length_le edges roots (Nat.le_refl _)

theorem mem_reachable_iff (edges : List (Edge S)) (roots : List NodeId) (id : NodeId) :
    id ∈ reachable edges roots ↔ ∃ root ∈ roots, Relation.ReflTransGen (Leads edges) root id :=
  (searches_reachable edges roots).mem_iff (fun _ member => member)
    (fun _ member outside => absurd member outside) id

end FlowGraph.Graph
