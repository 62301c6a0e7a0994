import FlowGraph.Engine.Join
import FlowGraph.Proofs.Snapshot.Progress

/-!
What a join keeps of the history of its branches. Their visits since the fork stand one branch after the other
behind those of the fork, and an edge has the latest stamp that anybody has for it.
-/

namespace FlowGraph

namespace Position

theorem foldl_moveTo (walk : List NodeId) : ∀ position : Position,
    (walk.foldl moveTo position).visited = position.visited ++ walk ∧
      (walk.foldl moveTo position).traversals = position.traversals := by
  induction walk with
  | nil =>
      intro position
      exact ⟨(List.append_nil _).symm, rfl⟩
  | cons node rest ih =>
      intro position
      obtain ⟨visits, stamps⟩ := ih (position.moveTo node)
      refine ⟨?_, stamps⟩
      rw [List.foldl_cons, visits, visited_moveTo, List.append_assoc, List.singleton_append]

theorem visited_absorb (position other : Position) (since : Nat) :
    (position.absorb other since).visited = position.visited ++ other.visited.drop since :=
  (foldl_moveTo (other.visited.drop since) position).1

theorem length_visited (position : Position) : position.visited.length = position.depth + 1 := by
  simp [visited, depth]

theorem getLast?_visited (position : Position) : position.visited.getLast? = some position.current := by
  simp [visited]

def latest : Option Instant → Option Instant → Option Instant
  | some known, some time => some (if known.before time then time else known)
  | none, time => time
  | known, none => known

theorem get?_stampLatest (stamps : Dict EdgeId Instant) (edge other : EdgeId) (time : Instant) :
    (stampLatest stamps edge time).get? other =
      if Key.text edge = Key.text other then latest (stamps.get? other) (some time)
      else stamps.get? other := by
  unfold stampLatest
  by_cases same : edge = other
  · subst same
    cases found : stamps.get? edge with
    | none => simp [Dict.get?_insert, latest]
    | some known =>
        by_cases older : known.before time = true
        · simp [Dict.get?_insert, latest, older]
        · simp [latest, older, found]
  · have different : Key.text edge ≠ Key.text other := fun texts => same (Key.text_injective texts)
    cases stamps.get? edge with
    | none => simp [Dict.get?_insert, different]
    | some known =>
        by_cases older : known.before time = true
        · simp [Dict.get?_insert, different, older]
        · simp [different, older]

theorem get?_foldl_stampLatest (edge : EdgeId) (entries : List (EdgeId × Instant)) :
    entries.Pairwise (fun a b => Key.text a.1 < Key.text b.1) → ∀ stamps : Dict EdgeId Instant,
      (entries.foldl (fun stamps entry => stampLatest stamps entry.1 entry.2) stamps).get? edge =
        latest (stamps.get? edge) (Dict.find edge entries) := by
  induction entries with
  | nil =>
      intro _ stamps
      cases found : stamps.get? edge <;> simp [latest, Dict.find, found]
  | cons entry rest ih =>
      intro ascending stamps
      rw [List.foldl_cons, ih ascending.of_cons, get?_stampLatest]
      by_cases same : Key.text entry.1 = Key.text edge
      · rw [if_pos same, Dict.find_cons_same same, Dict.find_rest_none ascending same]
        cases stamps.get? edge <;> rfl
      · rw [if_neg same, Dict.find_cons_other same]

theorem traversedAt_absorb (position other : Position) (since : Nat) (edge : EdgeId) :
    (position.absorb other since).traversedAt edge =
      latest (position.traversedAt edge) (other.traversedAt edge) := by
  have stamps := (foldl_moveTo (other.visited.drop since) position).2
  simp only [traversedAt, absorb, stamps]
  exact get?_foldl_stampLatest edge _ other.traversals.ascending _

/-- The stamp is the latest one that some of the positions have for the edge; there is none if nobody has one. -/
def IsLatest (positions : List Position) (edge : EdgeId) : Option Instant → Prop
  | none => ∀ position ∈ positions, position.traversedAt edge = none
  | some time => (∃ position ∈ positions, position.traversedAt edge = some time) ∧
      ∀ position ∈ positions, ∀ other, position.traversedAt edge = some other → time.before other = false

theorem isLatest_single (position : Position) (edge : EdgeId) :
    IsLatest [position] edge (position.traversedAt edge) := by
  cases found : position.traversedAt edge with
  | none =>
      intro other member
      rwa [List.mem_singleton.mp member]
  | some time =>
      refine ⟨⟨position, List.mem_cons_self, found⟩, fun other member stamp has => ?_⟩
      rw [List.mem_singleton.mp member, found] at has
      cases has
      exact Instant.before_irrefl time

theorem IsLatest.ne_none_iff {positions : List Position} {edge : EdgeId} {stamp : Option Instant}
    (isLatest : IsLatest positions edge stamp) :
    stamp ≠ none ↔ ∃ position ∈ positions, position.traversedAt edge ≠ none := by
  cases stamp with
  | none => exact iff_of_false (fun other => other rfl) fun ⟨position, member, has⟩ => has (isLatest position member)
  | some time =>
      obtain ⟨⟨position, member, has⟩, _⟩ := isLatest
      exact iff_of_true (Option.some_ne_none _) ⟨position, member, by simp [has]⟩

theorem isLatest_renewed {positions : List Position} {edge : EdgeId} {position : Position} {time : Instant}
    (found : position.traversedAt edge = some time)
    (newest : ∀ other ∈ positions, ∀ stamp, other.traversedAt edge = some stamp → time.before stamp = false) :
    IsLatest (positions ++ [position]) edge (some time) := by
  refine ⟨⟨position, by simp, found⟩, fun other member stamp has => ?_⟩
  rcases List.mem_append.mp member with old | new
  · exact newest other old stamp has
  · rw [List.mem_singleton.mp new, found] at has
    cases has
    exact Instant.before_irrefl time

theorem IsLatest.kept {positions : List Position} {edge : EdgeId} {position : Position} {known : Instant}
    (isLatest : IsLatest positions edge (some known))
    (notNewer : ∀ time, position.traversedAt edge = some time → known.before time = false) :
    IsLatest (positions ++ [position]) edge (some known) := by
  obtain ⟨⟨holder, among, holds⟩, newest⟩ := isLatest
  refine ⟨⟨holder, List.mem_append_left _ among, holds⟩, fun other member stamp has => ?_⟩
  rcases List.mem_append.mp member with old | new
  · exact newest other old stamp has
  · rw [List.mem_singleton.mp new] at has
    exact notNewer stamp has

theorem IsLatest.concat {positions : List Position} {edge : EdgeId} {stamp : Option Instant}
    (isLatest : IsLatest positions edge stamp) (position : Position) :
    IsLatest (positions ++ [position]) edge (latest stamp (position.traversedAt edge)) := by
  cases stamp with
  | none =>
      cases found : position.traversedAt edge with
      | none =>
          intro other member
          rcases List.mem_append.mp member with old | new
          · exact isLatest other old
          · rwa [List.mem_singleton.mp new]
      | some time =>
          refine isLatest_renewed found fun other old stamp has => ?_
          rw [isLatest other old] at has
          cases has
  | some known =>
      cases found : position.traversedAt edge with
      | none =>
          refine isLatest.kept fun time has => ?_
          rw [found] at has
          cases has
      | some time =>
          simp only [latest]
          by_cases older : known.before time = true
          · rw [if_pos older]
            exact isLatest_renewed found fun other old stamp has =>
              Instant.before_trans (isLatest.2 other old stamp has) (Instant.before_asymm older)
          · rw [if_neg older]
            refine isLatest.kept fun stamp has => ?_
            rw [found] at has
            cases has
            exact Bool.eq_false_iff.mpr older

end Position

namespace Engine
variable {S : Type}

/-- The snapshots whose positions count for a join: that of the fork and those of the joined branches. -/
def sources (base : Snapshot S) (joined : List (JoinedBranch S)) : List (Snapshot S) :=
  base :: joined.map JoinedBranch.snapshot

/-- The whole history of joined branches is there, once. `walks` are their visits since the fork. -/
structure KeepsHistory (base : Snapshot S) (joined : List (JoinedBranch S)) (node : NodeId)
    (next : Snapshot S) : Prop where
  walks : ∃ walks : List (List NodeId),
    List.Forall₂ (fun branch walk => walk ≠ [] ∧ branch.snapshot.trace = base.trace ++ walk) joined walks ∧
      next.trace = base.trace ++ walks.flatten ++ [node]
  current : next.currentNode = some node
  previous : ∃ last, joined.getLast? = some last ∧
    next.position.bind Position.previous = last.snapshot.trace.getLast?
  depth : next.depth = next.trace.length - 1
  stamps : ∀ edge, Position.IsLatest ((sources base joined).filterMap Snapshot.position) edge
    (next.position.bind fun position => position.traversedAt edge)
  version : ∀ source ∈ sources base joined, source.version < next.version

def absorbSnapshot (since : Nat) (position : Position) (joined : JoinedBranch S) : Position :=
  match joined.snapshot.position with
  | some other => position.absorb other since
  | none => position

theorem visited_absorbSnapshot (since : Nat) (position : Position) (joined : JoinedBranch S) :
    (absorbSnapshot since position joined).visited =
      position.visited ++ joined.snapshot.trace.drop since := by
  unfold absorbSnapshot Snapshot.trace
  cases joined.snapshot.position with
  | none => simp
  | some other => exact Position.visited_absorb position other since

theorem absorbed_concat (base : Position) (earlier : List (JoinedBranch S)) (last : JoinedBranch S) :
    absorbed base (earlier ++ [last]) = absorbSnapshot base.visited.length (absorbed base earlier) last := by
  simp only [absorbed, List.foldl_append, List.foldl_cons, List.foldl_nil]
  rfl

theorem visited_absorbed (base : Position) (joined : List (JoinedBranch S)) :
    (absorbed base joined).visited =
      base.visited ++ (joined.map fun branch => branch.snapshot.trace.drop base.visited.length).flatten := by
  induction joined using List.reverseRecOn with
  | nil => simp [absorbed]
  | append_singleton earlier last ih =>
      rw [absorbed_concat, visited_absorbSnapshot, ih]
      simp

theorem isLatest_absorbed (base : Position) (edge : EdgeId) (joined : List (JoinedBranch S)) :
    Position.IsLatest (base :: (joined.map JoinedBranch.snapshot).filterMap Snapshot.position) edge
      ((absorbed base joined).traversedAt edge) := by
  induction joined using List.reverseRecOn with
  | nil => exact Position.isLatest_single base edge
  | append_singleton earlier last ih =>
      rw [absorbed_concat]
      unfold absorbSnapshot
      simp only [List.map_append, List.filterMap_append, List.map_cons, List.map_nil, List.filterMap_cons,
        List.filterMap_nil]
      cases last.snapshot.position with
      | none => simpa using ih
      | some other =>
          simp only [Position.traversedAt_absorb]
          exact ih.concat other

theorem version_le_highest (joined : List (JoinedBranch S)) :
    ∀ branch ∈ joined, branch.snapshot.version ≤ highestVersion joined := by
  induction joined using List.reverseRecOn with
  | nil => simp
  | append_singleton earlier last ih =>
      intro branch member
      simp only [highestVersion, List.foldl_append, List.foldl_cons, List.foldl_nil] at ih ⊢
      rcases List.mem_append.mp member with old | new
      · exact Nat.le_trans (ih branch old) (Nat.le_max_left _ _)
      · rw [List.mem_singleton.mp new]
        exact Nat.le_max_right _ _

variable {base : Snapshot S} {position : Position} {joined : List (JoinedBranch S)}

theorem position_reconciled (node : NodeId) (merged : Merged S) (readings : Readings) :
    (reconciled base position node joined merged readings).position =
      some ((absorbed position joined).moveTo node) := rfl

theorem version_reconciled (node : NodeId) (merged : Merged S) (readings : Readings) :
    (reconciled base position node joined merged readings).version =
      max (base.version + 4) (highestVersion joined) + 1 := rfl

theorem drop_walks (standing : base.position = some position)
    (branches : ∀ branch ∈ joined, ∃ walk, walk ≠ [] ∧ branch.snapshot.trace = base.trace ++ walk) :
    List.Forall₂ (fun branch walk => walk ≠ [] ∧ branch.snapshot.trace = base.trace ++ walk) joined
      (joined.map fun branch => branch.snapshot.trace.drop position.visited.length) := by
  have same : base.trace = position.visited := by simp only [Snapshot.trace, standing]
  induction joined with
  | nil => exact .nil
  | cons first rest ih =>
      refine .cons ?_ (ih fun branch member => branches branch (List.mem_cons_of_mem _ member))
      obtain ⟨walk, moved, whole⟩ := branches first List.mem_cons_self
      simp only [whole, same, List.drop_left]
      exact ⟨moved, trivial⟩

theorem keepsHistory_reconciled (standing : base.position = some position) (somebody : joined ≠ [])
    (branches : ∀ branch ∈ joined, ∃ walk, walk ≠ [] ∧ branch.snapshot.trace = base.trace ++ walk)
    (node : NodeId) (merged : Merged S) (readings : Readings) :
    KeepsHistory base joined node (reconciled base position node joined merged readings) := by
  have same : base.trace = position.visited := by simp only [Snapshot.trace, standing]
  have visits := visited_absorbed position joined
  constructor
  · refine ⟨_, drop_walks standing branches, ?_⟩
    rw [same, ← visits, ← Position.visited_moveTo]
    rfl
  · rfl
  · obtain ⟨earlier, last, rfl⟩ := (List.eq_nil_or_concat joined).resolve_left somebody
    rw [List.concat_eq_append] at branches visits ⊢
    refine ⟨last, by simp, ?_⟩
    obtain ⟨walk, moved, whole⟩ := branches last (by simp)
    have ends : (absorbed position (earlier ++ [last])).visited.getLast? = last.snapshot.trace.getLast? := by
      rw [visits, whole, same]
      simp [List.getLast?_append, whole, same, List.getLast?_eq_some_getLast moved]
    rw [← ends, Position.getLast?_visited]
    rfl
  · simp only [Snapshot.depth, Snapshot.trace, position_reconciled, Position.length_visited, Nat.add_sub_cancel]
  · intro edge
    have latest := isLatest_absorbed position edge joined
    simp only [sources, List.filterMap_cons, standing]
    exact latest
  · intro source member
    rw [version_reconciled]
    rcases List.mem_cons.mp member with rfl | joins
    · omega
    · obtain ⟨branch, among, rfl⟩ := List.mem_map.mp joins
      have atMost := version_le_highest joined branch among
      omega

theorem advances_reconciled (standing : base.position = some position) (node : NodeId) (merged : Merged S)
    (readings : Readings) :
    base.Advances (reconciled base position node joined merged readings) := by
  have same : base.trace = position.visited := by simp only [Snapshot.trace, standing]
  have moved : (reconciled base position node joined merged readings).trace = base.trace ++
      ((joined.map fun branch => branch.snapshot.trace.drop position.visited.length).flatten ++ [node]) := by
    rw [same, ← List.append_assoc, ← visited_absorbed, ← Position.visited_moveTo]
    rfl
  have rises : base.version < (reconciled base position node joined merged readings).version := by
    rw [version_reconciled]
    omega
  refine ⟨⟨rfl, rfl, Nat.le_of_lt rises, ?_, ⟨_, moved.symm⟩⟩, rises, _, by simp, moved⟩
  have step (first middle : Instant) (now : Instant) (known : middle.before first = false) :
      (middle.later now).before first = false :=
    Instant.before_trans known (Instant.later_not_before middle now)
  exact step _ _ _ (step _ _ _ (step _ _ _ (step _ _ _ (Instant.later_not_before _ _))))

end Engine
end FlowGraph
