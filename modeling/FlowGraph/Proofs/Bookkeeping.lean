import FlowGraph.Proofs.Snapshot.Persistence

/-!
What a position says of itself stays true, however it is moved. Its current node and its depth can be read off
its history, but documents hold them on their own; nothing that happens to a position makes them differ, and
documents in which they differ are refused.
-/

namespace FlowGraph.Position

inductive Operation where
  | moveTo (node : NodeId)
  | traverse (edge : EdgeId) (node : NodeId) (time : Instant)
  | resetTo (node : NodeId)
  | absorb (other : Position) (since : Nat)

/-- The current node stands at the end of the history, and the depth counts the visits before it. -/
structure Fields.Consistent (fields : Fields) : Prop where
  visits : fields.visited ≠ []
  ends : fields.visited.getLast? = some fields.current
  counts : fields.depth = fields.visited.length - 1

namespace Fields

def push (fields : Fields) (node : NodeId) (previous : Option NodeId) : Fields :=
  let visited := fields.visited ++ [node]
  { fields with current := node, previous, visited, depth := visited.length - 1 }

def moveTo (fields : Fields) (node : NodeId) : Fields := fields.push node (some fields.current)

end Fields

namespace Operation

def perform : Operation → Position → Position
  | moveTo node, position => position.moveTo node
  | traverse edge node time, position => position.traverse edge node time
  | resetTo node, position => position.resetTo node
  | absorb other since, position => position.absorb other since

def record : Operation → Fields → Fields
  | moveTo node, fields => fields.moveTo node
  | traverse edge node time, fields =>
    let next := fields.moveTo node
    { next with traversals := next.traversals.insert edge time }
  | resetTo node, fields => fields.push node none
  | absorb other since, fields =>
    let next := (other.visited.drop since).foldl Fields.moveTo fields
    { next with
      traversals := other.traversals.entries.foldl
        (fun stamps entry => stampLatest stamps entry.1 entry.2) next.traversals }

def walk : Operation → List NodeId
  | moveTo node | traverse _ node _ | resetTo node => [node]
  | absorb other since => other.visited.drop since

def Stamps (edge : EdgeId) : Operation → Prop
  | moveTo _ | resetTo _ => False
  | traverse along _ _ => along = edge
  | absorb other _ => other.traversedAt edge ≠ none

end Operation

def after (start : Position) (operations : List Operation) : Position :=
  operations.foldl (fun position operation => operation.perform position) start

/-- What can be said of a position by the operations that led to it. -/
structure Accounts (start : Position) (operations : List Operation) (last : Position) : Prop where
  fields : last.fields = operations.foldl (fun fields operation => operation.record fields) start.fields
  consistent : last.fields.Consistent
  history : last.visited = start.visited ++ operations.flatMap Operation.walk
  counts : ∀ node, last.visitCount node = last.visited.count node
  visits : ∀ node, last.hasVisited node = true ↔ 0 < last.visitCount node
  cycle : last.hasCycle = true ↔ 2 ≤ last.visitCount last.current
  stamps : ∀ edge, last.traversedAt edge ≠ none ↔
    start.traversedAt edge ≠ none ∨ ∃ operation ∈ operations, operation.Stamps edge

structure Keeps (last first : Position) : Prop where
  history : first.visited <+: last.visited
  stamps : ∀ edge, first.traversedAt edge ≠ none → last.traversedAt edge ≠ none

def Backed (position : Position) : Prop :=
  ∀ before, position.previous = some before → ∃ earlier, position.visited = earlier ++ [before, position.current]

theorem fields_push (position : Position) (node : NodeId) (previous : Option NodeId) :
    (position.push node previous).fields = position.fields.push node previous := by
  simp [fields, Fields.push, push, visited, depth]

theorem fields_moveTo (position : Position) (node : NodeId) :
    (position.moveTo node).fields = position.fields.moveTo node :=
  fields_push position node (some position.current)

theorem fields_perform (operation : Operation) (position : Position) :
    (operation.perform position).fields = operation.record position.fields := by
  cases operation with
  | moveTo node => exact fields_moveTo position node
  | traverse edge node time =>
      simp only [Operation.record, ← fields_moveTo]
      rfl
  | resetTo node => exact fields_push position node none
  | absorb other since =>
      have walked : (other.visited.drop since).foldl Fields.moveTo position.fields =
          ((other.visited.drop since).foldl moveTo position).fields :=
        List.foldl_hom fields fun position node => (fields_moveTo position node).symm
      simp only [Operation.record, walked]
      rfl

theorem visited_perform (operation : Operation) (position : Position) :
    (operation.perform position).visited = position.visited ++ operation.walk := by
  cases operation with
  | moveTo node => exact position.visited_moveTo node
  | traverse edge node time => exact position.visited_traverse edge node time
  | resetTo node => exact position.visited_resetTo node
  | absorb other since => exact position.visited_absorb other since

theorem latest_ne_none_iff (first second : Option Instant) :
    latest first second ≠ none ↔ first ≠ none ∨ second ≠ none := by
  cases first <;> cases second <;> simp [latest]

theorem traversedAt_perform (operation : Operation) (position : Position) (edge : EdgeId) :
    (operation.perform position).traversedAt edge ≠ none ↔
      position.traversedAt edge ≠ none ∨ operation.Stamps edge := by
  cases operation with
  | moveTo node => exact (or_iff_left id).symm
  | resetTo node => exact (or_iff_left id).symm
  | traverse along node time =>
      simp only [Operation.perform, Operation.Stamps, traversedAt, traverse, moveTo, push, Dict.get?_insert]
      by_cases same : along = edge
      · simp [same]
      · have apart : ¬Key.text along = Key.text edge := fun texts => same (Key.text_injective texts)
        simp [apart, same]
  | absorb other since =>
      rw [Operation.perform, traversedAt_absorb]
      exact latest_ne_none_iff _ _

theorem backed_start (node : NodeId) : (start node).Backed := fun _ previous => nomatch previous

theorem backed_moveTo (position : Position) (node : NodeId) : (position.moveTo node).Backed := by
  rintro before ⟨⟩
  refine ⟨position.behind.reverse, ?_⟩
  rw [visited_moveTo, visited_eq_append, List.append_assoc]
  rfl

theorem backed_foldl_moveTo (walk : List NodeId) : ∀ {position : Position}, position.Backed →
    (walk.foldl moveTo position).Backed := by
  induction walk with
  | nil => exact fun backed => backed
  | cons node rest ih => exact fun _ => ih (backed_moveTo _ node)

theorem backed_perform (operation : Operation) {position : Position} (backed : position.Backed) :
    (operation.perform position).Backed := by
  cases operation with
  | moveTo node => exact backed_moveTo position node
  | traverse edge node time => exact backed_moveTo position node
  | resetTo node => exact fun _ previous => nomatch previous
  | absorb other since => exact backed_foldl_moveTo (other.visited.drop since) backed

theorem consistent_fields (position : Position) : position.fields.Consistent where
  visits := by simp [fields, visited]
  ends := position.getLast?_visited
  counts := by simp [fields, visited, depth]

theorem visitCount_eq (position : Position) (node : NodeId) :
    position.visitCount node = position.visited.count node := by
  rw [visited, List.count_reverse]
  rfl

theorem hasVisited_iff (position : Position) (node : NodeId) :
    position.hasVisited node = true ↔ 0 < position.visitCount node := by
  rw [hasVisited, visitCount, List.countP_pos_iff, List.any_eq_true]

theorem hasCycle_iff (position : Position) :
    position.hasCycle = true ↔ 2 ≤ position.visitCount position.current := by
  rw [hasCycle, visitCount, List.countP_cons_of_pos (by simp), List.any_eq_true, ← List.countP_pos_iff]
  omega

theorem after_append (start : Position) (earlier later : List Operation) :
    start.after (earlier ++ later) = (start.after earlier).after later :=
  List.foldl_append

theorem fields_after (start : Position) (operations : List Operation) :
    (start.after operations).fields =
      operations.foldl (fun fields operation => operation.record fields) start.fields :=
  (List.foldl_hom fields fun position operation => (fields_perform operation position).symm).symm

theorem visited_after (operations : List Operation) : ∀ start : Position,
    (start.after operations).visited = start.visited ++ operations.flatMap Operation.walk := by
  induction operations with
  | nil => exact fun start => (List.append_nil _).symm
  | cons operation rest ih =>
      intro start
      rw [List.flatMap_cons, ← List.append_assoc, ← visited_perform]
      exact ih (operation.perform start)

theorem traversedAt_after (edge : EdgeId) (operations : List Operation) : ∀ start : Position,
    (start.after operations).traversedAt edge ≠ none ↔
      start.traversedAt edge ≠ none ∨ ∃ operation ∈ operations, operation.Stamps edge := by
  induction operations with
  | nil => simp [after]
  | cons operation rest ih =>
      intro start
      rw [List.exists_mem_cons_iff, ← or_assoc, ← traversedAt_perform]
      exact ih (operation.perform start)

theorem backed_after (operations : List Operation) : ∀ {start : Position}, start.Backed →
    (start.after operations).Backed := by
  induction operations with
  | nil => exact fun backed => backed
  | cons operation rest ih => exact fun backed => ih (backed_perform operation backed)

theorem accounts_after (start : Position) (operations : List Operation) :
    Accounts start operations (start.after operations) where
  fields := fields_after start operations
  consistent := consistent_fields _
  history := visited_after operations start
  counts := visitCount_eq _
  visits := hasVisited_iff _
  cycle := hasCycle_iff _
  stamps edge := traversedAt_after edge operations start

theorem keeps_after (start : Position) (earlier later : List Operation) :
    (start.after (earlier ++ later)).Keeps (start.after earlier) := by
  rw [after_append]
  constructor
  case history =>
    rw [visited_after later]
    exact List.prefix_append _ _
  case stamps => exact fun edge stamped => (traversedAt_after edge later _).mpr (.inl stamped)

theorem ofFields_succeeds_iff (fields : Fields) :
    (∃ position, ofFields fields = .ok position) ↔ fields.Consistent := by
  simp only [ofFields_eq_ok]
  constructor
  · rintro ⟨position, rfl⟩
    exact consistent_fields position
  · rintro ⟨_, ends, counts⟩
    obtain ⟨earlier, visited⟩ := List.getLast?_eq_some_iff.mp ends
    refine ⟨⟨fields.current, earlier.reverse, fields.previous, fields.traversals⟩, ?_⟩
    cases fields
    simp only at visited counts
    simp [Position.fields, Position.visited, depth, visited, counts]

theorem load_succeeds_iff (json : Json) :
    (∃ position, load json = .ok position) ↔ ∃ fields, loadFields json = .ok fields ∧ fields.Consistent := by
  simp only [load_eq_ok]
  constructor
  · exact fun ⟨position, loaded⟩ => ⟨position.fields, loaded, consistent_fields position⟩
  · rintro ⟨fields, loaded, consistent⟩
    obtain ⟨position, made⟩ := (ofFields_succeeds_iff fields).mpr consistent
    exact ⟨position, loaded.trans (congrArg Except.ok (ofFields_eq_ok.mp made))⟩

/-- Whatever is done to a position, its fields agree with each other and with the operations, and nothing of its
history is lost. A document loads just if its fields agree, whatever previous node and stamps it gives. -/
theorem books_stay_consistent :
    (∀ (start : Position) (operations : List Operation), Accounts start operations (start.after operations)) ∧
    (∀ (start : Position) (earlier later : List Operation),
      (start.after (earlier ++ later)).Keeps (start.after earlier)) ∧
    (∀ (node : NodeId) (operations : List Operation), ((start node).after operations).Backed) ∧
    (∀ json, (∃ position, load json = .ok position) ↔ ∃ fields, loadFields json = .ok fields ∧ fields.Consistent) ∧
    ∀ json position, load json = .ok position ↔ loadFields json = .ok position.fields :=
  ⟨accounts_after, keeps_after, fun node operations => backed_after operations (backed_start node),
    load_succeeds_iff,
    fun _ _ => load_eq_ok⟩

section

def peakNode : NodeId := ⟨"peak", by decide +kernel, by decide⟩
def valleyNode : NodeId := ⟨"valley", by decide +kernel, by decide⟩
def moonNode : NodeId := ⟨"moon", by decide +kernel, by decide⟩

/-- Somebody who went from the peak to the valley, and says that it was from the moon. -/
def diary (depth : Int) : Json :=
  .object [("current_node", .string "valley"), ("depth", .int depth), ("previous_node", .string "moon"),
    ("visited", .array [.string "peak", .string "valley"])]

def hiker : Position := ⟨valleyNode, [peakNode], some moonNode, .empty⟩

theorem diary_is_continued : load (diary 1) = .ok hiker ∧ (¬∃ position, load (diary 2) = .ok position) ∧
    (hiker.after [.absorb hiker 1, .resetTo peakNode]).visited = [peakNode, valleyNode, valleyNode, peakNode] ∧
    (hiker.after [.absorb hiker 1, .resetTo peakNode]).fields.Consistent ∧
    (hiker.after [.absorb hiker 1, .resetTo peakNode]).hasCycle = true := by
  obtain ⟨accounts, _, _, loads, source⟩ := books_stay_consistent
  have reached := accounts hiker [.absorb hiker 1, .resetTo peakNode]
  refine ⟨(source _ _).mpr rfl, fun refused => ?_, reached.history, reached.consistent,
    reached.cycle.mpr (by decide +kernel)⟩
  obtain ⟨fields, read, consistent⟩ := (loads _).mp refused
  have given : loadFields (diary 2) = .ok ⟨valleyNode, some moonNode, [peakNode, valleyNode], .empty, 2⟩ := rfl
  cases given.symm.trans read
  exact absurd consistent.counts (by decide)

end

end FlowGraph.Position
