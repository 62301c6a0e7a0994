import FlowGraph.Proofs.Loop.Ends
import FlowGraph.Proofs.Snapshot.History

/-!
How a run has come to the nodes in a trace. Each visit after the first belongs to one way of going on: along an
edge, into a branch of a fork, to a fallback, or behind the join of some branches. A way is justified by what
the run has on record of the state that took it; a join brings in all that its branches have done since the
fork.
-/

namespace FlowGraph
variable {W S : Type}

/-- A branch that has joined: its first node, the state whose node asked to join, the edge that leads from there
to the join, and the state that it reports. -/
structure Arrival (S : Type) where
  branch : NodeId
  given : Snapshot S
  edge : Edge S
  last : Snapshot S

def Arrival.joins (node : NodeId) (arrival : Arrival S) : JoinedBranch S := ⟨arrival.branch, node, arrival.last⟩

inductive Way (S : Type) where
  | along (edge : Edge S)
  | forked (source target : NodeId)
  | recovered (source fallback : NodeId)
  | joined (arrivals : List (Arrival S)) (node : NodeId)

namespace Way

def node : Way S → NodeId
  | along edge => edge.target
  | forked _ target => target
  | recovered _ fallback => fallback
  | joined _ node => node

def source? : Way S → Option NodeId
  | along edge => some edge.source
  | recovered source _ => some source
  | forked .. => none
  | joined .. => none

def mode? (mode : Mode) : Way S → Option Mode
  | along _ => some mode
  | forked .. => some .branch
  | recovered .. => some mode
  | joined .. => none

end Way

structure Answered (notes : List (Note S)) (given : Snapshot S) (current : NodeId) (command : Command S) : Prop where
  standing : given.currentNode = some current
  noted : .told (.nodeCompleted current given command) ∈ notes

theorem Answered.mono {notes more : List (Note S)} {given : Snapshot S} {current : NodeId} {command : Command S}
    (answered : Answered notes given current command) (adds : notes ⊆ more) : Answered more given current command :=
  ⟨answered.standing, adds answered.noted⟩

theorem Answered.position {notes : List (Note S)} {given : Snapshot S} {current : NodeId} {command : Command S}
    (answered : Answered notes given current command) : ∃ position, given.position = some position := by
  obtain ⟨position, stands, _⟩ := Option.map_eq_some_iff.mp answered.standing
  exact ⟨position, stands⟩

namespace Engine

structure Bears (engine : Engine W S) (given : Snapshot S) (edge : Edge S) : Prop where
  declared : edge ∈ engine.topology.edges
  source : given.currentNode = some edge.source
  admitted : engine.config.enforceEdgeConditions = true → edge.admits given = .ok true

structure Arrives (engine : Engine W S) (notes : List (Note S)) (node : NodeId) (arrival : Arrival S) : Prop where
  asked : ∃ command policy timeout data, Answered notes arrival.given arrival.edge.source command ∧
    command.action = .join node policy timeout data
  bears : engine.Bears arrival.given arrival.edge
  target : arrival.edge.target = node
  reports : arrival.last.position = arrival.given.position

/-- What justifies that a loop in this mode has come from the given snapshot to the next one, for each of the
ways. -/
inductive Justified (engine : Engine W S) (notes : List (Note S)) (mode : Mode) (given next : Snapshot S) :
    Way S → Prop where
  | along {edge : Edge S} {command : Command S} {condition : Option (Condition S)} {data : Option S}
      {position : Position} {time : Instant} (answered : Answered notes given edge.source command)
      (moves : Moves mode command edge.target condition data) (bears : engine.Bears given edge)
      (noted : .told (.stateUpdated given next) ∈ notes) (standing : given.position = some position)
      (moved : next.position = some (position.traverse edge.id edge.target time)) :
      Justified engine notes mode given next (.along edge)
  | forked {source target : NodeId} {command : Command S} {targets : List NodeId} {strategy : ForkStrategy}
      {conditions : Dict NodeId (Condition S)} {data : Option S} {position : Position}
      (answered : Answered notes given source command)
      (asks : command.action = .fork targets strategy conditions data)
      (among : target ∈ targets)
      (adjacent : ∃ edge ∈ engine.topology.edges, edge.source = source ∧ edge.target = target)
      (standing : given.position = some position) (moved : next.position = some (position.moveTo target)) :
      Justified engine notes mode given next (.forked source target)
  | recovered {source fallback : NodeId} {command : Command S} {message : String} {position : Position}
      (answered : Answered notes given source command) (asks : command.action = .error message true (some fallback))
      (noted : .told (.stateUpdated given next) ∈ notes) (standing : given.position = some position)
      (moved : next.position = some (position.moveTo fallback)) :
      Justified engine notes mode given next (.recovered source fallback)
  | joined {source node : NodeId} {command : Command S} {targets : List NodeId} {strategy : ForkStrategy}
      {conditions : Dict NodeId (Condition S)} {data : Option S} {base : Snapshot S} {arrivals : List (Arrival S)}
      {position : Position} (answered : Answered notes given source command)
      (asks : command.action = .fork targets strategy conditions data) (same : base.position = given.position)
      (merged : .merges base (arrivals.map (Arrival.joins node)) ∈ notes) (somebody : arrivals ≠ [])
      (joins : ∀ arrival ∈ arrivals, engine.Arrives notes node arrival)
      (noted : .told (.stateUpdated given next) ∈ notes) (standing : given.position = some position)
      (moved : next.position = some ((absorbed position (arrivals.map (Arrival.joins node))).moveTo node)) :
      Justified engine notes mode given next (.joined arrivals node)

/-- The ways of a branch since its fork, before it joins. -/
def walkOf (source : NodeId) (walk : Arrival S × List (Way S)) : List (Way S) :=
  .forked source walk.1.branch :: walk.2

/-- It is on record how a loop in this mode has come to the state since the start of the run, and all ways are
justified. Joined branches have gone their ways since the fork one after the other. -/
inductive Reached (engine : Engine W S) (notes : List (Note S)) : Mode → Snapshot S → List (Way S) → Prop where
  | begun {first : Snapshot S} (noted : .told (.workflowStarted first) ∈ notes)
      (standing : first.position = some (.start engine.topology.entry)) : Reached engine notes .root first []
  | gone {mode later : Mode} {given next : Snapshot S} {ways : List (Way S)} {way : Way S}
      (reached : Reached engine notes mode given ways) (justified : engine.Justified notes mode given next way)
      (goesOn : way.mode? mode = some later) : Reached engine notes later next (ways ++ [way])
  | rejoined {mode : Mode} {given next : Snapshot S} {ways : List (Way S)} {source node : NodeId}
      {walks : List (Arrival S × List (Way S))} (reached : Reached engine notes mode given ways)
      (justified : engine.Justified notes mode given next (.joined (walks.map Prod.fst) node))
      (walked : ∀ walk ∈ walks, Reached engine notes .branch walk.1.given (ways ++ walkOf source walk)) :
      Reached engine notes mode next (ways ++ walks.flatMap (walkOf source) ++ [.joined (walks.map Prod.fst) node])

/-- A way is justified by a state that the run has reached before by some of the ways before, and it leads on
from the node visited last, unless it is that of a branch or behind a join. -/
structure Accounted (engine : Engine W S) (notes : List (Note S)) (before : List (Way S)) (way : Way S) : Prop where
  justified : ∃ mode given own next, engine.Reached notes mode given own ∧ own.Sublist before ∧
    engine.Justified notes mode given next way
  behind : ∀ source, way.source? = some source →
    (engine.topology.entry :: before.map Way.node).getLast? = some source

/-- Where a state comes from: from the entry node, by one way for each further visit. Each way can be accounted
for, and the edges among them are those that have a stamp. -/
structure Provenance (engine : Engine W S) (notes : List (Note S)) (state : Snapshot S) (ways : List (Way S)) :
    Prop where
  trace : state.trace = engine.topology.entry :: ways.map Way.node
  accounted : ∀ before way, before ++ [way] <+: ways → engine.Accounted notes before way
  stamps : ∀ id, (state.position.bind fun position => position.traversedAt id) ≠ none ↔
    ∃ edge, .along edge ∈ ways ∧ edge.id = id

/-- The position has the visits and stamps of these ways, and no others. -/
structure Shows (first : NodeId) (ways : List (Way S)) (position : Position) : Prop where
  visited : position.visited = first :: ways.map Way.node
  stamped : ∀ id, position.traversedAt id ≠ none ↔ ∃ edge, .along edge ∈ ways ∧ edge.id = id

section
variable {engine : Engine W S} {notes more : List (Note S)} {mode : Mode} {given next state : Snapshot S}
  {ways before base done walk : List (Way S)} {way : Way S} {first : NodeId} {position : Position}

theorem Arrives.mono {node : NodeId} {arrival : Arrival S} (joins : engine.Arrives notes node arrival)
    (adds : notes ⊆ more) : engine.Arrives more node arrival := by
  obtain ⟨command, policy, timeout, data, answered, asks⟩ := joins.asked
  exact ⟨⟨command, policy, timeout, data, answered.mono adds, asks⟩, joins.bears, joins.target, joins.reports⟩

theorem Justified.mono (justified : engine.Justified notes mode given next way) (adds : notes ⊆ more) :
    engine.Justified more mode given next way := by
  cases justified with
  | along answered moves bears noted standing moved =>
      exact .along (answered.mono adds) moves bears (adds noted) standing moved
  | forked answered asks among adjacent standing moved =>
      exact .forked (answered.mono adds) asks among adjacent standing moved
  | recovered answered asks noted standing moved =>
      exact .recovered (answered.mono adds) asks (adds noted) standing moved
  | joined answered asks same merged somebody joins noted standing moved =>
      exact .joined (answered.mono adds) asks same (adds merged) somebody
        (fun arrival member => (joins arrival member).mono adds) (adds noted) standing moved

theorem Reached.mono (reached : engine.Reached notes mode state ways) (adds : notes ⊆ more) :
    engine.Reached more mode state ways := by
  induction reached with
  | begun noted standing => exact .begun (adds noted) standing
  | gone _ justified goesOn ih => exact .gone ih (justified.mono adds) goesOn
  | rejoined _ justified _ ih branches => exact .rejoined ih (justified.mono adds) branches

namespace Shows

theorem start : (Shows first ([] : List (Way S)) (.start first)) :=
  ⟨rfl, fun id => by simp [Position.traversedAt, Position.start, Dict.get?, Dict.empty]⟩

theorem traverse (shown : Shows first ways position) (edge : Edge S) (time : Instant) :
    Shows first (ways ++ [.along edge]) (position.traverse edge.id edge.target time) := by
  constructor
  · rw [Position.visited_traverse, shown.visited, List.map_append, List.cons_append]
    rfl
  · intro id
    have stamps : (position.traverse edge.id edge.target time).traversedAt id =
        if Key.text edge.id = Key.text id then some time else position.traversedAt id := Dict.get?_insert ..
    rw [stamps]
    by_cases same : edge.id = id
    · subst same
      exact iff_of_true (by simp) ⟨edge, by simp, rfl⟩
    · have apart : Key.text edge.id ≠ Key.text id := fun texts => same (Key.text_injective texts)
      rw [if_neg apart, shown.stamped]
      refine exists_congr fun other => and_congr_left fun texts => ?_
      subst texts
      simp only [List.mem_append, List.mem_singleton, Way.along.injEq]
      exact ⟨.inl, fun either => either.resolve_right fun equal => same (congrArg Edge.id equal).symm⟩

theorem moveTo (shown : Shows first ways position) (stays : ∀ edge, way ≠ .along edge) :
    Shows first (ways ++ [way]) (position.moveTo way.node) := by
  constructor
  · rw [Position.visited_moveTo, shown.visited, List.map_append, List.cons_append]
    rfl
  · intro id
    have stamps : (position.moveTo way.node).traversedAt id = position.traversedAt id := rfl
    rw [stamps, shown.stamped]
    refine exists_congr fun edge => and_congr_left fun _ => ?_
    simp only [List.mem_append, List.mem_singleton]
    exact ⟨.inl, fun either => either.resolve_right fun equal => stays edge equal.symm⟩

theorem absorbed (shown : Shows first ways position) {source : NodeId} (node : NodeId)
    {walks : List (Arrival S × List (Way S))}
    (reported : ∀ walk ∈ walks, ∃ other, walk.1.last.position = some other ∧
      Shows first (ways ++ walkOf source walk) other) :
    Shows first (ways ++ walks.flatMap (walkOf source))
      (absorbed position ((walks.map Prod.fst).map (Arrival.joins node))) := by
  constructor
  · have visits : ∀ walk ∈ walks, (walk.1.last.trace.drop position.visited.length) =
        (walkOf source walk).map Way.node := by
      intro walk member
      obtain ⟨other, stands, own⟩ := reported walk member
      have trace : walk.1.last.trace = position.visited ++ (walkOf source walk).map Way.node := by
        simp only [Snapshot.trace, stands, own.visited, shown.visited, List.map_append, List.cons_append]
      rw [trace, List.drop_left]
    have drops : ((walks.map Prod.fst).map (Arrival.joins node)).map
        (fun branch => branch.snapshot.trace.drop position.visited.length) =
          walks.map fun walk => (walkOf source walk).map Way.node := by
      simp only [List.map_map]
      exact List.map_congr_left visits
    rw [visited_absorbed, drops, shown.visited]
    simp [List.flatMap, Function.comp_def]
  · intro id
    rw [(isLatest_absorbed position id _).ne_none_iff]
    constructor
    · rintro ⟨other, member, stamped⟩
      rcases List.mem_cons.mp member with rfl | branch
      · obtain ⟨edge, among, same⟩ := (shown.stamped id).mp stamped
        exact ⟨edge, List.mem_append_left _ among, same⟩
      · simp only [List.map_map, List.mem_filterMap, List.mem_map] at branch
        obtain ⟨_, ⟨walk, among, rfl⟩, stands⟩ := branch
        obtain ⟨position, standing, own⟩ := reported walk among
        obtain rfl : position = other := Option.some.inj (standing.symm.trans stands)
        obtain ⟨edge, taken, same⟩ := (own.stamped id).mp stamped
        refine ⟨edge, ?_, same⟩
        rcases List.mem_append.mp taken with before | since
        · exact List.mem_append_left _ before
        · exact List.mem_append_right _ (List.mem_flatMap.mpr ⟨walk, among, since⟩)
    · rintro ⟨edge, member, same⟩
      rcases List.mem_append.mp member with before | since
      · exact ⟨position, List.mem_cons_self, (shown.stamped id).mpr ⟨edge, before, same⟩⟩
      · obtain ⟨walk, among, taken⟩ := List.mem_flatMap.mp since
        obtain ⟨other, stands, own⟩ := reported walk among
        refine ⟨other, List.mem_cons_of_mem _ ?_, (own.stamped id).mpr ⟨edge, List.mem_append_right _ taken, same⟩⟩
        simp only [List.map_map, List.mem_filterMap, List.mem_map]
        exact ⟨_, ⟨walk, among, rfl⟩, stands⟩

end Shows

theorem Reached.shows (reached : engine.Reached notes mode state ways) :
    ∃ position, state.position = some position ∧ Shows engine.topology.entry ways position := by
  induction reached with
  | begun noted standing => exact ⟨_, standing, .start⟩
  | gone _ justified goesOn ih =>
      obtain ⟨position, stands, shown⟩ := ih
      cases justified with
      | along answered moves bears noted standing moved =>
          obtain rfl : _ = position := Option.some.inj (standing.symm.trans stands)
          exact ⟨_, moved, shown.traverse _ _⟩
      | forked answered asks among adjacent standing moved =>
          obtain rfl : _ = position := Option.some.inj (standing.symm.trans stands)
          exact ⟨_, moved, shown.moveTo (by simp)⟩
      | recovered answered asks noted standing moved =>
          obtain rfl : _ = position := Option.some.inj (standing.symm.trans stands)
          exact ⟨_, moved, shown.moveTo (by simp)⟩
      | joined => cases goesOn
  | @rejoined mode given next ways source node walks _ justified _ ih branches =>
      obtain ⟨position, stands, shown⟩ := ih
      cases justified with
      | joined answered asks same merged somebody joins noted standing moved =>
          obtain rfl : _ = position := Option.some.inj (standing.symm.trans stands)
          have reported : ∀ walk ∈ walks, ∃ other, walk.1.last.position = some other ∧
              Shows engine.topology.entry (ways ++ walkOf source walk) other := by
            intro walk member
            obtain ⟨other, stood, has⟩ := branches walk member
            exact ⟨other, (joins walk.1 (List.mem_map.mpr ⟨walk, member, rfl⟩)).reports.trans stood, has⟩
          exact ⟨_, moved, (shown.absorbed node reported).moveTo (by simp)⟩

theorem Reached.last (reached : engine.Reached notes mode state ways) :
    (engine.topology.entry :: ways.map Way.node).getLast? = state.currentNode := by
  obtain ⟨position, stands, shown⟩ := reached.shows
  rw [← shown.visited, Position.getLast?_visited, Snapshot.currentNode, stands]
  rfl

theorem Justified.source (justified : engine.Justified notes mode given next way) :
    ∀ source, way.source? = some source → given.currentNode = some source := by
  cases justified with
  | along answered =>
      rintro _ ⟨⟩
      exact answered.standing
  | recovered answered =>
      rintro _ ⟨⟩
      exact answered.standing
  | forked => rintro _ ⟨⟩
  | joined => rintro _ ⟨⟩

theorem prefix_append_cases {α : Type} {before first rest : List α} {last : α}
    (starts : before ++ [last] <+: first ++ rest) :
    before ++ [last] <+: first ∨ ∃ inner, before = first ++ inner ∧ inner ++ [last] <+: rest := by
  rcases List.prefix_or_prefix_of_prefix starts (List.prefix_append first rest) with short | long
  · exact .inl short
  · rcases List.prefix_concat_iff.mp long with rfl | ⟨inner, rfl⟩
    · exact .inl (List.prefix_refl _)
    · rw [List.append_assoc] at starts
      exact .inr ⟨inner, rfl, (List.prefix_append_right_inj first).mp starts⟩

/-- Each of the ways can be accounted for. -/
def AllAccounted (engine : Engine W S) (notes : List (Note S)) (ways : List (Way S)) : Prop :=
  ∀ before way, before ++ [way] <+: ways → engine.Accounted notes before way

theorem AllAccounted.concat (all : engine.AllAccounted notes ways) (last : engine.Accounted notes ways way) :
    engine.AllAccounted notes (ways ++ [way]) := by
  intro before other starts
  rcases List.prefix_concat_iff.mp starts with same | within
  · obtain ⟨rfl, equal⟩ := List.append_inj' same rfl
    cases equal
    exact last
  · exact all before other within

/-- What a branch has done since the fork can be accounted for as well behind what other branches have done. -/
theorem AllAccounted.splice (all : engine.AllAccounted notes (base ++ done))
    (branch : engine.AllAccounted notes (base ++ walk)) (forks : ∀ way, walk.head? = some way → way.source? = none) :
    engine.AllAccounted notes (base ++ done ++ walk) := by
  intro before way starts
  rcases prefix_append_cases starts with within | ⟨inner, rfl, since⟩
  · exact all before way within
  · have own : base ++ inner ++ [way] <+: base ++ walk := by
      rw [List.append_assoc]
      exact (List.prefix_append_right_inj base).mpr since
    obtain ⟨mode, given, earlier, next, reached, fewer, justified⟩ := (branch _ way own).justified
    refine ⟨⟨mode, given, earlier, next, reached, fewer.trans ?_, justified⟩, fun source leaves => ?_⟩
    · exact (List.sublist_append_left base done).append (List.Sublist.refl inner)
    · have behind := (branch _ way own).behind source leaves
      cases inner using List.reverseRecOn with
      | nil =>
          obtain ⟨rest, rfl⟩ := since
          have nowhere := forks way rfl
          rw [nowhere] at leaves
          cases leaves
      | append_singleton inner last =>
          simp only [List.map_append, ← List.append_assoc, ← List.cons_append, List.map_cons, List.map_nil,
            List.getLast?_concat] at behind ⊢
          exact behind

theorem AllAccounted.spliced {source : NodeId} {walks : List (Arrival S × List (Way S))}
    (all : engine.AllAccounted notes base)
    (branches : ∀ walk ∈ walks, engine.AllAccounted notes (base ++ walkOf source walk)) :
    engine.AllAccounted notes (base ++ walks.flatMap (walkOf source)) := by
  induction walks using List.reverseRecOn with
  | nil => simpa using all
  | append_singleton earlier last ih =>
      have before := ih fun walk member => branches walk (List.mem_append_left _ member)
      rw [List.flatMap_append, List.flatMap_singleton, ← List.append_assoc]
      refine before.splice (branches last (by simp)) ?_
      rintro _ ⟨⟩
      rfl

theorem Reached.accounted (reached : engine.Reached notes mode state ways) : engine.AllAccounted notes ways := by
  induction reached with
  | begun =>
      intro before way starts
      exact absurd (List.prefix_nil.mp starts) (by simp)
  | gone reached justified goesOn ih =>
      refine ih.concat ⟨⟨_, _, _, _, reached, List.Sublist.refl _, justified⟩, fun source leaves => ?_⟩
      rw [reached.last]
      exact justified.source source leaves
  | rejoined reached justified _ ih branches =>
      refine (ih.spliced branches).concat ⟨⟨_, _, _, _, reached, List.sublist_append_left _ _, justified⟩, ?_⟩
      rintro _ ⟨⟩

theorem Reached.provenance (reached : engine.Reached notes mode state ways) :
    engine.Provenance notes state ways := by
  obtain ⟨position, stands, shown⟩ := reached.shows
  refine ⟨?_, reached.accounted, ?_⟩
  · rw [← shown.visited]
    simp only [Snapshot.trace, stands]
  · simp only [stands, Option.bind_some]
    exact shown.stamped

end
end Engine
end FlowGraph
