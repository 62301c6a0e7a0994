import FlowGraph.Proofs.ForkGate
import FlowGraph.Proofs.Loop.Upheld
import FlowGraph.Proofs.Loop.Ways
import FlowGraph.Proofs.Traversal

/-!
Loops leave on record how they have come to their states. Whatever state the record shows, the record also says
by which ways it has been reached. What a branch reports says by which ways it has come to its join, and with
those of its siblings they become part of the history of the fork.
-/

namespace FlowGraph

inductive Note.Reveals {S : Type} : Note S → Snapshot S → Prop where
  | started (first : Snapshot S) : Reveals (.told (.workflowStarted first)) first
  | entered (current : NodeId) (state : Snapshot S) : Reveals (.told (.nodeStarted current state)) state
  | answered (current : NodeId) (state : Snapshot S) (command : Command S) :
      Reveals (.told (.nodeCompleted current state command)) state
  | left (state next : Snapshot S) : Reveals (.told (.stateUpdated state next)) state
  | gone (previous state : Snapshot S) : Reveals (.told (.stateUpdated previous state)) state

namespace Engine
variable {W S : Type}

def Traced (engine : Engine W S) (notes : List (Note S)) : Prop :=
  ∀ note ∈ notes, ∀ state, note.Reveals state → ∃ mode ways, engine.Reached notes mode state ways

/-- A branch that joins has gone some ways behind these, on record, and is entitled to join. -/
def Recounts (engine : Engine W S) (before : List (Way S)) (name : NodeId) (notes : List (Note S))
    (outcome : Outcome S) : Prop :=
  ∀ node policy timeout last, outcome = .joined node policy timeout last → ∃ given edge since,
    engine.Reached notes .branch given (before ++ since) ∧ engine.Arrives notes node ⟨name, given, edge, last⟩

/-- As soon as it is on record that the loop goes on with the next state, it has been reached behind these ways. -/
def Leads (engine : Engine W S) (mode : Mode) (given : Snapshot S) (ways : List (Way S)) (notes : List (Note S))
    (next : Snapshot S) : Prop :=
  ∀ more, notes ⊆ more → .told (.stateUpdated given next) ∈ more →
    ∃ since, engine.Reached more mode next (ways ++ since)

/-- On record, a loop has come to this fork. -/
structure Forks (engine : Engine W S) (mode : Mode) (given : Snapshot S) (ways : List (Way S))
    (request : ForkRequest S) (notes : List (Note S)) : Prop where
  reached : engine.Reached notes mode given ways
  asked : ∃ command targets strategy conditions data, Answered notes given request.source command ∧
    command.action = .fork targets strategy conditions data ∧ request.targets ⊆ targets
  adjacent : ∀ target ∈ request.targets,
    ∃ edge ∈ engine.topology.edges, edge.source = request.source ∧ edge.target = target
  base : request.base.position = given.position

/-- Loops are told apart by the ways up to their first state, and branches by their names too. -/
def tracing (engine : Engine W S) : Keeping S where
  Kind := List (Way S) × NodeId
  Fork := NodeId × List (Way S)
  inv := engine.Traced
  stands kind mode notes given := ∃ since, engine.Reached notes mode given (kind.1 ++ since)
  forks kind mode notes given request fork := fork.1 = request.source ∧ (∃ since, fork.2 = kind.1 ++ since) ∧
    engine.Forks mode given fork.2 request notes
  ends kind := engine.Recounts kind.1 kind.2
  branch fork target := (fork.2 ++ [.forked fork.1 target], target)

section
variable {engine : Engine W S} {notes more : List (Note S)} {mode : Mode} {given next : Snapshot S}
  {ways before : List (Way S)} {source current name : NodeId} {request : ForkRequest S} {command : Command S}
  {readings : Readings}

theorem Traced.concat {note : Note S} (traced : engine.Traced notes)
    (new : ∀ state, note.Reveals state → ∃ mode ways, engine.Reached (notes ++ [note]) mode state ways) :
    engine.Traced (notes ++ [note]) := by
  intro other member state reveals
  rcases List.mem_append.mp member with old | last
  · obtain ⟨mode, ways, reached⟩ := traced other old state reveals
    exact ⟨mode, ways, reached.mono (List.subset_append_left _ _)⟩
  · obtain rfl := List.mem_singleton.mp last
    exact new state reveals

theorem recounts_enduring (engine : Engine W S) (before : List (Way S)) (name : NodeId) :
    Enduring (engine.Recounts before name) := by
  intro notes more outcome adds reports node policy timeout last joins
  obtain ⟨given, edge, since, reached, arrives⟩ := reports node policy timeout last joins
  exact ⟨given, edge, since, reached.mono adds, arrives.mono adds⟩

theorem recounts_of_not_join {outcome : Outcome S} (other : ¬IsJoin outcome) :
    engine.Recounts before name notes outcome :=
  fun node policy timeout last joins => (other ⟨node, policy, timeout, last, joins⟩).elim

theorem Forks.mono (forks : engine.Forks mode given ways request notes) (adds : notes ⊆ more) :
    engine.Forks mode given ways request more := by
  obtain ⟨command, targets, strategy, conditions, data, answered, asks, among⟩ := forks.asked
  exact ⟨forks.reached.mono adds, ⟨command, targets, strategy, conditions, data, answered.mono adds, asks, among⟩,
    forks.adjacent, forks.base⟩

section
variable {nodes : List (Node W S)} {edges : List (Edge S)} {defaultEntry : Option NodeId}
  (built : Topology.build nodes edges defaultEntry = .ok engine.topology)
include built

theorem connects_of_between {edge : Edge S} {target : NodeId}
    (between : edge ∈ engine.topology.edgesBetween source target) :
    edge ∈ engine.topology.edges ∧ edge.source = source ∧ edge.target = target := by
  rw [Topology.edgesBetween_eq built, List.mem_filter] at between
  rw [(Topology.madeOf_build built).edges]
  exact ⟨between.1, by simpa [Edge.connects] using between.2⟩

theorem bears_of_selectEdge {edge : Edge S} {target : NodeId} (standing : given.currentNode = some current)
    (selected : engine.selectEdge current given target = .ok (.ok edge)) :
    engine.Bears given edge ∧ edge.source = current ∧ edge.target = target := by
  obtain ⟨_, between, admits⟩ := selected_of_selectEdge selected
  obtain ⟨declared, leaves, arrives⟩ := connects_of_between built between
  exact ⟨⟨declared, by rw [leaves, standing], admits⟩, leaves, arrives⟩

theorem leads_of_apply (reached : engine.Reached notes mode given ways)
    (answered : Answered notes given current command)
    (applied : engine.apply mode current given command readings = .ok (.proceed next)) :
    engine.Leads mode given ways notes next := by
  intro more adds noted
  obtain ⟨position, stands⟩ := answered.position
  have later := answered.mono adds
  cases applied_of_apply applied with
  | @moved target condition data edge asks open_ selected =>
      obtain ⟨bears, rfl, rfl⟩ := bears_of_selectEdge built answered.standing selected
      have moved : ((withUpdates given command.updates data readings).traverse edge.id edge.target
          (readings edgeReading) (readings moveReading)).position =
            some (position.traverse edge.id edge.target (readings edgeReading)) := by
        simp [Snapshot.traverse, stands]
      exact ⟨[_], (reached.mono adds).gone (.along later asks bears noted stands moved) rfl⟩
  | recovered asks known =>
      refine ⟨[_], (reached.mono adds).gone (.recovered later asks noted stands ?_) rfl⟩
      simp [Snapshot.moveTo, stands]

theorem forks_of_apply {own : Mode} (reached : engine.Reached notes mode given ways)
    (answered : Answered notes given current command)
    (applied : engine.apply own current given command readings = .ok (.fork request)) :
    engine.Forks mode given ways request notes := by
  cases applied_of_apply applied with
  | @forked targets taken strategy conditions data asks free chosen =>
      have among := chosen_subset (withUpdates given command.updates data readings) targets strategy conditions
      rw [← forkTargets_started chosen] at among
      refine ⟨reached, ⟨_, _, _, _, _, answered, asks, among⟩, fun target member => ?_, position_withUpdates _ _ _ _⟩
      have reachable := (forkFault_eq_none_iff engine current _).mp free target (among member)
      have some : engine.topology.edgesBetween current target ≠ [] := fun none => reachable (.inr none)
      obtain ⟨edge, between⟩ := List.exists_mem_of_ne_nil _ some
      exact ⟨edge, connects_of_between built between⟩

theorem recounts_of_apply (reached : engine.Reached notes mode given (before ++ ways))
    (answered : Answered notes given current command) {outcome : Outcome S}
    (applied : engine.apply mode current given command readings = .ok (.finish outcome)) :
    engine.Recounts before name notes outcome := by
  rintro node policy timeout last rfl
  cases applied_of_apply applied with
  | joined branch asks selected =>
      subst branch
      obtain ⟨bears, rfl, arrives⟩ := bears_of_selectEdge built answered.standing selected
      exact ⟨given, _, ways, reached, ⟨_, _, _, _, answered, asks⟩, bears, arrives, position_withUpdates _ _ _ _⟩

end

theorem Forks.seed (forks : engine.Forks mode given ways request notes) {target : NodeId}
    (member : target ∈ request.targets) (time : Instant) :
    engine.Reached notes .branch (request.base.moveTo target time) (ways ++ [.forked request.source target]) := by
  obtain ⟨command, targets, strategy, conditions, data, answered, asks, among⟩ := forks.asked
  obtain ⟨position, stands⟩ := answered.position
  refine forks.reached.gone (.forked answered asks (among member) (forks.adjacent target member) stands ?_) rfl
  simp [Snapshot.moveTo, forks.base, stands]

theorem walks_of_agreed {node : NodeId} {reports : List (BranchReport S)} {joined : List (JoinedBranch S)}
    (joins : List.Forall₂ (JoinsAt node) reports joined)
    (fits : ∀ report ∈ reports, engine.Recounts (ways ++ [.forked source report.1]) report.1 notes report.2) :
    ∃ walks : List (Arrival S × List (Way S)), joined = (walks.map Prod.fst).map (Arrival.joins node) ∧
      ∀ walk ∈ walks, engine.Reached notes .branch walk.1.given (ways ++ walkOf source walk) ∧
        engine.Arrives notes node walk.1 := by
  induction joins with
  | nil => exact ⟨[], rfl, by simp⟩
  | @cons report branch reports joined joinsAt _ ih =>
      obtain ⟨walks, rfl, others⟩ := ih fun report member => fits report (List.mem_cons_of_mem _ member)
      obtain ⟨policy, timeout, rfl, rfl⟩ := joinsAt
      obtain ⟨given, edge, since, reached, arrives⟩ := fits _ List.mem_cons_self _ policy timeout _ rfl
      refine ⟨(⟨branch.branch, given, edge, branch.snapshot⟩, since) :: walks, rfl, fun walk member => ?_⟩
      rcases List.mem_cons.mp member with rfl | other
      · rw [List.append_assoc, List.singleton_append] at reached
        exact ⟨reached, arrives⟩
      · exact others walk other

theorem Forks.leads (forks : engine.Forks mode given ways request notes) {join : Join S} {terms : JoinTerms}
    (collected : engine.tracing.Collected (request.source, ways) notes join) (fixed : join.terms = some terms)
    (merged : .merges request.base join.joined ∈ notes) {answer : Attempt (Except Error (Merged S))}
    (done : reconcile request.base terms.node join.joined answer readings = .ok next) :
    engine.Leads mode given ways notes next := by
  intro more adds noted
  obtain ⟨command, targets, strategy, conditions, data, answered, asks, _⟩ := forks.asked
  obtain ⟨position, stands⟩ := answered.position
  cases collected with
  | blank none nobody =>
      rw [none] at fixed
      cases fixed
  | @fixed own reports same agreed fits =>
      obtain rfl : terms = own := Option.some.inj (fixed.symm.trans same)
      obtain ⟨walks, joined, walked⟩ := walks_of_agreed agreed.joins fits
      have somebody : walks.map Prod.fst ≠ [] := by
        rintro nobody
        rw [nobody] at joined
        have empty := agreed.joins.length_eq
        rw [joined] at empty
        exact agreed.ne_nil (List.eq_nil_of_length_eq_zero empty)
      have moved : next.position = some ((absorbed position join.joined).moveTo terms.node) := by
        unfold reconcile at done
        split at done
        · cases done
        · cases done
        · rw [forks.base, stands] at done
          cases done
          exact position_reconciled _ _ _
      rw [joined] at merged moved
      refine ⟨walks.flatMap (walkOf request.source) ++ [.joined (walks.map Prod.fst) terms.node], ?_⟩
      rw [← List.append_assoc]
      refine (forks.reached.mono adds).rejoined ?_ fun walk member => (walked walk member).1.mono adds
      refine .joined (answered.mono adds) asks forks.base (adds merged) somebody ?_ noted stands moved
      intro arrival member
      obtain ⟨walk, among, rfl⟩ := List.mem_map.mp member
      exact (walked walk among).2.mono adds

theorem Leads.keeps {since : List (Way S)}
    (leads : engine.Leads mode given (before ++ since) notes next)
    (reached : engine.Reached notes mode given (before ++ since)) :
    engine.tracing.Leads (before, name) mode given notes next := by
  intro more adds traced
  have kept : notes ⊆ more ++ [.told (.stateUpdated given next)] := List.subset_append_of_subset_left _ adds
  obtain ⟨further, arrived⟩ := leads _ kept (List.mem_append_right _ List.mem_cons_self)
  refine ⟨traced.concat ?_, since ++ further, by rwa [← List.append_assoc]⟩
  rintro _ (_ | _)
  · exact ⟨mode, _, reached.mono kept⟩
  · exact ⟨mode, _, arrived⟩

/-- Loops that begin with states reached on record keep a record from which all states can be traced. -/
theorem keeps_tracing {nodes : List (Node W S)} {edges : List (Edge S)} {defaultEntry : Option NodeId}
    (built : Topology.build nodes edges defaultEntry = .ok engine.topology) : engine.Keeps engine.tracing where
  stays := by
    rintro kind mode notes more given ⟨since, reached⟩ adds
    exact ⟨since, reached.mono adds⟩
  lasts := by
    rintro kind mode notes more given request fork ⟨source, behind, forks⟩ adds
    exact ⟨source, behind, forks.mono adds⟩
  enduring kind := engine.recounts_enduring kind.1 kind.2
  entered := by
    rintro kind mode notes given current ⟨since, reached⟩ traced
    refine traced.concat ?_
    rintro _ ⟨⟩
    exact ⟨mode, _, reached.mono (List.subset_append_left _ _)⟩
  answered := by
    rintro kind mode notes given current command ⟨since, reached⟩ traced
    refine traced.concat ?_
    rintro _ ⟨⟩
    exact ⟨mode, _, reached.mono (List.subset_append_left _ _)⟩
  stopped := fun _ => recounts_of_not_join (not_isJoin_failed _ _)
  finished := by
    rintro kind mode notes current node given steps command readings outcome ⟨since, reached⟩ executed applied
    exact recounts_of_apply built reached ⟨executed.standing, executed.noted⟩ applied
  moved := by
    rintro kind mode notes current node given steps command readings next ⟨since, reached⟩ executed applied
    exact (leads_of_apply built reached ⟨executed.standing, executed.noted⟩ applied).keeps reached
  forked := by
    rintro kind mode notes current node given steps command readings request ⟨since, reached⟩ executed applied
    have forks := forks_of_apply built reached ⟨executed.standing, executed.noted⟩ applied
    exact ⟨(request.source, kind.1 ++ since), rfl, ⟨since, rfl⟩, forks⟩
  seeded := by
    rintro kind mode notes given request ⟨_, ways⟩ target ⟨rfl, _, forks⟩ member time
    refine ⟨[], ?_⟩
    rw [List.append_nil]
    exact forks.seed member time
  unjoined := fun _ => recounts_of_not_join (not_isJoin_failed _ _)
  ended := fun _ _ other => recounts_of_not_join other
  astray := fun _ _ => recounts_of_not_join (not_isJoin_failed _ _)
  merging := fun _ traced => traced.concat (by rintro state ⟨⟩)
  rejoined := by
    rintro kind mode notes given request ⟨_, _⟩ join terms answer readings next ⟨rfl, ⟨since, rfl⟩, forks⟩ collected
      fixed merged _ done
    exact (forks.leads collected fixed merged done).keeps forks.reached

end

end Engine
end FlowGraph
