import Mathlib.Logic.Relation
import FlowGraph.Proofs.ForkGate
import FlowGraph.Proofs.Graph.Command
import FlowGraph.Proofs.History
import FlowGraph.Proofs.Loop.Limits
import FlowGraph.Proofs.Program.Agrees
import FlowGraph.Proofs.Snapshot.Progress
import FlowGraph.Proofs.Termination
import FlowGraph.Proofs.Traversal
import FlowGraph.Proofs.Workflow.Vouched

/-!
Runs stay inside their graph. Every check that lets a loop go on to a snapshot has found the node where it stands,
and so the errors for a loop that is nowhere, at an unknown node, or at a join outside of a fork are those of nodes
and mergers, or name a fallback that the graph does not have.
-/

namespace FlowGraph
variable {W S O : Type}

namespace Topology

variable {nodes : List (Node W S)} {edges : List (Edge S)} {defaultEntry : Option NodeId} {topology : Topology W S}

theorem node?_of_contains (built : build nodes edges defaultEntry = .ok topology) {id : NodeId}
    (known : topology.contains id = true) : ∃ node, topology.node? id = some node := by
  obtain ⟨node, member, same⟩ := List.mem_map.mp ((contains_iff built id).mp known)
  exact ⟨node, (node?_eq_some_iff built).mpr ⟨member, same⟩⟩

theorem contains_entry (built : build nodes edges defaultEntry = .ok topology) :
    topology.contains topology.entry = true := by
  obtain ⟨others, first⟩ := (madeOf_build built).entry
  have among := Command.mem_distinct.mp (first ▸ List.mem_cons_self)
  refine (contains_iff built _).mpr ?_
  rcases List.mem_append.mp among with given | declared
  · exact (wellFormed_of_build built).known _ (Option.mem_toList.mp given)
  · obtain ⟨node, member, same, _⟩ := Graph.mem_declaredEntries.mp declared
    exact List.mem_map.mpr ⟨node, member, same⟩

theorem node?_of_not_contains {topology : Topology W S} {id : NodeId} (unknown : topology.contains id = false) :
    topology.node? id = none := by
  have absent : topology.places.get? id = none := by
    rwa [contains, Dict.contains, Option.isSome_eq_false_iff, Option.isNone_iff_eq_none] at unknown
  rw [node?, absent]
  rfl

/-- The snapshot stands at a node of the graph. -/
def Holds (topology : Topology W S) (snapshot : Snapshot S) : Prop :=
  ∃ current node, snapshot.currentNode = some current ∧ topology.node? current = some node

end Topology

/-- The errors of a loop that is nowhere, at an unknown node, or at a join outside of a fork. -/
inductive Error.Strays : Error → Prop where
  | unpositioned : Strays .unpositioned
  | nodeNotFound (node : NodeId) : Strays (.nodeNotFound node)
  | joinOutside (node : NodeId) :
      Strays (.invalidCommand ("join at " ++ node.text ++ " reported outside a fork"))

namespace Activity
variable {α β : Type}

theorem MayEnd.value_of_contained {timers : Option String} {replace : Panic → α} {activity : Activity W α}
    {value : α}
    (may : (activity.contained timers replace).MayEnd (.ok value)) :
    activity.MayEnd (.ok value) ∨ ∃ panic, value = replace panic := by
  induction activity with
  | done result => exact .inl may
  | call effect next ih =>
      obtain ⟨answer, gives, may⟩ := may
      rcases ih answer may with own | replaced
      · exact .inl ⟨answer, gives, own⟩
      · exact .inr replaced
  | sleep millis next ih =>
      cases timers with
      | none => exact ih () may
      | some text => exact .inr ⟨_, Except.ok.inj may⟩
  | broken panic => exact .inr ⟨panic, Except.ok.inj may⟩
  | never => exact may.elim

end Activity

namespace Node
variable {node : Node W S} {snapshot : Snapshot S} {error : Error}

theorem guarded_error {α : Type} {effect : Effect W (Attempt α)} {next : α → Activity W (Except Error (Command S))}
    (may : (guarded effect next).MayEnd (.ok (.error error))) :
    ∃ value, (next value).MayEnd (.ok (.error error)) := by
  obtain ⟨answer, _, may⟩ := may
  cases answer with
  | ok value => exact ⟨value, may⟩
  | error panic => cases may

theorem error_of_prepared {next : Activity W (Except Error (Command S))}
    (may : (node.prepared snapshot next).MayEnd (.ok (.error error))) : next.MayEnd (.ok (.error error)) := by
  unfold Node.prepared at may
  split at may
  · exact may
  · exact (guarded_error may).choose_spec

theorem error_of_processed {timers : Option String} (may : ((node.processed timers snapshot).bind fun
      | .given reply => node.concluded snapshot reply
      | .broken panic => .done (contain panic)).MayEnd (.ok (.error error))) :
    (node.process snapshot).MayEnd (.ok (.error error)) := by
  rcases may.of_bind with ⟨reply, replied, concluded⟩ | ⟨_, _, ⟨⟩⟩
  cases reply with
  | broken panic => cases concluded
  | given reply =>
      rcases replied.value_of_contained with own | ⟨_, ⟨⟩⟩
      rcases own.of_bind with ⟨value, given, ⟨⟩⟩ | ⟨_, _, ⟨⟩⟩
      cases reply with
      | ok command =>
          unfold Node.concluded at concluded
          simp only at concluded
          split at concluded
          · cases concluded
          · obtain ⟨_, ⟨⟩⟩ := guarded_error concluded
      | error reason =>
          unfold Node.concluded at concluded
          simp only at concluded
          split at concluded
          · cases concluded
            exact given
          · obtain ⟨_, ⟨⟩⟩ := guarded_error concluded
            exact given

theorem error_of_lifecycle {timers : Option String}
    (may : (node.lifecycle timers snapshot).MayEnd (.ok (.error error))) :
    (node.process snapshot).MayEnd (.ok (.error error)) ∨ ∃ id message, error = .stateValidation id message := by
  unfold Node.lifecycle Node.validated at may
  split at may
  · exact .inl (error_of_processed (error_of_prepared may))
  · obtain ⟨verdict, may⟩ := guarded_error may
    rcases verdict with reason | _
    · cases may
      refine .inr ?_
      unfold rejection
      split
      · exact ⟨_, _, rfl⟩
      · exact ⟨_, _, rfl⟩
    · exact .inl (error_of_processed (error_of_prepared may))

end Node

namespace Engine
variable {engine : Engine W S} {mode : Mode} {current target : NodeId} {snapshot : Snapshot S}

theorem error_of_selectEdge {error : Error}
    (refused : engine.selectEdge current snapshot target = .ok (.error error)) :
    ∃ reason, error = .traversal current target reason := by
  simp only [selectEdge, bind, Except.bind, pure, Except.pure] at refused
  split at refused
  · cases refused
    exact ⟨_, rfl⟩
  split at refused
  · cases refused
    exact ⟨_, rfl⟩
  split at refused
  · cases refused
  split at refused
  · cases refused
  split at refused
  · cases refused
  · cases refused
    exact ⟨_, rfl⟩

theorem contains_of_forked {command : Command S} {readings : Readings} {request : ForkRequest S}
    (applied : engine.apply mode current snapshot command readings = .ok (.fork request)) :
    ∀ target ∈ request.targets, engine.topology.contains target = true := by
  cases applied_of_apply applied with
  | @forked targets taken strategy conditions data asks free chosen =>
      intro target member
      rw [forkTargets_started chosen] at member
      have reachable := (forkFault_eq_none_iff engine current targets).mp free target
        (chosen_subset _ _ _ _ member)
      simpa [Unreachable] using fun missing => reachable (.inl missing)

/-- A stray error is that of a fallback which the graph does not have, and a node has asked for it. -/
def Warranted (engine : Engine W S) (notes : List (Note S)) (error : Error) : Prop :=
  error.Strays → ∃ current given command message fallback, error = .nodeNotFound fallback ∧
    .told (.nodeCompleted current given command) ∈ notes ∧ command.action = .error message true (some fallback) ∧
    engine.topology.contains fallback = false

/-- A failure is warranted, and a join is at a node of the graph. -/
def Stays (engine : Engine W S) (notes : List (Note S)) (outcome : Outcome S) : Prop :=
  (∀ error last, outcome = .failed error last → engine.Warranted notes error) ∧
    ∀ node policy timeout last, outcome = .joined node policy timeout last → engine.topology.contains node = true

theorem stays_enduring (engine : Engine W S) : Enduring engine.Stays := by
  rintro notes more outcome adds ⟨fails, joins⟩
  refine ⟨fun error last same stray => ?_, joins⟩
  obtain ⟨current, given, command, message, fallback, found, noted, rest⟩ := fails error last same stray
  exact ⟨current, given, command, message, fallback, found, adds noted, rest⟩

theorem stays_of_failed {notes : List (Note S)} {error : Error} {last : Option (Snapshot S)}
    (warranted : engine.Warranted notes error) : engine.Stays notes (.failed error last) := by
  refine ⟨?_, ?_⟩
  · rintro _ _ ⟨⟩
    exact warranted
  · rintro _ _ _ _ ⟨⟩

theorem warranted_of_not_strays {notes : List (Note S)} {error : Error} (fine : ¬error.Strays) :
    engine.Warranted notes error := fun stray => absurd stray fine

theorem not_strays_traversal {source target : NodeId} {reason : String} :
    ¬(Error.traversal source target reason).Strays := by
  rintro ⟨⟩

/-- The graph has the nodes that it knows, and neither they nor the merger fail with stray errors. -/
structure Tidy (engine : Engine W S) : Prop where
  complete : ∀ id, engine.topology.contains id = true → ∃ node, engine.topology.node? id = some node
  nodes : ∀ id node, engine.topology.node? id = some node → ∀ snapshot error,
    (node.process snapshot).MayEnd (.ok (.error error)) → ¬error.Strays
  merger : ∀ base joined error, (engine.merger base joined).Gives (.ok (.error error)) → ¬error.Strays

theorem Tidy.holds (tidy : engine.Tidy) {id : NodeId} (known : engine.topology.contains id = true)
    {next : Snapshot S} (stands : next.currentNode = some id) : engine.topology.Holds next :=
  ⟨id, (tidy.complete id known).choose, stands, (tidy.complete id known).choose_spec⟩

theorem Tidy.moved (tidy : engine.Tidy) {next : Snapshot S}
    (answers : engine.Answers mode snapshot (.proceed next)) :
    engine.topology.Holds next := by
  obtain ⟨current, node, command, readings, steps, _, _, _, _, applied⟩ := answers
  cases applied_of_apply applied with
  | moved asks admits selected =>
      exact tidy.holds (selected_of_selectEdge selected).1 (Snapshot.currentNode_reposition _ _ fun _ => rfl)
  | recovered asks known => exact tidy.holds known (Snapshot.currentNode_moveTo _ _ _)

theorem Tidy.seeded (tidy : engine.Tidy) {seed : Snapshot S} (seeds : engine.Seeds mode snapshot seed) :
    engine.topology.Holds seed := by
  obtain ⟨⟨current, node, command, readings, steps, _, _, _, _, applied⟩, member, rfl⟩ := seeds
  exact tidy.holds (contains_of_forked applied _ member) (Snapshot.currentNode_moveTo _ _ _)

theorem Tidy.rejoined (tidy : engine.Tidy) {base next : Snapshot S} {node : NodeId} {joined : List (JoinedBranch S)}
    {answer : Attempt (Except Error (Merged S))} {readings : Readings}
    (known : engine.topology.contains node = true)
    (merged : reconcile base node joined answer readings = .ok next) : engine.topology.Holds next := by
  refine tidy.holds known ?_
  unfold reconcile at merged
  split at merged
  · cases merged
  · cases merged
  · split at merged
    · cases merged
    · cases merged
      exact Snapshot.currentNode_moveTo _ _ _

theorem Ends.contains_of_joined {policy : WaitPolicy} {timeout : Option Span} {last : Snapshot S} {node : NodeId}
    (ends : engine.Ends mode snapshot (.joined node policy timeout last)) :
    engine.topology.contains node = true := by
  generalize same : Outcome.joined node policy timeout last = outcome at ends
  induction ends with
  | stopped | unjoined | astray => cases same
  | finished answers =>
      subst same
      obtain ⟨_, _, _, _, _, _, _, _, _, applied⟩ := answers
      cases applied_of_apply applied with
      | joined branch asks selected => exact (selected_of_selectEdge selected).1
  | moved _ _ ih => exact ih same
  | branchEnded _ _ _ other => exact absurd ⟨node, policy, timeout, last, same.symm⟩ other
  | rejoined _ _ _ _ _ _ _ _ ih => exact ih same

theorem Tidy.rejoins (tidy : engine.Tidy) {request : ForkRequest S} {node : NodeId}
    {joined : List (JoinedBranch S)} {next : Snapshot S} (rejoins : engine.Rejoins request node joined next) :
    engine.topology.Holds next := by
  obtain ⟨branch, member⟩ := List.exists_mem_of_ne_nil joined rejoins.joins.somebody
  obtain ⟨_, _, _, _, _, ends⟩ := rejoins.joins.branch member
  obtain ⟨merged, position, readings, _, _, rfl⟩ := rejoins.merged
  exact tidy.holds ends.contains_of_joined (Snapshot.currentNode_moveTo _ _ _)

theorem Tidy.turn (tidy : engine.Tidy) {next : Snapshot S} (turn : engine.Turn mode snapshot next) :
    engine.topology.Holds next := by
  cases turn with
  | moved answers => exact tidy.moved answers
  | rejoined _ rejoins => exact tidy.rejoins rejoins

theorem Tidy.derived (tidy : engine.Tidy) {first : Snapshot S} (begins : engine.topology.Holds first)
    (derived : Relation.ReflTransGen engine.Derives first snapshot) : engine.topology.Holds snapshot := by
  rcases derived.cases_tail with rfl | ⟨_, _, derives⟩
  · exact begins
  · cases derives with
    | turn turn => exact tidy.turn turn
    | seed seeds => exact tidy.seeded seeds
    | join _ _ rejoins => exact tidy.rejoins rejoins

theorem Answers.holds {step : Step S} (answers : engine.Answers mode snapshot step) :
    engine.topology.Holds snapshot := by
  obtain ⟨current, node, _, _, _, standing, _, known, _⟩ := answers
  exact ⟨current, node, standing, known⟩

theorem Turn.holds {next : Snapshot S} (turn : engine.Turn mode snapshot next) : engine.topology.Holds snapshot := by
  cases turn with
  | moved answers => exact answers.holds
  | rejoined answers _ => exact answers.holds

theorem not_strays_of_guardFault {config : ExecutionConfig} {steps : Nat} {error : Error}
    (fault : guardFault config steps snapshot current = some error) : ¬error.Strays := by
  intro stray
  unfold guardFault at fault
  split at fault
  · cases fault
    cases stray
  · split at fault
    · cases fault
    · split at fault <;> cases fault
      cases stray

theorem Tidy.warranted_of_stopsWith (tidy : engine.Tidy) {notes : List (Note S)} {error : Error}
    (fit : engine.topology.Holds snapshot) (why : engine.StopsWith snapshot error) :
    engine.Warranted notes error := by
  obtain ⟨current, node, standing, known⟩ := fit
  cases why with
  | unpositioned nowhere =>
      rw [standing] at nowhere
      cases nowhere
  | guarded fault => exact warranted_of_not_strays (not_strays_of_guardFault fault)
  | unknown stands nobody =>
      rw [standing] at stands
      cases stands
      rw [known] at nobody
      cases nobody
  | refused knows answered =>
      rcases Node.error_of_lifecycle answered with own | ⟨_, _, rfl⟩
      · exact warranted_of_not_strays (tidy.nodes _ _ knows _ _ own)
      · exact warranted_of_not_strays (by rintro ⟨⟩)

theorem stays_of_finish {notes : List (Note S)} {command : Command S} {readings : Readings} {outcome : Outcome S}
    (noted : .told (.nodeCompleted current snapshot command) ∈ notes)
    (applied : engine.apply mode current snapshot command readings = .ok (.finish outcome)) :
    engine.Stays notes outcome := by
  cases applied_of_apply applied with
  | shut asks shut => exact stays_of_failed (warranted_of_not_strays not_strays_traversal)
  | unselected asks refused | unjoined branch asks refused =>
      obtain ⟨reason, rfl⟩ := error_of_selectEdge refused
      exact stays_of_failed (warranted_of_not_strays not_strays_traversal)
  | unforked asks fault =>
      obtain ⟨_, _, _, reason, rfl⟩ := forkFault_traversal _ _ _ _ fault
      exact stays_of_failed (warranted_of_not_strays not_strays_traversal)
  | unchosen asks refused =>
      obtain ⟨_, _, reason, rfl⟩ := forkTargets_refused refused
      exact stays_of_failed (warranted_of_not_strays not_strays_traversal)
  | joined branch asks selected =>
      refine ⟨by rintro _ _ ⟨⟩, ?_⟩
      rintro _ _ _ _ ⟨⟩
      exact (selected_of_selectEdge selected).1
  | suspended asks | completed asks => exact ⟨by rintro _ _ ⟨⟩, by rintro _ _ _ _ ⟨⟩⟩
  | stranded asks unknown => exact stays_of_failed fun _ => ⟨_, _, _, _, _, rfl, noted, asks, unknown⟩
  | reported asks => exact stays_of_failed (warranted_of_not_strays (by rintro ⟨⟩))

theorem Tidy.not_strays_of_forkFails (tidy : engine.Tidy) {request : ForkRequest S} {error : Error}
    (fit : engine.topology.Holds snapshot) (answers : engine.Answers mode snapshot (.fork request))
    (fails : engine.ForkFails request error) : ¬error.Strays := by
  obtain ⟨current, node, standing, known⟩ := fit
  cases fails with
  | lost reason => rintro ⟨⟩
  | late node timeout => rintro ⟨⟩
  | unmerged answered => exact tidy.merger _ _ _ answered
  | unpositioned nowhere =>
      rw [answers.base.2.2] at nowhere
      rw [Snapshot.currentNode, nowhere] at standing
      cases standing

theorem Tidy.vouching (tidy : engine.Tidy) :
    engine.Vouching engine.topology.Holds (fun node => engine.topology.contains node = true) engine.Stays where
  stopped fit why := stays_of_failed (tidy.warranted_of_stopsWith fit why)
  finished _ executed applied := stays_of_finish executed.noted applied
  moved _ answers := tidy.moved answers
  seeded _ seeds := tidy.seeded seeds
  unmerged fit answers fails :=
    stays_of_failed (warranted_of_not_strays (tidy.not_strays_of_forkFails fit answers fails))
  astray := stays_of_failed (warranted_of_not_strays not_strays_traversal)
  joins stays := stays.2 _ _ _ _ rfl
  rejoined _ _ known merged := tidy.rejoined known merged

end Engine

namespace Workflow
variable {workflow : Workflow W S O}

theorem not_strays_of_ofText {text : String} {error : Error}
    (unnamed : (Ident.ofText text : Except Error WorkflowId) = .error error) : ¬error.Strays := by
  unfold Ident.ofText at unnamed
  split at unnamed
  · cases unnamed
  · cases unnamed
    rintro ⟨⟩

theorem holds_of_resumeFault {snapshot : Snapshot S} (tidy : workflow.engine.Tidy)
    (fits : resumeFault workflow.engine.topology snapshot = none) : workflow.engine.topology.Holds snapshot := by
  unfold resumeFault at fits
  split at fits
  · cases fits
  · rename_i standing
    split at fits
    · rename_i known
      exact tidy.holds known standing
    · cases fits

theorem vouching_of_tidy (tidy : workflow.engine.Tidy)
    (entry : workflow.engine.topology.contains workflow.engine.topology.entry = true) :
    workflow.Vouching workflow.engine.topology.Holds
      (fun node => workflow.engine.topology.contains node = true) workflow.engine.Stays where
  engine := tidy.vouching
  enduring := workflow.engine.stays_enduring
  unnamed unnamed := Engine.stays_of_failed (Engine.warranted_of_not_strays (not_strays_of_ofText unnamed))
  initial _ _ _ _ := tidy.holds entry rfl
  refused := Engine.stays_of_failed (Engine.warranted_of_not_strays (by rintro ⟨⟩))
  resumed := by
    intro snapshot updates options readings first prepared
    simp only [prepareResume] at prepared
    split at prepared
    · cases prepared
      exact holds_of_resumeFault tidy ‹_›
    · split at prepared
      · cases prepared
      · cases prepared
        exact tidy.holds entry (Snapshot.currentNode_reposition _ _ fun _ => rfl)

theorem failure_of_finish {outcome : Outcome S} {time : Nat} {world : W} {error : Error} {last : Option (Snapshot S)}
    (root : ¬IsJoin outcome) (fails : (workflow.finish outcome time world).1 = .failure error last) :
    outcome = .failed error last ∨ ∃ message, error = .outputExtraction message := by
  cases outcome with
  | completed snapshot =>
      simp only [finish, Effect.andThen] at fails
      generalize (workflow.extractor snapshot time world).1 = extracted at fails
      cases extracted with
      | ok output => cases fails
      | error panic =>
          cases fails
          exact .inr ⟨_, rfl⟩
  | suspended suspension => cases fails
  | failed reason snapshot =>
      cases fails
      exact .inl rfl
  | joined node policy timeout snapshot => exact absurd ⟨_, _, _, _, rfl⟩ root

end Workflow

theorem Engine.Tidy.of_build {blueprint : Blueprint W S O} {workflow : Workflow W S O}
    (built : blueprint.build = .ok workflow)
    (nodes : ∀ node ∈ blueprint.nodes, ∀ snapshot error,
      (node.process snapshot).MayEnd (.ok (.error error)) → ¬error.Strays)
    (merger : ∀ base joined error, (blueprint.merger base joined).Gives (.ok (.error error)) → ¬error.Strays) :
    workflow.engine.Tidy := by
  obtain ⟨extractor, topology, _, found, rfl⟩ := Blueprint.build_eq_ok.mp built
  refine ⟨fun id known => Topology.node?_of_contains found known, fun id node known => ?_, merger⟩
  have member := Topology.mem_nodes_of_node? known
  rw [show (blueprint.assembled extractor topology).engine.topology = topology from rfl,
    (Topology.madeOf_build found).nodes] at member
  exact nodes node member

/-- A run never leaves the graph. Provided that neither the nodes nor the merger of a blueprint fail with an error
for a loop that is nowhere, at an unknown node or at a join outside of a fork: every snapshot that any loop of a run
takes up stands at a node of the graph, in the main loop and in branches at any depth; the main loop never ends by
joining; and no run fails with one of these errors, except that a node may be missing that a recoverable error names
as its fallback. -/
theorem runs_stay_inside_graph {blueprint : Blueprint W S O} {workflow : Workflow W S O}
    (built : blueprint.build = .ok workflow)
    (nodes : ∀ node ∈ blueprint.nodes, ∀ snapshot error,
      (node.process snapshot).MayEnd (.ok (.error error)) → ¬error.Strays)
    (merger : ∀ base joined error, (blueprint.merger base joined).Gives (.ok (.error error)) → ¬error.Strays)
    (attached : Bool) (clock : Nat → Readings) (allowance : Nat) (request : Request S) (world : W) :
    (∀ first, request.entry workflow clock world = .ok first → ∀ snapshot,
      Relation.ReflTransGen workflow.engine.Derives first snapshot → workflow.engine.topology.Holds snapshot) ∧
    (∀ rounds previous next,
      .told (.stateUpdated previous next) ∈ workflow.notes attached clock allowance request world rounds →
        workflow.engine.topology.Holds previous ∧ workflow.engine.topology.Holds next) ∧
    (∀ snapshot outcome, workflow.engine.Ends .root snapshot outcome → ¬IsJoin outcome) ∧
    ∀ error last machine,
      workflow.run attached clock allowance request world = some (.settled (.failure error last), machine) →
        error ≠ .unpositioned ∧
        (∀ node : NodeId, error ≠ .invalidCommand ("join at " ++ node.text ++ " reported outside a fork")) ∧
        ∀ id, error = .nodeNotFound id → workflow.engine.topology.node? id = none ∧
          ∃ rounds current given command message,
            .told (.nodeCompleted current given command) ∈
              workflow.notes attached clock allowance request world rounds ∧
            command.action = .error message true (some id) := by
  have tidy : workflow.engine.Tidy := .of_build built nodes merger
  have entry : workflow.engine.topology.contains workflow.engine.topology.entry = true :=
    Topology.contains_entry (Blueprint.build_topology built)
  have vouching := Workflow.vouching_of_tidy tidy entry
  refine ⟨?_, ?_, fun _ _ ends => ends.not_join, ?_⟩
  · intro first enters snapshot derived
    exact tidy.derived (vouching.entry enters) derived
  · intro rounds previous next noted
    obtain ⟨mode, turn⟩ := Workflow.honest_of_noted noted
    exact ⟨turn.holds, tidy.turn turn⟩
  · intro error last machine finished
    obtain ⟨rounds, outcome, time, view, stays, root, closes⟩ := vouching.of_run finished
    have warranted : workflow.engine.Warranted (workflow.notes attached clock allowance request world rounds)
        error := by
      rcases Workflow.failure_of_finish root closes with rfl | ⟨message, rfl⟩
      · exact stays.1 error last rfl
      · exact Engine.warranted_of_not_strays (by rintro ⟨⟩)
    refine ⟨?_, ?_, ?_⟩
    · rintro rfl
      obtain ⟨_, _, _, _, _, ⟨⟩, _⟩ := warranted .unpositioned
    · rintro node rfl
      obtain ⟨_, _, _, _, _, ⟨⟩, _⟩ := warranted (.joinOutside node)
    · rintro id rfl
      obtain ⟨current, given, command, message, _, ⟨⟩, noted, asks, unknown⟩ := warranted (.nodeNotFound id)
      exact ⟨Topology.node?_of_not_contains unknown, rounds, current, given, command, message, noted, asks⟩

section
open Workflow

theorem meeting_answers : ∀ node ∈ meeting.nodes, ∀ snapshot error,
    (node.process snapshot).MayEnd (.ok (.error error)) → ¬error.Strays := by
  intro node member snapshot error fails
  simp only [meeting, List.mem_cons, List.not_mem_nil, or_false] at member
  rcases member with rfl | rfl | rfl | rfl <;> cases fails

def lostMeeting : Blueprint Unit Unit Unit :=
  { meeting with merger := fun _ _ => .pure (.ok (.error .unpositioned)) }

/-- No node of the meeting fails, and yet its run fails as if it were nowhere. -/
theorem lost_meeting_is_unpositioned :
    (∀ node ∈ lostMeeting.nodes, ∀ snapshot error,
      (node.process snapshot).MayEnd (.ok (.error error)) → ¬error.Strays) ∧
    ∃ workflow last machine, lostMeeting.build = .ok workflow ∧
      workflow.run true (fun _ _ => default) 10 (.start () .empty) () =
        some (.settled (.failure .unpositioned last), machine) :=
  ⟨meeting_answers, _, _, _, rfl, rfl⟩

/-- The meeting stays inside its graph, and so does everything that its run may take up. -/
theorem meeting_stays_inside_graph :
    ∃ workflow first, meeting.build = .ok workflow ∧
      (Request.start () .empty).entry workflow (fun _ _ => default) () = .ok first ∧
      ∀ snapshot, Relation.ReflTransGen workflow.engine.Derives first snapshot →
        workflow.engine.topology.Holds snapshot := by
  have merges : ∀ base joined error, (meeting.merger base joined).Gives (.ok (.error error)) → ¬error.Strays := by
    rintro base joined error ⟨_, _, ⟨⟩⟩
  exact ⟨_, _, rfl, rfl, (runs_stay_inside_graph rfl meeting_answers merges true (fun _ _ => default) 10
    (.start () .empty) ()).1 _ rfl⟩

end
end FlowGraph
