import FlowGraph.Proofs.History
import FlowGraph.Proofs.Loop.Outline
import FlowGraph.Proofs.Loop.Twins
import FlowGraph.Proofs.Program.Descent
import FlowGraph.Proofs.Program.Rest
import FlowGraph.Proofs.Program.Undisturbed
import FlowGraph.Proofs.Workflow.Mirrors
import FlowGraph.Workflow.Blueprint

/-!
Abandoned branches do not influence a run, provided that their calls are hidden from all others. A fork that
goes on at its join node leaves them behind, and from then on nobody hears of them.
-/

namespace FlowGraph
variable {W R ρ : Type}

def Strand.rests (strand : Strand W R) : Bool :=
  match strand.wait with
  | .resting _ => true
  | .listening .. => false

namespace Machine
variable {machine other : Machine W R}

theorem OneMain.waits_round {good : Wait W R → Prop}
    (later : ∀ wait after : Wait W R, good wait → after.After wait → good after) (one : machine.OneMain)
    (all : ∀ strand ∈ machine.strands, good strand.wait) (attached : Bool) (clock : Nat → Readings)
    (close : R → Effect W ρ) : ∀ strand ∈ (machine.round attached clock close).strands, good strand.wait := by
  cases queue : machine.ready with
  | nil =>
      intro strand member
      exact all strand ((round_idle attached clock close queue).2.2.mem_iff.mp member)
  | cons head ready =>
      have ran := resume_ran clock head.wait { machine with ready }
      obtain ⟨added, moved, branches, _⟩ := ran.strands
      have members := strands_ready queue
      have first : good head.wait := all head (members ▸ List.mem_cons_self)
      intro strand member
      rcases List.mem_append.mp ((one.turn queue attached clock close).1.mem_iff.mp member) with left | rest
      · exact later _ _ first (left_after ran head.owner strand left)
      · rcases List.mem_append.mp (moved.mem_iff.mp rest) with new | old
        · exact later _ _ first (branches strand new).2
        · exact all strand (members ▸ List.mem_cons_of_mem _ old)

theorem OneMain.start (world : W) (program : Program W R) : OneMain (.start world program) :=
  ⟨Nat.le_refl 1, by rintro _ ⟨⟩⟩

end Machine

namespace Workflow
variable {S O : Type} (workflow : Workflow W S O) (attached : Bool) (clock : Nat → Readings) (allowance : Nat)
  (request : Request S) (world : W) (rounds : Nat)

theorem anonymous_after : (workflow.machineAfter attached clock allowance request world rounds).OneMain ∧
    ∀ strand ∈ (workflow.machineAfter attached clock allowance request world rounds).strands,
      strand.wait.Anonymous := by
  induction rounds with
  | zero =>
      refine ⟨.start world _, fun strand member => ?_⟩
      cases List.mem_singleton.mp member
      exact .resting (request.program_twins workflow allowance)
  | succ rounds ih =>
      rw [machineAfter, Function.iterate_succ_apply', ← machineAfter]
      exact ⟨ih.1.round attached clock workflow.finish,
        ih.1.waits_round (fun _ _ anonymous after => anonymous.later after) ih.2 attached clock workflow.finish⟩

/-- The channel of the strand that has opened a channel in a run, unless it is the main one. -/
def openerAfter : (rounds : Nat) → (channel : Nat) → Option Nat
  | 0 => fun _ => none
  | rounds + 1 =>
    (workflow.machineAfter attached clock allowance request world rounds).openerAfter (openerAfter rounds)

theorem kin_after : (workflow.machineAfter attached clock allowance request world rounds).Kin
    (workflow.openerAfter attached clock allowance request world rounds) := by
  induction rounds with
  | zero => exact .start world _
  | succ rounds ih =>
      obtain ⟨one, anonymous⟩ := workflow.anonymous_after attached clock allowance request world rounds
      rw [machineAfter, Function.iterate_succ_apply', ← machineAfter]
      exact ih.round one anonymous

theorem left_after {channel : Nat}
    (left : (workflow.machineAfter attached clock allowance request world rounds).Left channel) (more : Nat) :
    (workflow.machineAfter attached clock allowance request world (rounds + more)).Left channel := by
  induction more with
  | zero => exact left
  | succ more ih =>
      obtain ⟨one, anonymous⟩ := workflow.anonymous_after attached clock allowance request world (rounds + more)
      rw [← Nat.add_assoc, machineAfter, Function.iterate_succ_apply', ← machineAfter]
      exact ih.round one anonymous

/-- A fork leaves its channel as soon as a report that arrives there satisfies it. -/
theorem left_of_satisfied {owner : Owner} {channel : Nat} {next : Delivery (Outcome S) → Program W (Outcome S)}
    {ready : List (Strand W (Outcome S))}
    (queue : (workflow.machineAfter attached clock allowance request world rounds).ready =
      ⟨owner, .listening channel next⟩ :: ready)
    {delivery : Delivery (Outcome S)} {middle : Machine W (Outcome S)}
    (taken : Machine.take? { workflow.machineAfter attached clock allowance request world rounds with ready }
      channel =
      some (delivery, middle))
    {fork : ForkRequest S} {started room : Nat} {join : Join S} {onward : Snapshot S → Program W (Outcome S)}
    (heard : next delivery =
      workflow.engine.gather fork started channel (workflow.engine.conclude fork · onward) room join)
    (satisfied : join.isSatisfied = true)
    (goesOn : ∀ own later, Program.Twins Eq own (onward later) (onward later)) :
    (workflow.machineAfter attached clock allowance request world (rounds + 1)).Left channel := by
  obtain ⟨one, anonymous⟩ := workflow.anonymous_after attached clock allowance request world rounds
  rw [machineAfter, Function.iterate_succ_apply', ← machineAfter]
  refine .of_report (workflow.kin_after attached clock allowance request world rounds) one queue
    (anonymous _ (Machine.strands_ready queue ▸ List.mem_cons_self)) taken ?_
  rw [heard]
  exact workflow.engine.gather_twins_of_satisfied started channel
    (fun own join => Engine.conclude_twins fork join goesOn) room satisfied none

/-- Once some forks have gone on, their branches are abandoned for good, and so are all that descend from these. -/
theorem abandons_after {same : W → W → Prop} {roots : Nat → Bool}
    (left : ∀ channel, roots channel = true →
      (workflow.machineAfter attached clock allowance request world rounds).Left channel) (more : Nat)
    {lost : Nat → Bool}
    (family : lost = descends (workflow.openerAfter attached clock allowance request world (rounds + more)) roots)
    (hidden : ∀ strand ∈ (workflow.machineAfter attached clock allowance request world (rounds + more)).strands,
      strand.isLost lost = true → strand.wait.Calls (Effect.Hidden same))
    (respects : ∀ strand ∈ (workflow.machineAfter attached clock allowance request world (rounds + more)).strands,
      strand.isLost lost = false → strand.wait.Calls (Effect.Respects same)) :
    (∀ channel, roots channel = true → lost channel = true) ∧
      (workflow.machineAfter attached clock allowance request world (rounds + more)).Abandons same lost := by
  subst family
  have forGood (channel : Nat) (root : roots channel = true) :=
    workflow.left_after attached clock allowance request world rounds (left channel root) more
  exact ⟨fun _ root => descends_of_root root,
    (workflow.kin_after attached clock allowance request world (rounds + more)).abandons forGood hidden respects⟩

end Workflow

/-- Abandoned branches do not influence the run. Take any point of a run that comes to an end, and branches that
have been abandoned by then. Suppose that what they call is hidden from all others, and that whatever all others
call, and the end of the run, does the same in worlds that look the same to them. Then whatever the abandoned
branches do from there on in place of what they have done, the run comes to the same result at the same time, in
a world that looks the same, if all others see the same readings of the clock; or else one of these branches
uses up its allowance. -/
theorem Workflow.abandoned_branches_are_without_influence {S O : Type} {same : W → W → Prop}
    (equivalence : Equivalence same) {workflow : Workflow W S O}
    (closes : ∀ outcome, (workflow.finish outcome).Respects same)
    (attached : Bool) (clock fill : Nat → Readings) (allowance : Nat) (request : Request S) (world : W)
    {ending : Verdict (Result S O) × Machine W (Outcome S)}
    (ends : workflow.run attached clock allowance request world = some ending)
    {rounds room : Nat} {known : Option (Verdict (Result S O))}
    (stage : workflow.run attached clock allowance request world =
      Machine.run attached clock workflow.finish room known
        (workflow.machineAfter attached clock allowance request world rounds))
    {lost : Nat → Bool}
    (abandons : (workflow.machineAfter attached clock allowance request world rounds).Abandons same lost)
    {tired : Prop} {other : Machine W (Outcome S)}
    (replaces :
      (workflow.machineAfter attached clock allowance request world rounds).Replaces same tired lost other) :
    other.ComesTo tired attached clock fill workflow.finish known (Machine.EndsAlike same ending) := by
  obtain ⟨one, anonymous⟩ := workflow.anonymous_after attached clock allowance request world rounds
  have kin := workflow.kin_after attached clock allowance request world rounds
  have weaves := replaces.weaves abandons one anonymous fun strand => kin.opened
  exact Machine.carries equivalence attached clock fill closes room (stage ▸ ends) (fun _ => trivial)
    (replaces.one one) weaves

namespace Race
open Workflow (openNode meetNode)

def quickNode : NodeId := ⟨"quick", by decide +kernel, by decide⟩
def slowNode : NodeId := ⟨"slow", by decide +kernel, by decide⟩
def lateNode : NodeId := ⟨"late", by decide +kernel, by decide⟩
def lastNode : NodeId := ⟨"last", by decide +kernel, by decide⟩
def endNode : NodeId := ⟨"end", by decide +kernel, by decide⟩

/-- A fork that goes on with the quick one of its two branches. Both it and the slow branch that it has left
behind fork again later. -/
def race (executor : Effect W Bool) : Blueprint W Unit Unit where
  name := none
  nodes :=
    [(Node.new openNode fun _ => .done (.ok (.ofAction
        (.fork [quickNode, slowNode] .parallel .empty none)))).asEntryPoint,
      Node.new quickNode fun _ => .done (.ok (.ofAction (.join meetNode .any none none))),
      Node.new slowNode fun _ => .sleep 10 fun _ => .done (.ok (.ofAction
        (.fork [lateNode] .parallel .empty none))),
      Node.new lateNode fun _ => .done (.ok .complete),
      Node.new meetNode fun _ => .sleep 20 fun _ => .done (.ok (.ofAction
        (.fork [lastNode] .parallel .empty none))),
      Node.new lastNode fun _ => .done (.ok (.join endNode)),
      Node.new endNode fun _ => .done (.ok .complete)]
  edges :=
    [.new ⟨"to quick", by decide +kernel, by decide⟩ openNode quickNode .always default,
      .new ⟨"to slow", by decide +kernel, by decide⟩ openNode slowNode .always default,
      .new ⟨"to meet", by decide +kernel, by decide⟩ quickNode meetNode .always default,
      .new ⟨"to late", by decide +kernel, by decide⟩ slowNode lateNode .always default,
      .new ⟨"to last", by decide +kernel, by decide⟩ meetNode lastNode .always default,
      .new ⟨"to end", by decide +kernel, by decide⟩ lastNode endNode .always default]
  defaultEntry := none
  extractor := some fun _ => .pure (.ok ())
  monitors := []
  executor
  merger := .lastWriterWins
  ids := fun _ => .pure "run"
  tracer := fun _ => .pure ()
  timers := none
  config := {}

/-- An executor that counts the tasks it is given, and drops the fourth one. -/
def forgetful : Effect Nat Bool := fun _ tasks => (tasks != 3, tasks + 1)

def verdictText : Option (Verdict (Result Unit Unit) × Machine W (Outcome Unit)) → Option String
  | some (.settled (.success _ final), _) => final.currentNode.map Ident.text
  | some (.settled (.failure error _), _) => some error.message
  | _ => none

def atMeet (workflow : Workflow W Unit Unit) (world : W) : Machine W (Outcome Unit) :=
  workflow.machineAfter true (fun _ _ => default) 30 (.start () .empty) world 5

/-- The same machine, but the slow branch sleeps forever. -/
def slowAsleep (workflow : Workflow W Unit Unit) (world : W) : Machine W (Outcome Unit) :=
  (atMeet workflow world).instead (fun _ => true) (.resting fun _ => .never)

def OneLeft (machine : Machine W (Outcome Unit)) : Prop :=
  machine.strands.map (fun strand => (Machine.isMain strand, strand.rests)) = [(false, true), (true, true)]

theorem race_told : ((race forgetful).build.toOption.map fun workflow =>
    ((atMeet workflow 0).strands.map fun strand => (Machine.isMain strand, strand.rests),
      verdictText (workflow.run true (fun _ _ => default) 30 (.start () .empty) 0),
      verdictText (Machine.run true (fun _ _ => default) workflow.finish 25 none (slowAsleep workflow 0)))) =
    some ([(false, true), (true, true)],
      some "Workflow task failed: fork at meet lost 1 branch(es) before they reported", some "end") := by
  decide +kernel

/-- No node of the race calls anything, and its merger is a function of its arguments. Yet it depends on the
slow branch how the run ends: if that branch forks once more, the executor drops a task of the main loop in its
place. -/
theorem slow_branch_costs_last_one :
    (∀ node ∈ (race forgetful).nodes, node.Calls fun _ => False) ∧
    ∃ workflow, (race forgetful).build = .ok workflow ∧ OneLeft (atMeet workflow 0) ∧
      verdictText (workflow.run true (fun _ _ => default) 30 (.start () .empty) 0) =
        some "Workflow task failed: fork at meet lost 1 branch(es) before they reported" ∧
      verdictText (Machine.run true (fun _ _ => default) workflow.finish 25 none (slowAsleep workflow 0)) =
        some "end" := by
  refine ⟨fun node member => ?_, ?_⟩
  · simp only [race, List.mem_cons, List.not_mem_nil, or_false] at member
    rcases member with rfl | rfl | rfl | rfl | rfl | rfl | rfl <;>
      exact ⟨fun _ => trivial, by rintro hook ⟨⟩, by rintro hook ⟨⟩, by rintro hook ⟨⟩, by rintro hook ⟨⟩⟩
  · have found := race_told
    cases built : (race forgetful).build with
    | error error =>
        rw [built] at found
        cases found
    | ok workflow =>
        rw [built] at found
        simp only [Except.toOption, Option.map_some, Option.some.injEq, Prod.mk.injEq] at found
        exact ⟨workflow, rfl, found⟩

theorem rests_of_oneLeft {machine : Machine W (Outcome Unit)} (left : OneLeft machine) :
    ∀ strand ∈ machine.strands, strand.rests = true := by
  intro strand member
  have pair := List.mem_map_of_mem (f := fun strand => (Machine.isMain strand, strand.rests)) member
  rw [left] at pair
  simp only [List.mem_cons, Prod.mk.injEq, List.not_mem_nil, or_false] at pair
  rcases pair with ⟨_, rests⟩ | ⟨_, rests⟩
  · exact rests
  · exact rests

theorem abandons_of_rests {machine : Machine Unit (Outcome Unit)}
    (rests : ∀ strand ∈ machine.strands, strand.rests = true) : machine.Abandons Eq fun _ => true where
  listens strand member channel next waits := by
    have still := rests strand member
    rw [Strand.rests, waits] at still
    cases still
  hidden strand _ _ := Wait.calls_of_forall (fun _ _ _ => rfl) strand.wait
  respects strand _ _ := Wait.calls_of_forall (fun effect => .refl effect) strand.wait

/-- With an executor that drops nothing, it makes no difference to the race if the slow branch sleeps forever. -/
theorem race_goes_on_without_slow_branch :
    ∃ workflow ending, (race (.pure true)).build = .ok workflow ∧ OneLeft (atMeet workflow ()) ∧
      workflow.run true (fun _ _ => default) 30 (.start () .empty) () = some ending ∧
      verdictText (some ending) = some "end" ∧
      (slowAsleep workflow ()).ComesTo False true (fun _ _ => default) (fun _ _ => default) workflow.finish none
        (Machine.EndsAlike Eq ending) := by
  obtain ⟨workflow, ending, built, left, ends, success⟩ : ∃ workflow ending,
      (race (W := Unit) (.pure true)).build = .ok workflow ∧ OneLeft (atMeet workflow ()) ∧
        workflow.run true (fun _ _ => default) 30 (.start () .empty) () = some ending ∧
        verdictText (some ending) = some "end" :=
    ⟨_, _, rfl, rfl, rfl, rfl⟩
  refine ⟨workflow, ending, built, left, ends, success, ?_⟩
  have one := (workflow.anonymous_after true (fun _ _ => default) 30 (.start () .empty) () 5).1
  have kin := workflow.kin_after true (fun _ _ => default) 30 (.start () .empty) () 5
  have mains : (atMeet workflow ()).strands.countP Machine.isMain = 1 := by
    have counted := congrArg (List.countP Prod.fst) left
    rwa [List.countP_map] at counted
  obtain ⟨room, stage⟩ := (Machine.OneMain.start () _).run_at_round true (fun _ _ => default) workflow.finish 5 ends
    (mains ▸ Nat.one_pos)
  exact Workflow.abandoned_branches_are_without_influence eq_equivalence (fun outcome => .refl _) true
    (fun _ _ => default) (fun _ _ => default) 30 (.start () .empty) () ends stage
    (abandons_of_rests (rests_of_oneLeft left))
    (Machine.replaces_instead eq_equivalence one (fun strand => kin.opened) trivial)

end Race
end FlowGraph
