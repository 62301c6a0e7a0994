import FlowGraph.Proofs.Containment.Step
import FlowGraph.Proofs.Program.Agrees
import FlowGraph.Proofs.Snapshot.Alike

/-!
Engines whose parts depend on nothing but their arguments and do not tell snapshots apart that are alike. As long
as their loops do not wait, they turn snapshots that are alike into outcomes that are.
-/

namespace FlowGraph
variable {W S : Type} {same : Instant → Instant → Prop}

def Condition.Steady (same : Instant → Instant → Prop) (condition : Condition S) : Prop :=
  ∀ snapshot other, snapshot.Alike same other → condition.evaluate snapshot = condition.evaluate other

structure Hooks.Steady (same : Instant → Instant → Prop) (hooks : Hooks W S) : Prop where
  validate : ∀ hook, hooks.validate = some hook → ∀ snapshot other, snapshot.Alike same other →
    (hook snapshot).Agrees (hook other)
  before : ∀ hook, hooks.before = some hook → ∀ snapshot other, snapshot.Alike same other →
    (hook snapshot).Agrees (hook other)
  after : ∀ hook, hooks.after = some hook → ∀ snapshot other command, snapshot.Alike same other →
    (hook snapshot command).Agrees (hook other command)
  onError : ∀ hook, hooks.onError = some hook → ∀ snapshot other error, snapshot.Alike same other →
    (hook snapshot error).Agrees (hook other error)

structure Node.Steady (same : Instant → Instant → Prop) (node : Node W S) : Prop where
  process : ∀ snapshot other, snapshot.Alike same other → (node.process snapshot).Agrees (node.process other)
  hooks : node.hooks.Steady same
  commands : node.Within fun _ condition => condition.Steady same

structure Engine.Steady (same : Instant → Instant → Prop) (engine : Engine W S) : Prop where
  timers : engine.timers = none
  nodes : ∀ node ∈ engine.topology.nodes, node.Steady same
  edges : ∀ edge ∈ engine.topology.edges, edge.condition.Steady same
  merger : ∀ base other joined others, base.Alike same other →
    List.Forall₂ (JoinedBranch.Alike same) joined others →
      (engine.merger base joined).Agrees (engine.merger other others)

theorem Merger.lastWriterWins_agrees {base other : Snapshot S} (bases : base.Alike same other)
    {joined others : List (JoinedBranch S)} (branches : List.Forall₂ (JoinedBranch.Alike same) joined others) :
    ((lastWriterWins : Merger W S) base joined).Agrees (lastWriterWins other others) := by
  rintro _ _ ⟨_, _, rfl⟩ ⟨_, _, rfl⟩
  simp only [lastWriterWins, Effect.pure, lastWriterWins_alike bases branches]

namespace Node
variable {node : Node W S} {snapshot other : Snapshot S}

theorem guarded_agrees {α : Type} {effect another : Effect W (Attempt α)} (effects : effect.Agrees another)
    {next again : α → Activity W (Except Error (Command S))}
    (rest : ∀ value, (next value).Agrees (again value)) :
    (guarded effect next).Agrees (guarded another again) := by
  refine Activity.Agrees.call effects ?_
  rintro (panic | value)
  · exact Activity.agrees_done _
  · exact rest value

theorem Steady.validated (steady : node.Steady same) (alike : snapshot.Alike same other)
    {next again : Activity W (Except Error (Command S))} (rest : next.Agrees again) :
    (node.validated snapshot next).Agrees (node.validated other again) := by
  unfold Node.validated
  cases given : node.hooks.validate with
  | none => exact rest
  | some hook =>
      refine guarded_agrees (steady.hooks.validate hook given _ _ alike) ?_
      rintro (error | _)
      · exact Activity.agrees_done _
      · exact rest

theorem Steady.prepared (steady : node.Steady same) (alike : snapshot.Alike same other)
    {next again : Activity W (Except Error (Command S))} (rest : next.Agrees again) :
    (node.prepared snapshot next).Agrees (node.prepared other again) := by
  unfold Node.prepared
  cases given : node.hooks.before with
  | none => exact rest
  | some hook => exact guarded_agrees (steady.hooks.before hook given _ _ alike) fun _ => rest

theorem Steady.concluded (steady : node.Steady same) (alike : snapshot.Alike same other)
    (reply : Except Error (Command S)) :
    (node.concluded snapshot reply).Agrees (node.concluded other reply) := by
  unfold Node.concluded
  cases reply with
  | ok command =>
      cases given : node.hooks.after with
      | none => exact Activity.agrees_done _
      | some hook =>
          exact guarded_agrees (steady.hooks.after hook given _ _ command alike) fun _ =>
            Activity.agrees_done _
  | error error =>
      cases given : node.hooks.onError with
      | none => exact Activity.agrees_done _
      | some hook =>
          exact guarded_agrees (steady.hooks.onError hook given _ _ error alike) fun _ =>
            Activity.agrees_done _

theorem Steady.lifecycle (steady : node.Steady same) (alike : snapshot.Alike same other) :
    (node.lifecycle none snapshot).Agrees (node.lifecycle none other) := by
  refine steady.validated alike (steady.prepared alike (Activity.Agrees.bind ?_ ?_))
  · exact ((steady.process _ _ alike).bind fun _ => Activity.agrees_done _).contained Reply.broken
  · rintro (reply | panic)
    · exact steady.concluded alike reply
    · exact Activity.agrees_done _

end Node

inductive Step.Alike (same : Instant → Instant → Prop) : Step S → Step S → Prop where
  | proceed {next other : Snapshot S} (alike : next.Alike same other) : Alike same (.proceed next) (.proceed other)
  | finish {outcome other : Outcome S} (alike : outcome.Alike same other) :
      Alike same (.finish outcome) (.finish other)
  | fork {request : ForkRequest S} {base : Snapshot S} (alike : request.base.Alike same base) :
      Alike same (.fork request) (.fork { request with base })

namespace Engine
variable {engine : Engine W S} {snapshot other : Snapshot S}

theorem firstAdmitting_alike (alike : snapshot.Alike same other) (edges : List (Edge S))
    (steady : ∀ edge ∈ edges, edge.condition.Steady same) :
    firstAdmitting snapshot edges = firstAdmitting other edges := by
  induction edges with
  | nil => rfl
  | cons edge rest ih =>
      have first : edge.admits snapshot = edge.admits other :=
        steady edge List.mem_cons_self snapshot other alike
      simp only [firstAdmitting, first, ih fun later member => steady later (List.mem_cons_of_mem _ member)]

theorem Steady.selectEdge (steady : engine.Steady same) (alike : snapshot.Alike same other)
    (current target : NodeId) :
    engine.selectEdge current snapshot target = engine.selectEdge current other target := by
  unfold Engine.selectEdge
  cases between : engine.topology.edgesBetween current target with
  | nil => rfl
  | cons first rest =>
      have admitting := firstAdmitting_alike alike (first :: rest) fun edge member =>
        steady.edges edge (Topology.mem_edges_of_edgesBetween (between ▸ member))
      simp only [admitting]

theorem conditionHolds_alike (alike : snapshot.Alike same other) (condition : Option (Condition S))
    (steady : ∀ given, condition = some given → given.Steady same) :
    conditionHolds condition snapshot = conditionHolds condition other := by
  cases condition with
  | none => rfl
  | some given => exact steady given rfl _ _ alike

theorem Steady.traverse (blurred : Instant.Blurred same) (steady : engine.Steady same)
    (alike : snapshot.Alike same other) (current target : NodeId) {condition : Option (Condition S)}
    (steadily : ∀ given, condition = some given → given.Steady same) (updates : Context) (data : Option S)
    {readings others : Readings} (times : readings.Alike same others) :
    Paired Eq (Paired Eq (Snapshot.Alike same))
      (engine.traverse current snapshot target condition updates data readings)
      (engine.traverse current other target condition updates data others) := by
  refine (Paired.of_eq (conditionHolds_alike alike condition steadily)).bind fun held _ sameHeld => ?_
  subst sameHeld
  simp only
  split
  · exact .ok (.error rfl)
  · refine (Paired.of_eq (steady.selectEdge alike current target)).bind fun selected _ sameEdge => ?_
    subst sameEdge
    cases selected with
    | error error => exact .ok (.error rfl)
    | ok edge =>
        have updated := alike.withUpdates blurred updates data times
        exact .ok (.ok (updated.traverse blurred edge.id target (times _ _) (times _ _)))

theorem eligible_alike (alike : snapshot.Alike same other) {conditions : Dict NodeId (Condition S)}
    (steady : ∀ entry ∈ conditions.entries, entry.2.Steady same) (targets : List NodeId) :
    eligible conditions snapshot targets = eligible conditions other targets := by
  induction targets with
  | nil => rfl
  | cons target rest ih =>
      have first : branchHolds conditions snapshot target = branchHolds conditions other target := by
        refine conditionHolds_alike alike _ fun given found => ?_
        obtain ⟨entry, member, rfl⟩ := Dict.mem_entries_of_get? found
        exact steady entry member
      simp only [eligible, first, ih]

theorem ofMove_alike (alike : snapshot.Alike same other) {moved another : Except Error (Snapshot S)}
    (paired : Paired Eq (Snapshot.Alike same) moved another) :
    (ofMove snapshot moved).Alike same (ofMove other another) := by
  cases paired with
  | ok next => exact .proceed next
  | error sameError =>
      subst sameError
      exact .finish (.failed (.some alike))

theorem Steady.apply (blurred : Instant.Blurred same) (steady : engine.Steady same) (mode : Mode)
    (current : NodeId) (alike : snapshot.Alike same other) {command : Command S}
    (steadily : command.Within fun _ condition => condition.Steady same) {readings others : Readings}
    (times : readings.Alike same others) :
    Paired Eq (Step.Alike same) (engine.apply mode current snapshot command readings)
      (engine.apply mode current other command others) := by
  have updated (data : Option S) := alike.withUpdates blurred command.updates data times
  obtain ⟨action, updates⟩ := command
  cases action with
  | traverse target condition data =>
      have conditions : ∀ given, condition = some given → given.Steady same := by
        rintro given rfl
        exact steadily (.move, given) List.mem_cons_self
      exact (steady.traverse blurred alike current target conditions updates data times).bind
        fun _ _ moved => .ok (ofMove_alike alike moved)
  | fork targets strategy conditions data =>
      simp only [Engine.apply]
      cases engine.forkFault current targets with
      | some error => exact .ok (.finish (.failed (.some alike)))
      | none =>
          have base := updated data
          have started :
              forkTargets current (withUpdates snapshot updates data readings) targets strategy conditions =
                forkTargets current (withUpdates other updates data others) targets strategy conditions := by
            cases strategy with
            | parallel => rfl
            | sequential => rfl
            | conditional =>
                have kept := eligible_alike base (fun entry member =>
                  steadily (.branch, entry.2) (List.mem_map.mpr ⟨entry, member, rfl⟩)) targets
                simp only [forkTargets, kept]
          refine (Paired.of_eq started).bind fun kept _ sameKept => ?_
          subst sameKept
          cases kept with
          | ok targets =>
              have request : Step.Alike same (.fork ⟨current, _, targets, strategy⟩) _ := .fork base
              exact .ok request
          | error error => exact .ok (.finish (.failed (.some base)))
  | join node policy timeout data =>
      cases mode with
      | root =>
          exact (steady.traverse blurred alike current node (by simp) updates data times).bind
            fun _ _ moved => .ok (ofMove_alike alike moved)
      | branch =>
          refine (Paired.of_eq (steady.selectEdge alike current node)).bind fun selected _ sameEdge => ?_
          subst sameEdge
          cases selected with
          | error error => exact .ok (.finish (.failed (.some alike)))
          | ok edge => exact .ok (.finish (.joined (updated data)))
  | suspend id reason timeout => exact .ok (.finish (.suspended (updated none)))
  | complete data => exact .ok (.finish (.completed (updated data)))
  | error message recoverable fallback =>
      simp only [Engine.apply]
      split
      · split
        · exact .ok (.proceed ((updated none).moveTo blurred _ (times _ _)))
        · exact .ok (.finish (.failed (.some (updated none))))
      · exact .ok (.finish (.failed (.some (updated none))))

end Engine
end FlowGraph
