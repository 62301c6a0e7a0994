import FlowGraph.Proofs.Loop.Ends
import FlowGraph.Proofs.Program.Vouched
import FlowGraph.Proofs.Workflow.Noting

/-!
Loops whose outcomes a record vouches for. It is enough to look at what one turn makes of a snapshot that is fit,
and at what can go wrong in a turn; then the notes of a run vouch for the outcomes of its loops at any depth.
-/

namespace FlowGraph

def Join.Awaits {S : Type} (joinable : NodeId → Prop) (join : Join S) : Prop :=
  ∀ terms, join.terms = some terms → joinable terms.node

namespace Engine
variable {W S : Type}

/-- Why a loop may stop without a command. -/
inductive StopsWith (engine : Engine W S) (snapshot : Snapshot S) : Error → Prop where
  | unpositioned (nowhere : snapshot.currentNode = none) : StopsWith engine snapshot .unpositioned
  | guarded {current : NodeId} {steps : Nat} {error : Error}
      (fault : guardFault engine.config steps snapshot current = some error) : StopsWith engine snapshot error
  | unknown {current : NodeId} (standing : snapshot.currentNode = some current)
      (nobody : engine.topology.node? current = none) : StopsWith engine snapshot (.nodeNotFound current)
  | refused {current : NodeId} {node : Node W S} {error : Error}
      (known : engine.topology.node? current = some node)
      (answered : (node.lifecycle engine.timers snapshot).MayEnd (.ok (.error error))) :
      StopsWith engine snapshot error

/-- Why a fork may fail although none of its branches does. -/
inductive ForkFails (engine : Engine W S) (request : ForkRequest S) : Error → Prop where
  | lost (reason : String) : ForkFails engine request (.taskJoin reason)
  | late (node : NodeId) (timeout : Span) : ForkFails engine request (.joinTimeout node timeout)
  | unmerged {joined : List (JoinedBranch S)} {error : Error}
      (answered : (engine.merger request.base joined).Gives (.ok (.error error))) : ForkFails engine request error
  | unpositioned (nowhere : request.base.position = none) : ForkFails engine request .unpositioned

/-- A node has been executed, on record, and has answered with the command. -/
structure Executed (engine : Engine W S) (notes : List (Note S)) (current : NodeId) (node : Node W S)
    (snapshot : Snapshot S) (steps : Nat) (command : Command S) : Prop where
  noted : .told (.nodeCompleted current snapshot command) ∈ notes
  standing : snapshot.currentNode = some current
  admitted : guardFault engine.config steps snapshot current = none
  known : engine.topology.node? current = some node
  answered : (node.lifecycle engine.timers snapshot).MayEnd (.ok (.ok command))

theorem Executed.answers {engine : Engine W S} {notes : List (Note S)} {current : NodeId} {node : Node W S}
    {snapshot : Snapshot S} {steps : Nat} {command : Command S}
    (executed : engine.Executed notes current node snapshot steps command) {mode : Mode} {readings : Readings}
    {step : Step S} (applied : engine.apply mode current snapshot command readings = .ok step) :
    engine.Answers mode snapshot step :=
  ⟨current, node, command, readings, steps, executed.standing, executed.admitted, executed.known,
    executed.answered, applied⟩

/-- The notes vouch for whatever one turn of a loop on a fit snapshot comes to, and the snapshots that it leads to
are fit again. Branches may join at joinable nodes only. -/
structure Vouching (engine : Engine W S) (fit : Snapshot S → Prop) (joinable : NodeId → Prop)
    (vouches : List (Note S) → Outcome S → Prop) : Prop where
  stopped : ∀ {notes snapshot error}, fit snapshot → engine.StopsWith snapshot error →
    vouches notes (.failed error (some snapshot))
  finished : ∀ {notes mode current node snapshot steps command readings outcome}, fit snapshot →
    engine.Executed notes current node snapshot (steps + 1) command →
      engine.apply mode current snapshot command readings = .ok (.finish outcome) → vouches notes outcome
  moved : ∀ {mode snapshot next}, fit snapshot → engine.Answers mode snapshot (.proceed next) → fit next
  seeded : ∀ {mode snapshot seed}, fit snapshot → engine.Seeds mode snapshot seed → fit seed
  unmerged : ∀ {notes mode snapshot request error}, fit snapshot →
    engine.Answers mode snapshot (.fork request) → engine.ForkFails request error →
      vouches notes (.failed error (some request.base))
  astray : ∀ {notes source node reason last}, vouches notes (.failed (.traversal source node reason) last)
  joins : ∀ {notes node policy timeout last}, vouches notes (.joined node policy timeout last) → joinable node
  rejoined : ∀ {mode snapshot request node joined answer readings next}, fit snapshot →
    engine.Answers mode snapshot (.fork request) → joinable node →
      reconcile request.base node joined answer readings = .ok next → fit next

theorem expired_fails {engine : Engine W S} {request : ForkRequest S} {join : Join S} {elapsed : Nat} {error : Error}
    (expired : join.expired elapsed = some error) : engine.ForkFails request error := by
  unfold Join.expired at expired
  split at expired
  · cases expired
  · split at expired
    · cases expired
    · cases expired
      exact .late _ _

theorem reconcile_fails {engine : Engine W S} {request : ForkRequest S} {node : NodeId}
    {joined : List (JoinedBranch S)}
    {answer : Attempt (Except Error (Merged S))} {readings : Readings} {error : Error}
    (gives : (engine.merger request.base joined).Gives answer)
    (refused : reconcile request.base node joined answer readings = .error error) :
    engine.ForkFails request error := by
  rcases answer with panic | failure | merged
  · cases refused
    exact .lost _
  · cases refused
    exact .unmerged gives
  · simp only [reconcile] at refused
    split at refused
    · cases refused
      exact .unpositioned ‹_›
    · cases refused

theorem perform_vouched {α : Type} {N R : Type} {vouches : List N → R → Prop} {notes : List N}
    (activity : Activity W α) {next : α → Program (W × List N) R}
    (onward : ∀ value more, activity.MayEnd (.ok value) → (next value).Vouched vouches more) :
    (Program.perform (activity.beside (List N)) next).Vouched vouches notes := by
  induction activity generalizing notes with
  | done value => exact onward value notes rfl
  | @call β effect rest ih =>
      rintro time ⟨world, record⟩ _
      exact ⟨List.Subset.refl _, ih _ fun value more may => onward value more ⟨_, ⟨time, world, rfl⟩, may⟩⟩
  | sleep millis rest ih => exact ih () onward
  | broken panic => trivial
  | never => trivial

theorem beside_adds {α : Type} (effect : Effect W α) (N : Type) : (effect.beside (List N)).Adds :=
  fun _ world => List.Subset.refl world.2

theorem noting_adds {α N : Type} (effect : Effect W α) (note : N) : (effect.noting note).Adds :=
  fun _ _ => List.subset_append_left _ _

variable {engine : Engine W S} {fit : Snapshot S → Prop} {joinable : NodeId → Prop}
  {vouches : List (Note S) → Outcome S → Prop} {notes : List (Note S)} {mode : Mode} {snapshot : Snapshot S}
  {request : ForkRequest S} {branch : Snapshot S → Program (W × List (Note S)) (Outcome S)}

theorem notify_vouched (notice : Notice S) {next : Program (W × List (Note S)) (Outcome S)}
    (onward : ∀ more, .told notice ∈ more → next.Vouched vouches more) :
    (engine.noting.notify notice next).Vouched vouches notes :=
  fun _ _ _ => ⟨List.subset_append_left _ _, onward _ (List.mem_append_right _ List.mem_cons_self)⟩

theorem submit_vouched (targets : List NodeId) :
    ∀ {next : List NodeId → Program (W × List (Note S)) (Outcome S)} {notes : List (Note S)},
      (∀ taken ⊆ targets, ∀ more, (next taken).Vouched vouches more) →
        (engine.noting.submit next targets).Vouched vouches notes := by
  induction targets with
  | nil => exact fun onward => onward [] (List.Subset.refl _) _
  | cons target rest ih =>
      intro next notes onward
      refine .call (beside_adds _ _) fun taken more => ih fun others fewer => onward _ ?_
      split
      · exact List.cons_subset_cons target fewer
      · exact List.subset_cons_of_subset target fewer

namespace Vouching

theorem conclude (vouching : engine.Vouching fit joinable vouches) (fits : fit snapshot)
    (answers : engine.Answers mode snapshot (.fork request))
    {next : Snapshot S → Program (W × List (Note S)) (Outcome S)} {join : Join S} (awaits : join.Awaits joinable)
    (onward : ∀ later, fit later → ∀ more, (next later).Vouched vouches more) :
    (engine.noting.conclude request join next).Vouched vouches notes := by
  have failed {error : Error} (fails : engine.ForkFails request error) (more : List (Note S)) :
      (failed (W := W × List (Note S)) error request.base).Vouched vouches more :=
    vouching.unmerged fits answers fails
  unfold Engine.conclude
  split
  · exact failed (.lost _) notes
  · rename_i terms fixed
    rintro time ⟨world, record⟩ _
    refine ⟨noting_adds _ _ time (world, record), fun readings => ?_⟩
    simp only
    split
    · rename_i later merged
      exact onward later (vouching.rejoined fits answers (awaits terms fixed) merged) _
    · exact failed (reconcile_fails ⟨time, world, rfl⟩ ‹_›) _

theorem recorded (vouching : engine.Vouching fit joinable vouches) {join : Join S} (awaits : join.Awaits joinable)
    (name : NodeId) {outcome : Outcome S} (vouched : vouches notes outcome) :
    (∀ ending, join.record name outcome = .error ending → vouches notes ending) ∧
      ∀ next, join.record name outcome = .ok next → next.Awaits joinable := by
  refine ⟨fun ending refused => ?_, fun next taken => ?_⟩
  · rcases Join.record_error refused with ⟨rfl, _⟩ | ⟨_, _, _, _, _, _, rfl, rfl⟩
    · exact vouched
    · exact vouching.astray
  · obtain ⟨node, policy, timeout, last, terms, rfl, fixed, rfl⟩ := Join.record_ok taken
    rintro _ ⟨⟩
    rcases fixed with before | ⟨_, rfl⟩
    · exact awaits terms before
    · exact vouching.joins vouched

theorem inSequence (vouching : engine.Vouching fit joinable vouches) (fits : fit snapshot)
    (answers : engine.Answers mode snapshot (.fork request)) (started : Nat)
    {next : Join S → Program (W × List (Note S)) (Outcome S)}
    (branches : ∀ first, fit first → ∀ more, (branch first).Vouched vouches more)
    (onward : ∀ join : Join S, join.Awaits joinable → ∀ more, (next join).Vouched vouches more)
    (targets : List NodeId) : targets ⊆ request.targets → ∀ (join : Join S) (notes : List (Note S)),
      join.Awaits joinable → (inSequence branch request started next join targets).Vouched vouches notes := by
  induction targets with
  | nil => exact fun _ join notes awaits => onward join awaits notes
  | cons target rest ih =>
      intro among join notes awaits
      rw [Engine.inSequence]
      split
      · exact onward join awaits notes
      · intro readings
        have seed : fit (request.base.moveTo target (readings 0)) :=
          vouching.seeded fits (.started answers (among List.mem_cons_self) rfl)
        refine (branches _ seed notes).bind fun outcome more vouched => ?_
        obtain ⟨ends, goesOn⟩ := vouching.recorded awaits target vouched
        split
        · exact ends _ ‹_›
        · rename_i joined taken
          refine .time fun now latest => ?_
          split
          · exact vouching.unmerged fits answers (expired_fails ‹_›)
          · exact ih (fun _ later => among (List.mem_cons_of_mem _ later)) joined latest (goesOn joined taken)

theorem gather (vouching : engine.Vouching fit joinable vouches) (fits : fit snapshot)
    (answers : engine.Answers mode snapshot (.fork request)) (started channel : Nat)
    {next : Join S → Program (W × List (Note S)) (Outcome S)}
    (onward : ∀ join : Join S, join.Awaits joinable → ∀ more, (next join).Vouched vouches more) (allowance : Nat) :
    ∀ (join : Join S) (notes : List (Note S)), join.Awaits joinable →
      (engine.noting.gather request started channel next allowance join).Vouched vouches notes := by
  induction allowance with
  | zero => exact fun _ _ _ => trivial
  | succ allowance ih =>
      intro join notes awaits
      rw [Engine.gather]
      split
      · exact onward join awaits notes
      · refine .time fun now later => ?_
        split
        · exact vouching.unmerged fits answers (expired_fails ‹_›)
        · split
          · trivial
          · rintro (⟨name, outcome⟩ | _ | _) more _ vouched
            · obtain ⟨ends, goesOn⟩ := vouching.recorded awaits name vouched
              simp only
              split
              · exact ends _ ‹_›
              · exact ih _ more (goesOn _ ‹_›)
            · exact vouching.unmerged fits answers (.lost _)
            · exact ih join more awaits

theorem fork (vouching : engine.Vouching fit joinable vouches) (fits : fit snapshot)
    (answers : engine.Answers mode snapshot (.fork request))
    {next : Snapshot S → Program (W × List (Note S)) (Outcome S)} (allowance : Nat)
    (branches : ∀ first, fit first → ∀ more, (branch first).Vouched vouches more)
    (onward : ∀ later, fit later → ∀ more, (next later).Vouched vouches more) :
    (engine.noting.fork branch allowance request next).Vouched vouches notes := by
  have concludes (join : Join S) (awaits : join.Awaits joinable) (more : List (Note S)) :
      (engine.noting.conclude request join next).Vouched vouches more :=
    vouching.conclude fits answers awaits onward
  have nobody (total : Nat) (timeout : Option Span) :
      (Join.start (S := S) request.source total timeout).Awaits joinable := by
    rintro terms ⟨⟩
  have channelled (started : Nat) (more : List (Note S)) :
      (Program.clock fun readings => engine.noting.submit (fun taken =>
        .launch taken (fun place target => branch (request.base.moveTo target (readings place)))
          fun channel => engine.noting.gather request started channel
            (engine.noting.conclude request · next) allowance
            (Join.start request.source request.targets.length engine.noting.config.joinTimeout))
        request.targets).Vouched vouches more := by
    intro readings
    refine submit_vouched request.targets fun taken among more => ⟨fun place target member => ?_, fun channel => ?_⟩
    · exact branches _ (vouching.seeded fits (.started answers (among member) rfl)) more
    · exact vouching.gather fits answers started channel concludes allowance _ more (nobody _ _)
  refine .time fun started more => ?_
  split
  · exact vouching.inSequence fits answers started branches concludes request.targets (List.Subset.refl _) _ more
      (nobody _ _)
  · exact channelled started more
  · exact channelled started more

/-- The notes vouch for what a loop comes to from a fit snapshot. -/
theorem drive (vouching : engine.Vouching fit joinable vouches) (allowance : Nat) :
    ∀ (mode : Mode) (steps : Nat) (snapshot : Snapshot S), fit snapshot → ∀ notes : List (Note S),
      (engine.noting.drive allowance mode steps snapshot).Vouched vouches notes := by
  induction allowance with
  | zero => exact fun _ _ _ _ _ => trivial
  | succ allowance ih =>
      intro mode steps snapshot fits notes
      have stops {error : Error} (why : engine.StopsWith snapshot error) (more : List (Note S)) :
          (failed (W := W × List (Note S)) error snapshot).Vouched vouches more := vouching.stopped fits why
      rw [Engine.drive]
      split
      · exact stops (.unpositioned ‹_›) _
      rename_i current standing
      split
      · exact stops (.guarded ‹_›) _
      rename_i guarded
      have proceeds (next : Snapshot S) (fits : fit next) (more : List (Note S)) :
          (engine.noting.notify (.stateUpdated snapshot next)
            (engine.noting.drive allowance mode (steps + 1) next)).Vouched vouches more :=
        notify_vouched _ fun latest _ => ih mode (steps + 1) next fits latest
      rw [engine.node?_noting]
      cases known : engine.topology.node? current with
      | none => exact stops (.unknown standing known) _
      | some node =>
          refine notify_vouched _ fun before _ => ?_
          rw [engine.lifecycle_noting]
          refine perform_vouched _ fun reply more may => ?_
          cases reply with
          | error error => exact stops (.refused known may) _
          | ok command =>
              refine notify_vouched _ fun latest noted readings => ?_
              simp only [engine.apply_noting]
              have executed : engine.Executed latest current node snapshot (steps + 1) command :=
                ⟨noted, standing, guarded, known, may⟩
              cases applied : engine.apply mode current snapshot command readings with
              | error panic => trivial
              | ok step =>
                  have answers := executed.answers applied
                  cases step with
                  | proceed next => exact proceeds next (vouching.moved fits answers) latest
                  | finish outcome => exact vouching.finished fits executed applied
                  | fork request =>
                      exact vouching.fork fits answers allowance (fun first begins => ih .branch 0 first begins)
                        proceeds

end Vouching
end Engine
end FlowGraph
