import FlowGraph.Proofs.Loop.Vouched
import FlowGraph.Proofs.Program.Solo

/-!
What a loop tells its observer. The notices of a loop have a grammar: each node that is executed is announced
and, unless it fails, so is its command; what follows is made of the notices of the branches, one after the
other, and of the next snapshot. A loop tells nothing else, as long as it comes to no fork whose branches run
side by side.
-/

namespace FlowGraph

namespace Note
variable {S : Type}

def told? : Note S → Option (Notice S)
  | told notice => some notice
  | merges .. => none

def notices (notes : List (Note S)) : List (Notice S) := notes.filterMap told?

@[simp] theorem notices_told (notes : List (Note S)) (notice : Notice S) :
    notices (notes ++ [.told notice]) = notices notes ++ [notice] := by
  simp only [notices, List.filterMap_append]
  rfl

@[simp] theorem notices_merges (notes : List (Note S)) (base : Snapshot S) (joined : List (JoinedBranch S)) :
    notices (notes ++ [.merges base joined]) = notices notes := by
  simp only [notices, List.filterMap_append]
  exact List.append_nil _

end Note

structure BranchLog (S : Type) where
  target : NodeId
  time : Instant
  notices : List (Notice S)
  outcome : Outcome S

namespace BranchLog
variable {S : Type}

def first (branch : BranchLog S) (request : ForkRequest S) : Snapshot S :=
  request.base.moveTo branch.target branch.time

def Joins (request : ForkRequest S) (branch : BranchLog S) : Prop :=
  branch.target ∈ request.targets ∧ IsJoin branch.outcome

end BranchLog

namespace Engine
variable {W S : Type}

structure Enters (engine : Engine W S) (snapshot : Snapshot S) (current : NodeId) (node : Node W S) : Prop where
  standing : snapshot.currentNode = some current
  admitted : ∃ steps, guardFault engine.config steps snapshot current = none
  known : engine.topology.node? current = some node

def Responds (engine : Engine W S) (snapshot : Snapshot S) (current : NodeId) (reply : Except Error (Command S)) :
    Prop :=
  ∃ node, engine.Enters snapshot current node ∧ (node.lifecycle engine.timers snapshot).MayEnd (.ok reply)

structure ForksInTurn (engine : Engine W S) (mode : Mode) (snapshot : Snapshot S) (current : NodeId)
    (command : Command S) (request : ForkRequest S) : Prop where
  responds : engine.Responds snapshot current (.ok command)
  applied : ∃ readings, engine.apply mode current snapshot command readings = .ok (.fork request)
  sequential : request.strategy = .sequential

def executed (current : NodeId) (snapshot : Snapshot S) (command : Command S) : List (Notice S) :=
  [.nodeStarted current snapshot, .nodeCompleted current snapshot command]

/-- The notices of a loop, up to where it waits, or up to its outcome if it has come to one. -/
inductive Logs (engine : Engine W S) : Mode → Snapshot S → List (Notice S) → Option (Outcome S) → Prop where
  | silent {mode : Mode} {snapshot : Snapshot S} : Logs engine mode snapshot [] none
  | stopped {mode : Mode} {snapshot : Snapshot S} {error : Error} (why : engine.StopsWith snapshot error) :
      Logs engine mode snapshot [] (some (.failed error (some snapshot)))
  | entered {mode : Mode} {snapshot : Snapshot S} {current : NodeId} {node : Node W S}
      (enters : engine.Enters snapshot current node) :
      Logs engine mode snapshot [.nodeStarted current snapshot] none
  | refused {mode : Mode} {snapshot : Snapshot S} {current : NodeId} {error : Error}
      (responds : engine.Responds snapshot current (.error error)) :
      Logs engine mode snapshot [.nodeStarted current snapshot] (some (.failed error (some snapshot)))
  | answered {mode : Mode} {snapshot : Snapshot S} {current : NodeId} {command : Command S}
      (responds : engine.Responds snapshot current (.ok command)) :
      Logs engine mode snapshot (executed current snapshot command) none
  | finished {mode : Mode} {snapshot : Snapshot S} {current : NodeId} {command : Command S} {readings : Readings}
      {outcome : Outcome S} (responds : engine.Responds snapshot current (.ok command))
      (applied : engine.apply mode current snapshot command readings = .ok (.finish outcome)) :
      Logs engine mode snapshot (executed current snapshot command) (some outcome)
  | moved {mode : Mode} {snapshot next : Snapshot S} {current : NodeId} {command : Command S} {readings : Readings}
      {rest : List (Notice S)} {stage : Option (Outcome S)}
      (responds : engine.Responds snapshot current (.ok command))
      (applied : engine.apply mode current snapshot command readings = .ok (.proceed next))
      (later : Logs engine mode next rest stage) :
      Logs engine mode snapshot (executed current snapshot command ++ .stateUpdated snapshot next :: rest) stage
  | rejoined {mode : Mode} {snapshot next : Snapshot S} {current node : NodeId} {command : Command S}
      {request : ForkRequest S} {branches : List (BranchLog S)} {joined : List (JoinedBranch S)}
      {answer : Attempt (Except Error (Merged S))} {readings : Readings} {rest : List (Notice S)}
      {stage : Option (Outcome S)} (forks : engine.ForksInTurn mode snapshot current command request)
      (joins : ∀ branch ∈ branches, branch.Joins request)
      (ran : ∀ branch ∈ branches, Logs engine .branch (branch.first request) branch.notices (some branch.outcome))
      (merges : reconcile request.base node joined answer readings = .ok next)
      (later : Logs engine mode next rest stage) :
      Logs engine mode snapshot (executed current snapshot command ++ branches.flatMap BranchLog.notices ++
        .stateUpdated snapshot next :: rest) stage
  | unjoined {mode : Mode} {snapshot : Snapshot S} {current : NodeId} {command : Command S}
      {request : ForkRequest S} {branches : List (BranchLog S)} {error : Error}
      (forks : engine.ForksInTurn mode snapshot current command request)
      (joins : ∀ branch ∈ branches, branch.Joins request)
      (ran : ∀ branch ∈ branches, Logs engine .branch (branch.first request) branch.notices (some branch.outcome))
      (fails : engine.ForkFails request error) :
      Logs engine mode snapshot (executed current snapshot command ++ branches.flatMap BranchLog.notices)
        (some (.failed error (some request.base)))
  | within {mode : Mode} {snapshot : Snapshot S} {current target : NodeId} {command : Command S}
      {request : ForkRequest S} {branches : List (BranchLog S)} {time : Instant} {rest : List (Notice S)}
      {stage : Option (Outcome S)} (forks : engine.ForksInTurn mode snapshot current command request)
      (joins : ∀ branch ∈ branches, branch.Joins request)
      (ran : ∀ branch ∈ branches, Logs engine .branch (branch.first request) branch.notices (some branch.outcome))
      (among : target ∈ request.targets) (last : Logs engine .branch (request.base.moveTo target time) rest stage)
      (unjoined : ∀ outcome, stage = some outcome → ¬IsJoin outcome) :
      Logs engine mode snapshot
        (executed current snapshot command ++ branches.flatMap BranchLog.notices ++ rest) stage
  | astray {mode : Mode} {snapshot final : Snapshot S} {current target node source : NodeId} {command : Command S}
      {request : ForkRequest S} {branches : List (BranchLog S)} {time : Instant} {rest : List (Notice S)}
      {policy : WaitPolicy} {timeout : Option Span} {reason : String}
      (forks : engine.ForksInTurn mode snapshot current command request)
      (joins : ∀ branch ∈ branches, branch.Joins request)
      (ran : ∀ branch ∈ branches, Logs engine .branch (branch.first request) branch.notices (some branch.outcome))
      (among : target ∈ request.targets)
      (last : Logs engine .branch (request.base.moveTo target time) rest
        (some (.joined node policy timeout final))) :
      Logs engine mode snapshot (executed current snapshot command ++ branches.flatMap BranchLog.notices ++ rest)
        (some (.failed (.traversal source node reason) (some final)))

/-- A fork has been accepted whose branches run side by side. -/
def ForksApart (engine : Engine W S) (log : List (Notice S)) : Prop :=
  ∃ mode current snapshot command readings request, .nodeCompleted current snapshot command ∈ log ∧
    engine.apply mode current snapshot command readings = .ok (.fork request) ∧ request.strategy ≠ .sequential

/-- From these notices on, the notices are right at each stage of the program. -/
def Tells (engine : Engine W S) (right : List (Notice S) → Option (Outcome S) → Prop)
    (program : Program (W × List (Note S)) (Outcome S)) (log : List (Notice S)) : Prop :=
  ∀ notes, Note.notices notes = log →
    program.Writes (fun notes stage => right (Note.notices notes) stage)
      (fun notes => engine.ForksApart (Note.notices notes)) notes

variable {engine : Engine W S} {right : List (Notice S) → Option (Outcome S) → Prop} {log : List (Notice S)}

namespace Tells

theorem done {outcome : Outcome S} (ends : right log (some outcome)) : engine.Tells right (.done outcome) log := by
  rintro notes rfl
  exact ends

theorem broken {panic : Panic} (waits : right log none) : engine.Tells right (.broken panic) log := by
  rintro notes rfl
  exact waits

theorem exhausted (waits : right log none) : engine.Tells right .exhausted log := by
  rintro notes rfl
  exact waits

theorem time {next : Nat → Program (W × List (Note S)) (Outcome S)}
    (tells : ∀ now, engine.Tells right (next now) log) :
    engine.Tells right (.time next) log :=
  fun notes same => .time fun now => tells now notes same

theorem clock {next : Readings → Program (W × List (Note S)) (Outcome S)}
    (tells : ∀ readings, engine.Tells right (next readings) log) : engine.Tells right (.clock next) log :=
  fun notes same readings => tells readings notes same

theorem notify {notice : Notice S} {next : Program (W × List (Note S)) (Outcome S)}
    (tells : engine.Tells right next (log ++ [notice])) :
    engine.Tells right (engine.noting.notify notice next) log := by
  rintro notes rfl time world
  exact tells _ (Note.notices_told notes notice)

theorem merges {base : Snapshot S} {joined : List (JoinedBranch S)}
    {next : Attempt (Except Error (Merged S)) → Program (W × List (Note S)) (Outcome S)}
    (tells : ∀ answer, (engine.merger base joined).Gives answer → engine.Tells right (next answer) log) :
    engine.Tells right (.call (engine.noting.merger base joined) next) log := by
  rintro notes rfl time world
  exact tells _ ⟨time, world, rfl⟩ _ (Note.notices_merges notes base joined)

theorem beside {α : Type} {effect : Effect W α} {next : α → Program (W × List (Note S)) (Outcome S)}
    (tells : ∀ value, effect.Gives value → engine.Tells right (next value) log) :
    engine.Tells right (.call (effect.beside (List (Note S))) next) log :=
  fun notes same time world => tells _ ⟨time, world, rfl⟩ notes same

theorem launch {names : List NodeId} {branch : Nat → NodeId → Program (W × List (Note S)) (Outcome S)}
    {next : Nat → Program (W × List (Note S)) (Outcome S)} (apart : engine.ForksApart log) :
    engine.Tells right (.launch names branch next) log := by
  rintro notes rfl
  exact apart

theorem submit (targets : List NodeId) : ∀ {next : List NodeId → Program (W × List (Note S)) (Outcome S)},
    (∀ taken, engine.Tells right (next taken) log) → engine.Tells right (engine.noting.submit next targets) log := by
  induction targets with
  | nil => exact fun tells => tells []
  | cons target rest ih => exact fun tells => .beside fun taken _ => ih fun others => tells _

theorem perform {α : Type} (activity : Activity W α) {next : α → Program (W × List (Note S)) (Outcome S)}
    (waits : right log none) (tells : ∀ value, activity.MayEnd (.ok value) → engine.Tells right (next value) log) :
    engine.Tells right (.perform (activity.beside (List (Note S))) next) log := by
  rintro notes rfl
  induction activity with
  | done value => exact tells value rfl notes rfl
  | call effect rest ih =>
      exact fun time world => ih _ fun value may => tells value ⟨_, ⟨time, world, rfl⟩, may⟩
  | sleep millis rest ih => exact ⟨waits, ih () tells⟩
  | broken panic => exact waits
  | never => exact waits

theorem bind {program : Program (W × List (Note S)) (Outcome S)}
    {next : Outcome S → Program (W × List (Note S)) (Outcome S)}
    (tells : engine.Tells (fun log stage =>
      (stage = none → right log none) ∧ ∀ outcome, stage = some outcome → engine.Tells right (next outcome) log)
      program log) : engine.Tells right (program.bind next) log := by
  intro notes same
  refine .bind ((tells notes same).mono fun later stage holds => ?_)
  cases stage with
  | none => exact holds.1 rfl
  | some outcome => exact holds.2 outcome rfl later rfl

end Tells

/-- The program tells what a loop from the snapshot may tell. -/
def Drives (engine : Engine W S) (mode : Mode) (snapshot : Snapshot S)
    (program : Program (W × List (Note S)) (Outcome S)) : Prop :=
  ∀ right log, (∀ rest stage, engine.Logs mode snapshot rest stage → right (log ++ rest) stage) →
    engine.Tells right program log

section
variable {mode : Mode} {snapshot : Snapshot S} {current : NodeId} {command : Command S} {request : ForkRequest S}
  {branches : List (BranchLog S)} {branch next : Snapshot S → Program (W × List (Note S)) (Outcome S)}

def forkedLog (current : NodeId) (snapshot : Snapshot S) (command : Command S) (branches : List (BranchLog S)) :
    List (Notice S) :=
  executed current snapshot command ++ branches.flatMap BranchLog.notices

theorem conclude_tells (forks : engine.ForksInTurn mode snapshot current command request)
    (joins : ∀ branch ∈ branches, branch.Joins request)
    (ran : ∀ branch ∈ branches, engine.Logs .branch (branch.first request) branch.notices (some branch.outcome))
    (allowed : ∀ rest stage, engine.Logs mode snapshot rest stage → right (log ++ rest) stage)
    (onward : ∀ later right log, (∀ rest stage, engine.Logs mode later rest stage →
      right (log ++ .stateUpdated snapshot later :: rest) stage) → engine.Tells right (next later) log)
    (join : Join S) :
    engine.Tells right (engine.noting.conclude request join next)
      (log ++ forkedLog current snapshot command branches) := by
  have fails {error : Error} (why : engine.ForkFails request error) :
      engine.Tells right (failed error request.base) (log ++ forkedLog current snapshot command branches) :=
    .done (allowed _ _ (.unjoined forks joins ran why))
  unfold conclude
  split
  · exact fails (.lost _)
  · rename_i terms fixed
    refine .merges fun answer gives => .clock fun readings => ?_
    split
    · rename_i later merged
      refine onward later right _ fun rest stage logs => ?_
      rw [List.append_assoc]
      exact allowed _ _ (.rejoined forks joins ran merged logs)
    · exact fails (reconcile_fails gives ‹_›)

theorem inSequence_tells (forks : engine.ForksInTurn mode snapshot current command request)
    (allowed : ∀ rest stage, engine.Logs mode snapshot rest stage → right (log ++ rest) stage)
    (onward : ∀ later right log, (∀ rest stage, engine.Logs mode later rest stage →
      right (log ++ .stateUpdated snapshot later :: rest) stage) → engine.Tells right (next later) log)
    (drives : ∀ first, engine.Drives .branch first (branch first)) (started : Nat) (targets : List NodeId) :
    targets ⊆ request.targets → ∀ (join : Join S) (branches : List (BranchLog S)),
      (∀ branch ∈ branches, branch.Joins request) →
      (∀ branch ∈ branches, engine.Logs .branch (branch.first request) branch.notices (some branch.outcome)) →
        engine.Tells right (inSequence branch request started (engine.noting.conclude request · next) join targets)
          (log ++ forkedLog current snapshot command branches) := by
  induction targets with
  | nil => exact fun _ join branches joins ran => conclude_tells forks joins ran allowed onward join
  | cons target rest ih =>
      intro subset join branches joins ran
      have among := subset List.mem_cons_self
      simp only [inSequence]
      split
      · exact conclude_tells forks joins ran allowed onward join
      refine .clock fun readings => .bind (drives _ _ _ fun told stage logs => ?_)
      rw [List.append_assoc]
      refine ⟨fun unfinished => ?_, ?_⟩
      · exact allowed _ _ (.within forks joins ran among (unfinished ▸ logs) (by rintro _ ⟨⟩))
      rintro outcome rfl
      split
      · rename_i ending refused
        rcases Join.record_error refused with ⟨rfl, other⟩ | ⟨node, policy, timeout, final, source, reason, rfl, rfl⟩
        · exact .done (allowed _ _ (.within forks joins ran among logs (by rintro _ ⟨⟩; exact other)))
        · exact .done (allowed _ _ (.astray forks joins ran among logs))
      · rename_i later taken
        obtain ⟨node, policy, timeout, final, _, rfl, _⟩ := Join.record_ok taken
        let last : BranchLog S := ⟨target, readings 0, told, .joined node policy timeout final⟩
        have moreJoins : ∀ branch ∈ branches ++ [last], branch.Joins request :=
          List.forall_mem_append.mpr ⟨joins,
            List.forall_mem_singleton.mpr ⟨among, node, policy, timeout, final, rfl⟩⟩
        have moreRan : ∀ branch ∈ branches ++ [last],
            engine.Logs .branch (branch.first request) branch.notices (some branch.outcome) :=
          List.forall_mem_append.mpr ⟨ran, List.forall_mem_singleton.mpr logs⟩
        have grown : forkedLog current snapshot command branches ++ told =
            forkedLog current snapshot command (branches ++ [last]) := by
          simp only [forkedLog, List.flatMap_append, List.flatMap_cons, List.flatMap_nil, List.append_nil,
            List.append_assoc, last]
        rw [grown]
        refine .time fun now => ?_
        split
        · exact .done (allowed _ _ (.unjoined forks moreJoins moreRan (expired_fails ‹_›)))
        · exact ih (fun _ later => subset (List.mem_cons_of_mem _ later)) later _ moreJoins moreRan

theorem fork_tells (responds : engine.Responds snapshot current (.ok command)) {readings : Readings}
    (applied : engine.apply mode current snapshot command readings = .ok (.fork request))
    (allowed : ∀ rest stage, engine.Logs mode snapshot rest stage → right (log ++ rest) stage)
    (onward : ∀ later right log, (∀ rest stage, engine.Logs mode later rest stage →
      right (log ++ .stateUpdated snapshot later :: rest) stage) → engine.Tells right (next later) log)
    (drives : ∀ first, engine.Drives .branch first (branch first)) (allowance : Nat) :
    engine.Tells right (engine.noting.fork branch allowance request next)
      (log ++ executed current snapshot command) := by
  have apart (other : request.strategy ≠ .sequential) :
      engine.ForksApart (log ++ executed current snapshot command) :=
    ⟨mode, current, snapshot, command, readings, request, by simp [executed], applied, other⟩
  unfold fork
  refine .time fun started => ?_
  split
  · rename_i sequential
    have blank : executed current snapshot command = forkedLog current snapshot command [] :=
      (List.append_nil _).symm
    rw [blank]
    exact inSequence_tells ⟨responds, ⟨readings, applied⟩, sequential⟩ allowed onward drives started request.targets
      (List.Subset.refl _) _ [] (by simp) (by simp)
  · rename_i parallel
    exact .clock fun readings => .submit _ fun taken => .launch (apart (by rw [parallel]; decide))
  · rename_i conditional
    exact .clock fun readings => .submit _ fun taken => .launch (apart (by rw [conditional]; decide))

end

theorem drives (engine : Engine W S) (allowance : Nat) : ∀ mode steps snapshot,
    engine.Drives mode snapshot (engine.noting.drive allowance mode steps snapshot) := by
  induction allowance with
  | zero =>
      intro mode steps snapshot right log allowed
      have waits := allowed [] none .silent
      rw [List.append_nil] at waits
      exact .exhausted waits
  | succ allowance ih =>
      intro mode steps snapshot right log allowed
      have stops {error : Error} (why : engine.StopsWith snapshot error) :
          engine.Tells right (failed error snapshot) log := by
        have ends := allowed [] _ (.stopped why)
        rw [List.append_nil] at ends
        exact .done ends
      rw [drive]
      split
      · exact stops (.unpositioned ‹_›)
      rename_i current standing
      split
      · exact stops (.guarded ‹_›)
      rename_i guarded
      have proceeds (later : Snapshot S) (right : List (Notice S) → Option (Outcome S) → Prop)
          (log : List (Notice S))
          (allowed : ∀ rest stage, engine.Logs mode later rest stage →
            right (log ++ .stateUpdated snapshot later :: rest) stage) :
          engine.Tells right (engine.noting.notify (.stateUpdated snapshot later)
            (engine.noting.drive allowance mode (steps + 1) later)) log := by
        refine .notify (ih mode (steps + 1) later right _ fun rest stage logs => ?_)
        rw [List.append_assoc]
        exact allowed rest stage logs
      rw [engine.node?_noting]
      cases known : engine.topology.node? current with
      | none => exact stops (.unknown standing known)
      | some node =>
          have enters : engine.Enters snapshot current node := ⟨standing, ⟨_, guarded⟩, known⟩
          refine .notify ?_
          simp only [engine.lifecycle_noting]
          refine .perform _ (allowed _ _ (.entered enters)) fun reply may => ?_
          have responds : engine.Responds snapshot current reply := ⟨node, enters, may⟩
          cases reply with
          | error error => exact .done (allowed _ _ (.refused responds))
          | ok command =>
              refine .notify (.clock fun readings => ?_)
              rw [List.append_assoc]
              simp only [engine.apply_noting]
              cases applied : engine.apply mode current snapshot command readings with
              | error panic => exact .broken (allowed _ _ (.answered responds))
              | ok step =>
                  cases step with
                  | proceed later =>
                      refine proceeds later right _ fun rest stage logs => ?_
                      rw [List.append_assoc]
                      exact allowed _ _ (.moved responds applied logs)
                  | finish outcome => exact .done (allowed _ _ (.finished responds applied))
                  | fork request =>
                      exact fork_tells responds applied allowed proceeds (fun first => ih .branch 0 first) allowance

end Engine
end FlowGraph
