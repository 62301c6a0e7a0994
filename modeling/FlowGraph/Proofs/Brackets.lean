import Mathlib.Data.List.Chain
import FlowGraph.Proofs.History
import FlowGraph.Proofs.Loop.Log
import FlowGraph.Proofs.Workflow.Vouched

/-!
The notices of a run form a well-bracketed log. A run whose branches take turns opens with one notice and closes
with another, which says what became of it; between them stands what its loop has told, node by node, with the
notices of branches before the snapshot that goes on at their join.
-/

namespace FlowGraph
variable {W S O : Type}

namespace Notice

def TakesUp (snapshot : Snapshot S) (notice : Notice S) : Prop :=
  (∃ current, snapshot.currentNode = some current ∧ notice = .nodeStarted current snapshot) ∨
    ∃ error, notice = .workflowError (some snapshot) error

/-- What may come of a command: a branch starts, or a snapshot goes on, perhaps after a branch has ended, or the run
is over. -/
def AfterCommand : Notice S → Prop
  | nodeStarted .. => True
  | stateUpdated .. => True
  | workflowCompleted .. => True
  | workflowSuspended .. => True
  | workflowError .. => True
  | _ => False

/-- The second notice may come directly after the first. Nothing comes after one that closes a run, and nothing
before one that opens it. -/
def Precedes : Notice S → Notice S → Prop
  | workflowStarted first, next => next.TakesUp first
  | workflowResumed first, next => next.TakesUp first
  | stateUpdated _ later, next => next.TakesUp later
  | nodeStarted current snapshot, next =>
    (∃ command, next = .nodeCompleted current snapshot command) ∨
      ∃ error, next = .workflowError (some snapshot) error
  | nodeCompleted .., next => next.AfterCommand
  | _, _ => False

def Leads (snapshot : Snapshot S) (notice : Notice S) : Prop := ∀ next :
    Notice S, next.TakesUp snapshot → notice.Precedes next

def Inner : Notice S → Prop
  | nodeStarted .. => True
  | nodeCompleted .. => True
  | stateUpdated .. => True
  | _ => False

theorem leads_updated (previous snapshot : Snapshot S) : (stateUpdated previous snapshot).Leads snapshot :=
  fun _ takes => takes

theorem leads_completed (current : NodeId) (given : Snapshot S) (command : Command S) (snapshot : Snapshot S) :
    (nodeCompleted current given command).Leads snapshot := by
  rintro next (⟨current, _, rfl⟩ | ⟨error, rfl⟩)
  · trivial
  · trivial

end Notice

def Outcome.Before (notice : Notice S) : Outcome S → Prop
  | .completed _ => notice.AfterCommand
  | .suspended _ => notice.AfterCommand
  | .failed error snapshot => notice = .workflowError snapshot error
  | .joined .. => notice.AfterCommand

theorem Outcome.Before.afterCommand {notice : Notice S} {outcome : Outcome S} (before : outcome.Before notice) :
    notice.AfterCommand := by
  cases outcome with
  | completed snapshot => exact before
  | suspended suspension => exact before
  | failed error snapshot =>
      cases before
      trivial
  | joined node policy timeout snapshot => exact before

namespace Engine
variable {engine : Engine W S} {mode : Mode} {snapshot : Snapshot S} {log : List (Notice S)}
  {stage : Option (Outcome S)}

theorem inner_executed {current : NodeId} {command : Command S} {rest : List (Notice S)}
    (inner : ∀ notice ∈ rest, notice.Inner) :
    ∀ notice ∈ executed current snapshot command ++ rest, notice.Inner := by
  rintro notice (_ | ⟨_, _ | ⟨_, member⟩⟩)
  · trivial
  · trivial
  · exact inner notice member

theorem Logs.inner (logs : engine.Logs mode snapshot log stage) : ∀ notice ∈ log, notice.Inner := by
  have branched {branches : List (BranchLog S)} {rest : List (Notice S)}
      (ran : ∀ branch ∈ branches, ∀ notice ∈ branch.notices, notice.Inner) (inner : ∀ notice ∈ rest, notice.Inner) :
      ∀ notice ∈ branches.flatMap BranchLog.notices ++ rest, notice.Inner := by
    intro notice member
    rcases List.mem_append.mp member with told | later
    · obtain ⟨branch, among, told⟩ := List.mem_flatMap.mp told
      exact ran branch among notice told
    · exact inner notice later
  have none : ∀ notice ∈ ([] : List (Notice S)), notice.Inner := fun _ member => absurd member List.not_mem_nil
  induction logs with
  | silent => exact none
  | stopped why => exact none
  | entered enters =>
      intro notice member
      cases List.mem_singleton.mp member
      trivial
  | refused responds =>
      intro notice member
      cases List.mem_singleton.mp member
      trivial
  | answered responds => exact inner_executed none
  | finished responds applied => exact inner_executed none
  | moved responds applied _ ih => exact inner_executed (List.forall_mem_cons.mpr ⟨trivial, ih⟩)
  | rejoined forks joins _ merges _ ranIh ih =>
      rw [List.append_assoc]
      exact inner_executed (branched ranIh (List.forall_mem_cons.mpr ⟨trivial, ih⟩))
  | unjoined forks joins _ fails ranIh =>
      rw [← List.append_nil (executed _ _ _ ++ _), List.append_assoc]
      exact inner_executed (branched ranIh none)
  | within forks joins _ among _ unjoined ranIh ih =>
      rw [List.append_assoc]
      exact inner_executed (branched ranIh ih)
  | astray forks joins _ among _ ranIh ih =>
      rw [List.append_assoc]
      exact inner_executed (branched ranIh ih)

theorem chain_executed {current : NodeId} {command : Command S} {notice : Notice S} {tail : List (Notice S)}
    (leads : notice.Leads snapshot) (responds : engine.Responds snapshot current (.ok command))
    (chained : (.nodeCompleted current snapshot command :: tail).IsChain Notice.Precedes) :
    (notice :: (executed current snapshot command ++ tail)).IsChain Notice.Precedes := by
  obtain ⟨_, enters, _⟩ := responds
  refine .cons_cons (leads _ (.inl ⟨current, enters.standing, rfl⟩)) (.cons_cons (.inl ⟨command, rfl⟩) chained)

theorem chain_completed {current : NodeId} {command : Command S} {tail : List (Notice S)}
    (chained : tail.IsChain Notice.Precedes) (next : ∀ next ∈ tail.head?, next.AfterCommand) :
    (.nodeCompleted current snapshot command :: tail).IsChain Notice.Precedes :=
  List.isChain_cons.mpr ⟨next, chained⟩

theorem chain_branches {request : ForkRequest S} {branches : List (BranchLog S)}
    (joins : ∀ branch ∈ branches, branch.Joins request)
    (chained : ∀ branch ∈ branches, ∀ {notice : Notice S} {tail : List (Notice S)},
      notice.Leads (branch.first request) → tail.IsChain Notice.Precedes →
        (∀ next ∈ tail.head?, ∃ outcome, some branch.outcome = some outcome ∧ outcome.Before next) →
          (notice :: (branch.notices ++ tail)).IsChain Notice.Precedes)
    {tail : List (Notice S)} {current : NodeId} {given : Snapshot S} {command : Command S}
    (rest : (.nodeCompleted current given command :: tail).IsChain Notice.Precedes) :
    (.nodeCompleted current given command ::
      (branches.flatMap BranchLog.notices ++ tail)).IsChain Notice.Precedes := by
  induction branches with
  | nil => exact rest
  | cons branch others ih =>
      obtain ⟨first, onward⟩ := List.isChain_cons.mp
        (ih (fun other member => joins other (List.mem_cons_of_mem _ member))
          fun other member => chained other (List.mem_cons_of_mem _ member))
      rw [List.flatMap_cons, List.append_assoc]
      refine chained branch List.mem_cons_self (Notice.leads_completed _ _ _ _) onward fun next head => ?_
      obtain ⟨_, node, policy, timeout, last, same⟩ := joins branch List.mem_cons_self
      refine ⟨_, rfl, ?_⟩
      rw [same]
      exact first next head

/-- What comes after the notices of a loop has to fit the outcome of the loop only. -/
theorem Logs.chain (logs : engine.Logs mode snapshot log stage) : ∀ {notice : Notice S} {tail : List (Notice S)},
    notice.Leads snapshot → tail.IsChain Notice.Precedes →
      (∀ next ∈ tail.head?, ∃ outcome, stage = some outcome ∧ outcome.Before next) →
        (notice :: (log ++ tail)).IsChain Notice.Precedes := by
  have ended {tail : List (Notice S)}
      (unfinished : ∀ next ∈ tail.head?, ∃ outcome : Outcome S, none = some outcome ∧ outcome.Before next) :
      tail = [] := by
    cases tail with
    | nil => rfl
    | cons next rest =>
        obtain ⟨_, ⟨⟩, _⟩ := unfinished next rfl
  induction logs with
  | silent =>
      intro notice tail leads _ unfinished
      rw [ended unfinished]
      exact .singleton notice
  | stopped why =>
      intro notice tail leads chained next
      refine List.isChain_cons.mpr ⟨fun first head => ?_, chained⟩
      obtain ⟨_, ⟨⟩, rfl⟩ := next first head
      exact leads _ (.inr ⟨_, rfl⟩)
  | entered enters =>
      intro notice tail leads _ unfinished
      rw [ended unfinished]
      exact .cons_cons (leads _ (.inl ⟨_, enters.standing, rfl⟩)) (.singleton _)
  | refused responds =>
      intro notice tail leads chained next
      obtain ⟨_, enters, _⟩ := responds
      refine .cons_cons (leads _ (.inl ⟨_, enters.standing, rfl⟩))
        (List.isChain_cons.mpr ⟨fun first head => ?_, chained⟩)
      obtain ⟨_, ⟨⟩, rfl⟩ := next first head
      exact .inr ⟨_, rfl⟩
  | answered responds =>
      intro notice tail leads _ unfinished
      rw [ended unfinished]
      exact chain_executed leads responds (.singleton _)
  | finished responds applied =>
      intro notice tail leads chained next
      refine chain_executed leads responds (chain_completed chained fun first head => ?_)
      obtain ⟨_, ⟨⟩, before⟩ := next first head
      exact before.afterCommand
  | moved responds applied _ ih =>
      intro notice tail leads chained next
      rw [List.append_assoc]
      exact chain_executed leads responds (.cons_cons trivial (ih (Notice.leads_updated _ _) chained next))
  | rejoined forks joins _ merges _ ranIh ih =>
      intro notice tail leads chained next
      rw [List.append_assoc, List.append_assoc]
      refine chain_executed leads forks.responds (chain_branches joins ranIh ?_)
      exact .cons_cons trivial (ih (Notice.leads_updated _ _) chained next)
  | unjoined forks joins _ fails ranIh =>
      intro notice tail leads chained next
      rw [List.append_assoc]
      refine chain_executed leads forks.responds (chain_branches joins ranIh (chain_completed chained ?_))
      intro first head
      obtain ⟨_, ⟨⟩, before⟩ := next first head
      exact before.afterCommand
  | within forks joins _ among _ unjoined ranIh ih =>
      intro notice tail leads chained next
      rw [List.append_assoc, List.append_assoc]
      refine chain_executed leads forks.responds (chain_branches joins ranIh ?_)
      exact ih (Notice.leads_completed _ _ _ _) chained next
  | astray forks joins _ among _ ranIh ih =>
      intro notice tail leads chained next
      rw [List.append_assoc, List.append_assoc]
      refine chain_executed leads forks.responds (chain_branches joins ranIh ?_)
      refine ih (Notice.leads_completed _ _ _ _) chained fun first head => ?_
      obtain ⟨_, ⟨⟩, before⟩ := next first head
      exact ⟨_, rfl, before.afterCommand⟩

end Engine

namespace Workflow
variable {workflow : Workflow W S O} {clock : Nat → Readings} {world : W} {request : Request S}
  {log : List (Notice S)}

inductive Opened (workflow : Workflow W S O) (clock : Nat → Readings) (world : W) (request : Request S) :
    List (Notice S) → Option (Outcome S) → Prop where
  | silent : Opened workflow clock world request [] none
  | refused {error : Error} {last : Option (Snapshot S)}
      (refused : request.entry workflow clock world = .error (.failed error last)) :
      Opened workflow clock world request [] (some (.failed error last))
  | entered {first : Snapshot S} {events : List (Notice S)} {stage : Option (Outcome S)}
      (enters : request.entry workflow clock world = .ok first)
      (logs : workflow.engine.Logs .root first events stage) :
      Opened workflow clock world request (request.notice first :: events) stage

/-- The notices of a run so far, or all of them if it has come to its result. -/
inductive Told (workflow : Workflow W S O) (clock : Nat → Readings) (world : W) (request : Request S) :
    List (Notice S) → Option (Result S O) → Prop where
  | unfinished {log : List (Notice S)} (opened : workflow.Opened clock world request log none) :
      Told workflow clock world request log none
  | finished {log : List (Notice S)} {outcome : Outcome S} {time : Nat} {view : W}
      (opened : workflow.Opened clock world request log (some outcome)) :
      Told workflow clock world request (log ++ [(workflow.finish outcome time view).1.closing])
        (some (workflow.finish outcome time view).1)

/-- The notices are those of a run. The first may open it and the last may close it; what stands between them is
told by loops, and every notice may come directly after the one before it. -/
structure WellBracketed (workflow : Workflow W S O) (clock : Nat → Readings) (world : W) (request : Request S)
    (log : List (Notice S)) (result? : Option (Result S O)) : Prop where
  told : workflow.Told clock world request log result?
  inner : ∀ notice ∈ log.tail.dropLast, notice.Inner
  follows : log.IsChain Notice.Precedes

theorem leads_notice (request : Request S) (first : Snapshot S) : (request.notice first).Leads first := by
  cases request with
  | start input context => exact fun _ takes => takes
  | resume snapshot => exact fun _ takes => takes
  | resumeWith snapshot updates options => exact fun _ takes => takes

theorem before_closing (workflow : Workflow W S O) (outcome : Outcome S) (time : Nat) (view : W) :
    outcome.Before (workflow.finish outcome time view).1.closing := by
  cases outcome with
  | completed snapshot =>
      simp only [finish, Effect.andThen]
      cases (workflow.extractor snapshot time view).1 with
      | ok output => trivial
      | error panic => trivial
  | suspended suspension => trivial
  | failed error snapshot => rfl
  | joined node policy timeout snapshot => trivial

theorem Opened.chain {stage : Option (Outcome S)} (opened : workflow.Opened clock world request log stage)
    {tail : List (Notice S)} (chained : tail.IsChain Notice.Precedes)
    (next : ∀ next ∈ tail.head?, ∃ outcome, stage = some outcome ∧ outcome.Before next) :
    (log ++ tail).IsChain Notice.Precedes := by
  cases opened with
  | silent => exact chained
  | refused refused => exact chained
  | entered enters logs => exact logs.chain (leads_notice request _) chained next

theorem Opened.inner {stage : Option (Outcome S)} (opened : workflow.Opened clock world request log stage) :
    ∀ notice ∈ log.tail, notice.Inner := by
  cases opened with
  | silent => exact fun _ member => absurd member List.not_mem_nil
  | refused refused => exact fun _ member => absurd member List.not_mem_nil
  | entered enters logs => exact logs.inner

theorem Told.wellBracketed {result? : Option (Result S O)} (told : workflow.Told clock world request log result?) :
    workflow.WellBracketed clock world request log result? := by
  refine ⟨told, ?_, ?_⟩
  · cases told with
    | unfinished opened => exact fun notice member => opened.inner notice (List.mem_of_mem_dropLast member)
    | @finished before _ _ _ opened =>
        intro notice member
        cases before with
        | nil => exact absurd member List.not_mem_nil
        | cons first events =>
            rw [List.cons_append, List.tail_cons, List.dropLast_concat] at member
            exact opened.inner notice member
  · cases told with
    | unfinished opened =>
        have chained := opened.chain List.IsChain.nil (by rintro _ ⟨⟩)
        rwa [List.append_nil] at chained
    | finished opened =>
        refine opened.chain (.singleton _) ?_
        rintro _ ⟨⟩
        exact ⟨_, rfl, before_closing workflow _ _ _⟩

theorem entry_fails {outcome : Outcome S} (refused : request.entry workflow clock world = .error outcome) :
    ∃ error last, outcome = .failed error last := by
  have resumes {snapshot : Snapshot S} {updates : Context} {options : ResumeOptions}
      (refused : Request.resumeEntry workflow clock snapshot updates options = .error outcome) :
      ∃ error last, outcome = .failed error last := by
    unfold Request.resumeEntry at refused
    split at refused
    · cases refused
      exact ⟨_, _, rfl⟩
    · cases refused
  cases request with
  | start input context =>
      simp only [Request.entry] at refused
      split at refused
      · cases refused
        exact ⟨_, _, rfl⟩
      · cases refused
  | resume snapshot => exact resumes refused
  | resumeWith snapshot updates options => exact resumes refused

def Records (workflow : Workflow W S O) (clock : Nat → Readings) (world : W) (request : Request S)
    (notes : List (Note S)) (stage : Option (Outcome S)) : Prop :=
  workflow.Opened clock world request (Note.notices notes) stage

def Escapes (workflow : Workflow W S O) (notes : List (Note S)) : Prop :=
  workflow.engine.ForksApart (Note.notices notes)

theorem escapes_lasting (workflow : Workflow W S O) : Machine.Lasting workflow.Escapes := by
  rintro notes more adds ⟨mode, current, snapshot, command, readings, request, told, forks⟩
  refine ⟨mode, current, snapshot, command, readings, request, ?_, forks⟩
  obtain ⟨note, member, same⟩ := List.mem_filterMap.mp told
  exact List.mem_filterMap.mpr ⟨note, adds member, same⟩

theorem entered_writes (workflow : Workflow W S O) (clock : Nat → Readings) (world : W) (request : Request S)
    (allowance : Nat) :
    (request.entered workflow.noting allowance (request.entry workflow clock world)).Writes
      (workflow.Records clock world request) workflow.Escapes [] := by
  cases entry : request.entry workflow clock world with
  | error outcome =>
      obtain ⟨error, last, rfl⟩ := entry_fails entry
      exact Opened.refused entry
  | ok first =>
      have tells : workflow.engine.Tells (workflow.Opened clock world request)
          (workflow.engine.noting.drive allowance .root 0 first) ([] ++ [request.notice first]) :=
        workflow.engine.drives allowance .root 0 first _ _ fun rest stage logs => .entered entry logs
      exact tells.notify [] rfl

theorem entered_grows (workflow : Workflow W S O) (request : Request S) (allowance : Nat)
    (entry : Except (Outcome S) (Snapshot S)) (notes : List (Note S)) :
    (request.entered workflow.noting allowance entry).Vouched (fun _ _ => True) notes := by
  have vouching : workflow.engine.Vouching (fun _ => True) (fun _ => True) fun _ _ => True := by
    constructor <;> intros <;> trivial
  cases entry with
  | error outcome => trivial
  | ok first => exact Engine.notify_vouched _ fun more _ => vouching.drive allowance .root 0 first trivial more

/-- The run launches no branches. It does not if no node asks for a fork whose branches run side by side. -/
def InTurn (workflow : Workflow W S O) (machine : Machine (W × List (Note S)) (Outcome S)) : Prop :=
  machine.mailboxes = [] ∨ ¬workflow.engine.ForksApart (Note.notices machine.world.2)

theorem InTurn.not_escaped {machine : Machine (W × List (Note S)) (Outcome S)} (inTurn : workflow.InTurn machine) :
    ¬machine.Escaped workflow.Escapes := by
  intro escaped
  rcases inTurn with none | together
  · exact Nat.ne_of_gt escaped.launched (congrArg List.length none)
  · exact together escaped.recorded

theorem starts_solo (workflow : Workflow W S O) (clock : Nat → Readings) (allowance : Nat) (request : Request S)
    (world : W) : ∃ machine : Machine (W × List (Note S)) (Outcome S), machine.Grows ∧
      machine.Solo (workflow.Records clock world request) workflow.Escapes workflow.noting.finish ∧
      (∀ attached, (Machine.start (world, []) (request.program workflow.noting allowance)).round attached clock
        workflow.noting.finish = machine.round attached clock workflow.noting.finish) ∧
      ∀ attached room, Machine.run attached clock workflow.noting.finish room none
          (.start (world, []) (request.program workflow.noting allowance)) =
        Machine.run attached clock workflow.noting.finish room none machine := by
  obtain ⟨asked, starts⟩ := request.startsAs_view workflow.noting clock (world, [])
  have begins := starts allowance
  have blank : (request.view workflow.noting (world, [])).2 = [] := by
    cases request <;> rfl
  rw [entry_noting] at begins
  refine ⟨_, ?_, ?_, fun attached => begins.round attached _, fun attached room => begins.run attached _ room none⟩
  · exact (Machine.Vouched.start (workflow.entered_grows request allowance _ _)).rearrange
      (List.Subset.refl _) rfl rfl
  · refine .start asked ?_ ?_
    · rw [blank]
      exact .silent
    · rw [blank]
      exact workflow.entered_writes clock world request allowance

theorem wellBracketed_of_solo {machine : Machine (W × List (Note S)) (Outcome S)}
    (solo : machine.Solo (workflow.Records clock world request) workflow.Escapes workflow.noting.finish)
    (inTurn : workflow.InTurn machine) :
    ∃ result?, workflow.WellBracketed clock world request (Note.notices machine.world.2) result? := by
  cases solo with
  | @alone wait only writes =>
      cases wait with
      | resting next => exact ⟨none, (Told.unfinished writes.1).wellBracketed⟩
      | listening channel next => exact writes.elim
  | @closed outcome time view nobody ends closes =>
      have told : workflow.Told clock world request (_ ++ [(workflow.finish outcome time view.1).1.closing])
          (some (workflow.finish outcome time view.1).1) := .finished ends
      rw [← Note.notices_told, ← (workflow.finish_noted outcome time view).2, ← closes] at told
      exact ⟨_, told.wellBracketed⟩
  | stuck nobody waits => exact ⟨none, (Told.unfinished waits).wellBracketed⟩
  | escaped escaped => exact (inTurn.not_escaped escaped).elim

/-- The notices of a run form a well-bracketed log. As long as a run launches no branches, that is, comes to no
fork but those whose branches take turns, its notices are at any point those of a run so far. If no condition
panics, it comes to a result, and then they are all the notices of a run with this result: one opens it, unless
its identifier or its snapshot is refused; every node that is executed is announced and, unless it fails and the
run with it, its command comes next; each accepted transition is told of once, after the command and after all
that the branches have told, and the snapshot that it leads to is the one that the loop takes up next; and the
last notice alone closes the run, as completed, suspended or failed, which is what its result is. -/
theorem notices_well_bracketed (workflow : Workflow W S O) (attached : Bool) (clock : Nat → Readings)
    (allowance : Nat) (request : Request S) (world : W) :
    (∀ rounds, workflow.InTurn (workflow.noting.machineAfter attached clock allowance request (world, []) rounds) →
      ∃ result?, workflow.WellBracketed clock world request
        (Note.notices (workflow.notes attached clock allowance request world rounds)) result?) ∧
    ∀ result after, workflow.run attached clock allowance request world = some (.settled result, after) →
      ∃ recorded, workflow.noting.run attached clock allowance request (world, []) =
          some (.settled result, recorded) ∧ recorded.time = after.time ∧ recorded.world.1 = after.world ∧
        (workflow.InTurn recorded →
          workflow.WellBracketed clock world request (Note.notices recorded.world.2) (some result)) := by
  obtain ⟨machine, grows, solo, rounded, runs⟩ := workflow.starts_solo clock allowance request world
  constructor
  · rintro (_ | rounds) inTurn
    · exact ⟨none, (Told.unfinished .silent).wellBracketed⟩
    · have later := (solo.round workflow.escapes_lasting attached clock workflow.finish_adds grows).rounds
        workflow.escapes_lasting attached clock workflow.finish_adds rounds
        (grows.round Machine.enduring_trivial attached clock workflow.finish_adds).1
      rw [← rounded] at later
      exact wellBracketed_of_solo later inTurn
  · intro result after finished
    have begins : Beside workflow.engine.AllHonest (world, []) world := ⟨rfl, by simp [Engine.AllHonest]⟩
    have alike := workflow.noting_mirrors.run attached clock allowance request begins
    rw [finished] at alike
    cases recording : workflow.noting.run attached clock allowance request (world, []) with
    | none =>
        rw [recording] at alike
        cases alike
    | some ending =>
        obtain ⟨verdict, recorded⟩ := ending
        rw [recording] at alike
        cases alike with
        | some alike =>
            obtain ⟨same, time, related, _⟩ := alike
            cases same
            refine ⟨recorded, rfl, time.symm, related, fun inTurn => ?_⟩
            rw [run, runs] at recording
            rcases Machine.run_writes workflow.escapes_lasting attached clock workflow.finish_adds allowance
                grows solo
              (by rintro _ ⟨⟩) recording with escaped | ⟨_, outcome, time, view, opened, closes⟩
            · exact (inTurn.not_escaped escaped).elim
            · have told : workflow.Told clock world request (_ ++ [(workflow.finish outcome time view.1).1.closing])
                  (some (workflow.finish outcome time view.1).1) := .finished opened
              obtain ⟨result, notices⟩ := workflow.finish_noted outcome time view
              rw [closes] at result notices
              rw [← Note.notices_told, ← notices, ← result] at told
              exact told.wellBracketed

section

def meetingInTurn : Blueprint Unit Unit Unit :=
  { meeting with nodes := (Node.new openNode fun _ => .done (.ok (.ofAction
      (.fork [leftNode, rightNode] .sequential .empty none)))).asEntryPoint :: meeting.nodes.tail }

theorem meetingInTurn_told : (meetingInTurn.build.toOption.bind fun workflow =>
    (workflow.noting.run true (fun _ _ => default) 10 (.start () .empty) ((), [])).map fun ending =>
      (ending.2.mailboxes.isEmpty, (Note.notices ending.2.world.2).map Notice.hook)) =
    some (true, ["on_workflow_started", "on_node_started", "on_node_completed", "on_node_started",
      "on_node_completed", "on_node_started", "on_node_completed", "on_state_updated", "on_node_started",
      "on_node_completed", "on_workflow_completed"]) := by
  decide +kernel

/-- The meeting whose branches take turns comes to a result, and its eleven notices are well bracketed. -/
theorem meeting_in_turn_is_well_bracketed :
    ∃ workflow result after recorded, meetingInTurn.build = .ok workflow ∧
      workflow.run true (fun _ _ => default) 10 (.start () .empty) () = some (.settled result, after) ∧
      workflow.noting.run true (fun _ _ => default) 10 (.start () .empty) ((), []) =
        some (.settled result, recorded) ∧
      workflow.InTurn recorded ∧ (Note.notices recorded.world.2).length = 11 ∧
      workflow.WellBracketed (fun _ _ => default) () (.start () .empty) (Note.notices recorded.world.2)
        (some result) := by
  obtain ⟨workflow, result, after, built, finished⟩ : ∃ workflow result after,
      meetingInTurn.build = .ok workflow ∧
        workflow.run true (fun _ _ => default) 10 (.start () .empty) () = some (.settled result, after) :=
    ⟨_, _, _, rfl, rfl⟩
  obtain ⟨recorded, recording, _, _, bracketed⟩ := (notices_well_bracketed workflow true (fun _ _ => default) 10
    (.start () .empty) ()).2 result after finished
  have told := meetingInTurn_told
  simp only [built, Except.toOption, Option.bind_some, recording, Option.map_some, Option.some.injEq,
    Prod.mk.injEq, List.isEmpty_iff] at told
  have length := congrArg List.length told.2
  rw [List.length_map] at length
  exact ⟨workflow, result, after, recorded, built, finished, recording, .inl told.1, length, bracketed (.inl told.1)⟩

end

end Workflow
end FlowGraph
