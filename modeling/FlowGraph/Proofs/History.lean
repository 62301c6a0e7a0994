import FlowGraph.Proofs.Loop.Founded
import FlowGraph.Proofs.Loop.Progress
import FlowGraph.Proofs.Workflow.Vouched
import FlowGraph.Workflow.Blueprint

/-!
Runs only go forward. Each new snapshot that an observer is told of, in whatever loop and at whatever depth,
adds to the one before; where branches have joined it holds all that they have visited, once; and a run gives
back a snapshot that continues the one it began with.
-/

namespace FlowGraph.Workflow
variable {W S O : Type}

theorem snapshot?_finish (workflow : Workflow W S O) (outcome : Outcome S) (time : Nat) (world : W) :
    (workflow.finish outcome time world).1.snapshot? = outcome.snapshot? := by
  cases outcome with
  | completed snapshot =>
      simp only [finish, Effect.andThen]
      cases (workflow.extractor snapshot time world).1 <;> rfl
  | suspended suspension => rfl
  | failed error snapshot => rfl
  | joined node policy timeout snapshot => rfl

theorem comes_of_run {workflow : Workflow W S O} {attached : Bool} {clock : Nat → Readings} {allowance : Nat}
    {request : Request S} {world : W} {first : Snapshot S}
    (enters : request.entry workflow clock world = .ok first) {verdict : Verdict (Result S O)}
    {machine : Machine W (Outcome S)}
    (finished : workflow.run attached clock allowance request world = some (verdict, machine)) :
    verdict.Comes (workflow.engine.Comes .root first) workflow.finish := by
  obtain ⟨view, asked, starts⟩ := request.startsAs_entered workflow clock world
  rw [run, (starts allowance).run, enters] at finished
  have mirrors : workflow.engine.Mirrors none Eq workflow.engine := .refl fun calm => (calm rfl).elim
  have follows : Program.Follows none Eq (2 * allowance) .closed (workflow.engine.Comes .root first)
      (request.entered workflow allowance (.ok first)) (request.entered workflow allowance (.ok first)) :=
    .call (.refl _) fun _ _ => mirrors.drive allowance _ _ .root 0 first
  exact Machine.run_comes attached clock workflow.finish allowance none .closed _ _
    (Machine.Follows.start rfl asked follows) (by rintro _ ⟨⟩) verdict machine finished

section
variable (workflow : Workflow W S O)

theorem drive_founds (allowance : Nat) (first : Snapshot S) {notes : List (Note S)} :
    (workflow.noting.engine.drive allowance .root 0 first).Upholds workflow.engine.AllFounded .closed
      (fun _ _ => True) notes :=
  workflow.engine.keeps_founding.drive allowance (fun _ => True) .root 0 first .closed notes fun _ _ => trivial

theorem resumeWith_founds (allowance : Nat) (snapshot : Snapshot S) (updates : Context) (options : ResumeOptions)
    (notes : List (Note S)) :
    (workflow.noting.resumeWith allowance snapshot updates options).Upholds workflow.engine.AllFounded .closed
      (fun _ _ => True) notes := by
  intro readings
  simp only
  split
  · trivial
  · refine Engine.notify_upholds _ fun more _ founded => ⟨founded.concat ?_, workflow.drive_founds allowance _⟩
    rintro _ _ ⟨⟩

theorem program_founds (allowance : Nat) (request : Request S) (notes : List (Note S)) :
    (request.program workflow.noting allowance).Upholds workflow.engine.AllFounded .closed (fun _ _ => True)
      notes := by
  cases request with
  | start input context =>
      refine .call (Engine.beside_upholds _ _) fun text more _ => ?_
      split
      · trivial
      · intro readings
        refine Engine.notify_upholds _ fun more _ founded => ⟨founded.concat ?_, workflow.drive_founds allowance _⟩
        rintro _ _ ⟨⟩
  | resume snapshot => exact workflow.resumeWith_founds allowance snapshot _ _ notes
  | resumeWith snapshot updates options => exact workflow.resumeWith_founds allowance snapshot updates options notes

theorem finish_founds (outcome : Outcome S) :
    (workflow.noting.finish outcome).Upholds workflow.engine.AllFounded := by
  intro time world founded
  rw [(workflow.finish_noted outcome time world).2]
  refine ⟨List.subset_append_left _ _, founded.concat fun previous next same => ?_⟩
  generalize (workflow.finish outcome time world.1).1 = result at same
  cases result <;> cases same

theorem founded_notes (attached : Bool) (clock : Nat → Readings) (allowance : Nat) (request : Request S) (world : W)
    (rounds : Nat) :
    workflow.engine.AllFounded (workflow.notes attached clock allowance request world rounds) := by
  have starts : (Machine.start (world, []) (request.program workflow.noting allowance)).Upholds
      workflow.engine.AllFounded .closed (fun _ _ => True) :=
    .start (by simp [Engine.AllFounded]) (fun _ _ _ _ _ => trivial) (workflow.program_founds allowance request [])
  exact starts.rounds attached clock workflow.finish_founds rounds

end

/-- A join keeps the whole history of its branches, once. When the branches of a fork have joined, at whatever
depth, and are merged, then the snapshot that the fork goes on with holds the history of the fork and of just
these branches. A loop only goes on by a move of its own, or behind such a fork whose merger it has called with
them. -/
theorem fork_keeps_history (workflow : Workflow W S O) (attached : Bool) (clock : Nat → Readings)
    (allowance : Nat) (request : Request S) (world : W) (rounds : Nat) :
    (∀ base joined, .merges base joined ∈ workflow.notes attached clock allowance request world rounds →
      ∃ node, (∀ branch ∈ joined, branch.joinNode = node) ∧ ∀ answer readings next,
        Engine.reconcile base node joined answer readings = .ok next →
          Engine.KeepsHistory base joined node next) ∧
      ∀ previous next,
        .told (.stateUpdated previous next) ∈ workflow.notes attached clock allowance request world rounds →
          (∃ mode, workflow.engine.Answers mode previous (.proceed next)) ∨
            ∃ mode fork node joined, workflow.engine.Answers mode previous (.fork fork) ∧
              .merges fork.base joined ∈ workflow.notes attached clock allowance request world rounds ∧
              workflow.engine.Rejoins fork node joined next ∧ Engine.KeepsHistory fork.base joined node next := by
  constructor
  · intro base joined noted
    obtain ⟨_, _, fork, node, _, rfl, joins⟩ := honest_of_noted noted
    exact ⟨node, fun branch member => (joins.branch member).1, fun answer readings next => joins.keepsHistory⟩
  · intro previous next noted
    cases workflow.founded_notes attached clock allowance request world rounds previous next noted with
    | moved answers => exact .inl ⟨_, answers⟩
    | rejoined answers merged rejoins => exact .inr ⟨_, _, _, _, answers, merged, rejoins, rejoins.keepsHistory⟩

section
def openNode : NodeId := ⟨"open", by decide +kernel, by decide⟩
def leftNode : NodeId := ⟨"left", by decide +kernel, by decide⟩
def rightNode : NodeId := ⟨"right", by decide +kernel, by decide⟩
def meetNode : NodeId := ⟨"meet", by decide +kernel, by decide⟩

/-- A fork to two branches that meet. -/
def meeting : Blueprint Unit Unit Unit where
  name := none
  nodes :=
    [(Node.new openNode fun _ =>
        .done (.ok (.ofAction (.fork [leftNode, rightNode] .parallel .empty none)))).asEntryPoint,
      Node.new leftNode fun _ => .done (.ok (.join meetNode)),
      Node.new rightNode fun _ => .done (.ok (.join meetNode)),
      Node.new meetNode fun _ => .done (.ok .complete)]
  edges :=
    [.new ⟨"to left", by decide +kernel, by decide⟩ openNode leftNode .always default,
      .new ⟨"to right", by decide +kernel, by decide⟩ openNode rightNode .always default,
      .new ⟨"from left", by decide +kernel, by decide⟩ leftNode meetNode .always default,
      .new ⟨"from right", by decide +kernel, by decide⟩ rightNode meetNode .always default]
  defaultEntry := none
  extractor := some fun _ => .pure (.ok ())
  monitors := [.silent]
  executor := .pure true
  merger := .lastWriterWins
  ids := fun _ => .pure "run"
  tracer := fun _ => .pure ()
  timers := none
  config := {}

def meetingNotes (workflow : Workflow Unit Unit Unit) : List (Note Unit) :=
  workflow.notes true (fun _ _ => default) 10 (.start () .empty) () 5

def mergesBranches (branches : List NodeId) : Note Unit → Bool
  | .merges _ joined => joined.map JoinedBranch.branch = branches
  | .told _ => false

def movesAlong (visits : List NodeId) : Note Unit → Bool
  | .told (.stateUpdated _ next) => next.trace = visits
  | _ => false

theorem meeting_noted :
    ∃ workflow, meeting.build = .ok workflow ∧
      (meetingNotes workflow).any (mergesBranches [leftNode, rightNode]) = true ∧
      (meetingNotes workflow).any (movesAlong [openNode, leftNode, rightNode, meetNode]) = true :=
  ⟨_, rfl, by decide +kernel, by decide +kernel⟩

theorem merges_of_noted {notes : List (Note Unit)} {branches : List NodeId}
    (noted : notes.any (mergesBranches branches) = true) :
    ∃ base joined, .merges base joined ∈ notes ∧ joined.map JoinedBranch.branch = branches := by
  obtain ⟨note, member, holds⟩ := List.any_eq_true.mp noted
  cases note with
  | told notice => cases holds
  | merges base joined => exact ⟨base, joined, member, of_decide_eq_true holds⟩

theorem update_of_noted {notes : List (Note Unit)} {visits : List NodeId}
    (noted : notes.any (movesAlong visits) = true) :
    ∃ previous next, .told (.stateUpdated previous next) ∈ notes ∧ next.trace = visits := by
  obtain ⟨note, member, holds⟩ := List.any_eq_true.mp noted
  unfold movesAlong at holds
  split at holds
  · exact ⟨_, _, member, of_decide_eq_true holds⟩
  · cases holds

theorem fork_of_meeting_keeps_history :
    ∃ workflow, meeting.build = .ok workflow ∧
      (∃ base joined node, .merges base joined ∈ meetingNotes workflow ∧
        joined.map JoinedBranch.branch = [leftNode, rightNode] ∧ (∀ branch ∈ joined, branch.joinNode = node) ∧
        ∀ answer readings next, Engine.reconcile base node joined answer readings = .ok next →
          Engine.KeepsHistory base joined node next) ∧
      ∃ previous next, .told (.stateUpdated previous next) ∈ meetingNotes workflow ∧
        next.trace = [openNode, leftNode, rightNode, meetNode] ∧
        ((∃ mode, workflow.engine.Answers mode previous (.proceed next)) ∨
          ∃ mode fork node joined, workflow.engine.Answers mode previous (.fork fork) ∧
            .merges fork.base joined ∈ meetingNotes workflow ∧ workflow.engine.Rejoins fork node joined next ∧
            Engine.KeepsHistory fork.base joined node next) := by
  obtain ⟨workflow, built, merged, moved⟩ := meeting_noted
  obtain ⟨merges, moves⟩ := fork_keeps_history workflow true (fun _ _ => default) 10 (.start () .empty) () 5
  obtain ⟨base, joined, noted, branches⟩ := merges_of_noted merged
  obtain ⟨node, same, keeps⟩ := merges base joined noted
  obtain ⟨previous, next, told, visits⟩ := update_of_noted moved
  exact ⟨workflow, built, ⟨base, joined, node, noted, branches, same, keeps⟩, previous, next, told, visits,
    moves previous next told⟩

end

/-- Every transition of every loop of a run advances its snapshot, and the default merger keeps the keys of its
context. The snapshot of the result continues the one that the run has entered its loop with. -/
theorem run_goes_forward (workflow : Workflow W S O) (attached : Bool) (clock : Nat → Readings)
    (allowance : Nat) (request : Request S) (world : W) :
    (∀ rounds previous next,
      .told (.stateUpdated previous next) ∈ workflow.notes attached clock allowance request world rounds →
        previous.Advances next ∧ (workflow.engine.merger = .lastWriterWins → previous.KeepsKeys next)) ∧
      ∀ first result machine last, request.entry workflow clock world = .ok first →
        workflow.run attached clock allowance request world = some (.settled result, machine) →
          result.snapshot? = some last → first.Continues last := by
  constructor
  · intro rounds previous next noted
    obtain ⟨mode, turn⟩ := honest_of_noted noted
    exact ⟨turn.advances, fun merger => turn.keepsKeys merger⟩
  · intro first result machine last enters finished carried
    obtain ⟨outcome, time, view, ends, rfl⟩ := comes_of_run enters finished
    rw [snapshot?_finish] at carried
    exact Engine.Ends.continues ends last carried

theorem run_of_meeting_goes_forward :
    ∃ workflow, meeting.build = .ok workflow ∧
      (∃ previous next, .told (.stateUpdated previous next) ∈ meetingNotes workflow ∧
        previous.Advances next ∧ previous.KeepsKeys next) ∧
      ∃ first result machine last,
        (Request.start () .empty).entry workflow (fun _ _ => default) () = .ok first ∧
        workflow.run true (fun _ _ => default) 10 (.start () .empty) () = some (.settled result, machine) ∧
        result.snapshot? = some last ∧ first.Continues last := by
  obtain ⟨workflow, built, _, moved⟩ := meeting_noted
  obtain ⟨moves, ends⟩ := run_goes_forward workflow true (fun _ _ => default) 10 (.start () .empty) ()
  obtain ⟨previous, next, told, _⟩ := update_of_noted moved
  obtain ⟨advances, keys⟩ := moves 5 previous next told
  cases built
  refine ⟨_, rfl, ⟨previous, next, told, advances, keys rfl⟩, _, _, _, _, rfl, rfl, rfl, ?_⟩
  exact ends _ _ _ _ rfl rfl rfl

end FlowGraph.Workflow
