import FlowGraph.Proofs.Loop.Outline
import FlowGraph.Proofs.Program.Rest
import FlowGraph.Workflow

/-!
Runs from what a caller asks for. Before a run enters its loop it takes an identifier or looks at the snapshot
to resume; what it enters with is known then. If the loop cannot go on forever, the run reaches its end.
-/

namespace FlowGraph

inductive Request (S : Type) where
  | start (input : S) (context : Context)
  | resume (snapshot : Snapshot S)
  | resumeWith (snapshot : Snapshot S) (updates : Context) (options : ResumeOptions)

namespace Machine
variable {W R ρ : Type}

/-- A program does before it waits what another one does that starts in another world, with the clock asked
some times before. -/
def StartsAs (clock : Nat → Readings) (world : W) (program : Program W R) (view : W) (asked : Nat)
    (other : Program W R) : Prop :=
  advance clock program { start world program with ready := [] } =
    advance clock other { start view other with asked, ready := [] }

variable {clock : Nat → Readings} {world view : W} {program other : Program W R} {asked : Nat}

theorem StartsAs.resume (starts : StartsAs clock world program view asked other) :
    Machine.resume clock (.resting fun _ => program) { start world program with ready := [] } =
      Machine.resume clock (.resting fun _ => other) { start view other with asked, ready := [] } :=
  starts

theorem StartsAs.round (starts : StartsAs clock world program view asked other) (attached : Bool)
    (close : R → Effect W ρ) :
    (start world program).round attached clock close =
      Machine.round attached clock close { start view other with asked } := by
  rw [round_ready attached clock close rfl, round_ready attached clock close rfl]
  exact congrArg (fun resumed => resumed.2.placed attached close .main resumed.1) starts.resume

theorem StartsAs.run (starts : StartsAs clock world program view asked other) (attached : Bool)
    (close : R → Effect W ρ) (allowance : Nat) (known : Option (Verdict ρ)) :
    Machine.run attached clock close allowance known (start world program) =
      Machine.run attached clock close allowance known { start view other with asked } := by
  cases allowance with
  | zero => rfl
  | succ allowance =>
      have same := starts.resume
      simp only [start] at same
      simp only [Machine.run, start, same]

theorem StartsAs.comes_to_rest (starts : StartsAs clock world program view asked other) {attached : Bool}
    {close : R → Effect W ρ} {seen : List W} {rounds : Nat}
    (rest : ComesToRest attached clock close seen rounds { start view other with asked }) :
    (start world program).ComesToRest attached clock close (world :: seen) rounds := by
  cases rest with
  | rest _ nobody => cases nobody
  | round _ lively later =>
      refine .round List.mem_cons_self ?_ ?_
      · rintro strand ready ⟨⟩
        have free := lively _ _ rfl
        rwa [← starts.resume] at free
      · rw [starts.round attached close]
        exact later.mono (List.subset_cons_self world seen) (Nat.le_refl _)

theorem orderly_start (world : W) (program : Program W R) (asked : Nat) :
    Orderly { start world program with asked } where
  one := ⟨Nat.le_refl 1, by rintro strand ⟨⟩⟩
  awaited := by simp [start]
  senders channel := by simp [mailbox, start]

end Machine

namespace Request
variable {W S O : Type}

def program (workflow : Workflow W S O) (allowance : Nat) : Request S → Program W (Outcome S)
  | start input context => workflow.start allowance input context
  | resume snapshot => workflow.resume allowance snapshot
  | resumeWith snapshot updates options => workflow.resumeWith allowance snapshot updates options

def resumeEntry (workflow : Workflow W S O) (clock : Nat → Readings) (snapshot : Snapshot S)
    (updates : Context) (options : ResumeOptions) : Except (Outcome S) (Snapshot S) :=
  match workflow.prepareResume snapshot updates options (clock 0) with
  | .error (error, snapshot) => .error (.failed error (some snapshot))
  | .ok snapshot => .ok snapshot

/-- The snapshot that the loop of the run begins with. A run that does not enter its loop has its outcome
already. -/
def entry (workflow : Workflow W S O) (clock : Nat → Readings) (world : W) :
    Request S → Except (Outcome S) (Snapshot S)
  | start input context =>
    match Ident.ofText (workflow.ids IdentKind.workflow.name 0 world).1 with
    | .error error => .error (.failed error none)
    | .ok id => .ok (.initial id input context workflow.engine.topology.entry (clock 0 0))
  | resume snapshot => resumeEntry workflow clock snapshot .empty ⟨workflow.config.resume.strict⟩
  | resumeWith snapshot updates options => resumeEntry workflow clock snapshot updates options

def notice (first : Snapshot S) : Request S → Notice S
  | start .. => .workflowStarted first
  | resume _ => .workflowResumed first
  | resumeWith .. => .workflowResumed first

def entered (workflow : Workflow W S O) (allowance : Nat) (request : Request S) :
    Except (Outcome S) (Snapshot S) → Program W (Outcome S)
  | .error outcome => .done outcome
  | .ok first =>
    workflow.engine.notify (request.notice first) (workflow.engine.drive allowance .root 0 first)

theorem startsAs_resumed (workflow : Workflow W S O) (clock : Nat → Readings) (world : W)
    (allowance : Nat) (snapshot : Snapshot S) (updates : Context) (options : ResumeOptions) :
    Machine.StartsAs clock world (workflow.resumeWith allowance snapshot updates options) world 1
      ((resumeWith snapshot updates options).entered workflow allowance
        (resumeEntry workflow clock snapshot updates options)) := by
  simp only [Machine.StartsAs, Workflow.resumeWith, Machine.advance, Machine.start, resumeEntry]
  cases workflow.prepareResume snapshot updates options (clock 0) with
  | error refused => rfl
  | ok first => rfl

/-- The world in which the loop of the run begins. -/
def view (workflow : Workflow W S O) (world : W) : Request S → W
  | start .. => (workflow.ids IdentKind.workflow.name 0 world).2
  | resume _ => world
  | resumeWith .. => world

theorem startsAs_view (workflow : Workflow W S O) (clock : Nat → Readings) (world : W) (request : Request S) :
    ∃ asked, ∀ allowance, Machine.StartsAs clock world (request.program workflow allowance)
      (request.view workflow world) asked
      (request.entered workflow allowance (request.entry workflow clock world)) := by
  cases request with
  | start input context =>
      cases named : (Ident.ofText (workflow.ids IdentKind.workflow.name 0 world).1 : Except Error WorkflowId) with
      | error error =>
          refine ⟨0, fun allowance => ?_⟩
          simp only [Machine.StartsAs, program, Workflow.start, Machine.advance, Machine.start, entry, named,
            entered, view]
      | ok id =>
          refine ⟨1, fun allowance => ?_⟩
          simp only [Machine.StartsAs, program, Workflow.start, Machine.advance, Machine.start, entry, named,
            entered, view]
          rfl
  | resume snapshot =>
      exact ⟨1, fun allowance => startsAs_resumed workflow clock world allowance snapshot _ _⟩
  | resumeWith snapshot updates options =>
      exact ⟨1, fun allowance => startsAs_resumed workflow clock world allowance snapshot updates options⟩

theorem startsAs_entered (workflow : Workflow W S O) (clock : Nat → Readings) (world : W)
    (request : Request S) :
    ∃ view asked, ∀ allowance, Machine.StartsAs clock world (request.program workflow allowance) view asked
      (request.entered workflow allowance (request.entry workflow clock world)) :=
  ⟨_, request.startsAs_view workflow clock world⟩

end Request

namespace Workflow
variable {W S O : Type}

/-- The run of a request: of a caller who waits for it if `attached`, and of a task on its own otherwise. -/
def run (workflow : Workflow W S O) (attached : Bool) (clock : Nat → Readings) (allowance : Nat)
    (request : Request S) (world : W) : Option (Verdict (Result S O) × Machine W (Outcome S)) :=
  Machine.run attached clock workflow.finish allowance none (.start world (request.program workflow allowance))

variable {workflow : Workflow W S O} {clock : Nat → Readings} {world : W} {request : Request S}

/-- What a caller performs is a run that ends with the main strand. -/
theorem perform_eq_run (allowance : Nat) :
    workflow.perform clock allowance (request.program workflow allowance) world =
      (workflow.run true clock allowance request world).map fun (verdict, machine) =>
        ⟨verdict, machine.time, machine.world⟩ := rfl

/-- A task that the executor takes runs in the world that the executor has left. -/
theorem performAsync_eq_run {view : W} (taken : workflow.engine.executor 0 world = (true, view))
    (allowance : Nat) :
    workflow.performAsync clock allowance (request.program workflow allowance) world =
      (workflow.run false clock allowance request view).map fun (verdict, machine) =>
        match verdict with
        | .settled result => ⟨.settled result, machine.time, machine.world⟩
        | .broken _ => ⟨.settled lostTask, machine.time, machine.world⟩ := by
  simp only [performAsync, taken, ↓reduceIte]
  rfl

/-- A run whose loop cannot go on forever comes to rest within a number of rounds that its allowance does not
change. -/
theorem comes_to_rest (returns : ∀ id node, workflow.engine.topology.node? id = some node → node.Returns)
    {depth : Nat} (shallow : ∀ first, request.entry workflow clock world = .ok first →
      workflow.engine.Shallow depth .root 0 first) (attached : Bool) :
    ∃ enough seen rounds, ∀ allowance, enough ≤ allowance →
      (Machine.start world (request.program workflow allowance)).ComesToRest attached clock workflow.finish seen
        rounds := by
  obtain ⟨view, asked, starts⟩ := request.startsAs_entered workflow clock world
  obtain ⟨outline, follows⟩ : ∃ outline, ∀ count allowance, count + depth < allowance →
      Program.Follows (some workflow.engine.config.pollInterval) Eq count .closed (fun _ => True)
        (request.entered workflow allowance (request.entry workflow clock world)) outline := by
    cases found : request.entry workflow clock world with
    | error outcome => exact ⟨.done outcome, fun _ _ _ => .done trivial⟩
    | ok first =>
        obtain ⟨outline, follows⟩ := (shallow first found).outline returns
        refine ⟨workflow.engine.notify (request.notice first) outline, fun count allowance enough => ?_⟩
        refine .call (.refl _) fun _ _ => ?_
        exact (follows count allowance .closed enough).weaken (Nat.le_refl _) (Protocol.Widens.refl _)
          fun _ _ => trivial
  obtain ⟨count, rounds, seen, rests⟩ := (Machine.orderly_start view outline asked).comes_to_rest
    workflow.engine.config.pollInterval attached clock workflow.finish fun _ => True
  refine ⟨count + depth + 1, world :: seen, rounds, fun allowance enough => ?_⟩
  refine (starts allowance).comes_to_rest (rests _ .closed ?_)
  exact Machine.Follows.start rfl asked (follows count allowance (by omega))

/-- With allowance enough the run has an end. -/
theorem run_ends (returns : ∀ id node, workflow.engine.topology.node? id = some node → node.Returns)
    {depth : Nat} (shallow : ∀ first, request.entry workflow clock world = .ok first →
      workflow.engine.Shallow depth .root 0 first) (attached : Bool) :
    ∃ enough, ∀ allowance, enough ≤ allowance →
      ∃ verdict machine, workflow.run attached clock allowance request world = some (verdict, machine) := by
  obtain ⟨enough, seen, rounds, rests⟩ := comes_to_rest returns shallow attached
  refine ⟨max enough (rounds + 1), fun allowance sufficient => ?_⟩
  have rest := rests allowance (by omega)
  have one := (Machine.orderly_start world (request.program workflow allowance) 0).one
  have finished := Machine.run_of_rest rest one none (fun _ => rfl) allowance (by omega)
  obtain ⟨⟨verdict, machine⟩, finished⟩ := Option.isSome_iff_exists.mp finished
  exact ⟨verdict, machine, finished⟩

end Workflow
end FlowGraph
