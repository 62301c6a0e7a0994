import FlowGraph.Proofs.Fork.Deadline
import FlowGraph.Proofs.Fork.Hearing
import FlowGraph.Proofs.Workflow.Request

/-!
The strategy of a fork does not matter as long as its branches do not wait. In parallel all branches start and their
reports wait in the mailbox; in sequence a branch starts only if it is still needed. The fork hears the same reports
either way and goes on in the same way, apart from what the clock showed.
-/

namespace FlowGraph.Engine
variable {W S : Type} {same : Instant → Instant → Prop} {engine : Engine W S} {clock : Nat → Readings}
  {branch : Snapshot S → Program W (Outcome S)} {request : ForkRequest S}

def openJoin (engine : Engine W S) (request : ForkRequest S) : Join S :=
  .start request.source request.targets.length engine.config.joinTimeout

theorem joinTimeout_pos (config : ExecutionConfig) (timeout : Span) (standard : config.joinTimeout = some timeout) :
    0 < timeout.toNanos := by
  unfold ExecutionConfig.joinTimeout at standard
  split at standard
  · cases standard
    simp only [Span.toNanos, Span.ofMillis]
    omega
  · cases standard

theorem sound_openJoin (engine : Engine W S) (request : ForkRequest S) : (engine.openJoin request).Sound :=
  Join.sound_start _ _ (joinTimeout_pos engine.config)

theorem submit_takes (taken : ∀ time world, (engine.executor time world).1 = true) (now : Nat)
    (targets : List NodeId) : ∀ world : W, ∃ view,
      ∀ (next : List NodeId → Program W (Outcome S)) (machine : Machine W (Outcome S)),
        Machine.advance clock (engine.submit next targets) { machine with time := now, world } =
          Machine.advance clock (next targets) { machine with time := now, world := view } := by
  induction targets with
  | nil => exact fun world => ⟨world, fun _ _ => rfl⟩
  | cons target rest ih =>
      intro world
      obtain ⟨view, submits⟩ := ih (engine.executor now world).2
      refine ⟨view, fun next machine => ?_⟩
      have others := submits
        (fun others => next (if (engine.executor now world).1 then target :: others else others)) machine
      rw [taken now world, if_pos rfl] at others
      refine Eq.trans ?_ others
      simp only [submit, Machine.advance, taken now world]

theorem fork_in_sequence (inTurn : request.strategy = .sequential) (room : Nat) {machine : Machine W (Outcome S)}
    (ready : ∀ target ∈ request.targets, Ready clock machine.time branch request.base target) :
    ∃ reports world asked,
      List.Forall₂ (Reports clock machine.time branch request.base) request.targets reports ∧
        ∀ next : Snapshot S → Program W (Outcome S),
          Machine.advance clock (engine.fork branch room request next) machine =
            Machine.advance clock
              (.unlessEnded ((engine.openJoin request).hear reports) (engine.conclude request · next))
              { machine with world, asked } := by
  obtain ⟨reports, world, asked, all, hears⟩ :=
    inSequence_hears request.targets (engine.sound_openJoin request) ready
  refine ⟨reports, world, asked, all, fun next => ?_⟩
  rw [← hears]
  simp only [fork, Program.time, inTurn]
  rfl

theorem reports_timely {now : Nat} {base : Snapshot S} {targets : List NodeId} {reports : List (BranchReport S)}
    (all : List.Forall₂ (Reports clock now branch base) targets reports) : ∀ report ∈ reports, report.2.Timely := by
  induction all with
  | nil => exact fun _ member => (List.not_mem_nil member).elim
  | cons first _ ih =>
      intro report member
      rcases List.mem_cons.mp member with rfl | later
      · exact first.2.1
      · exact ih report later

theorem fork_launches (timers : engine.timers = none)
    (taken : ∀ time world, (engine.executor time world).1 = true) (atOnce : request.strategy = .parallel)
    (nonempty : request.targets ≠ []) (room : Nat) (machine : Machine W (Outcome S)) :
    ∃ view, ∀ next : Snapshot S → Program W (Outcome S),
      Machine.advance clock (engine.fork branch (room + 1) request next) machine =
        (.parked
          (.listening machine.mailboxes.length
            (heard request (engine.openJoin request)
              (engine.gather request machine.time machine.mailboxes.length (engine.conclude request · next) room)))
          (machine.time + engine.config.pollInterval),
        { machine with
          world := view, asked := machine.asked + 1
          mailboxes := machine.mailboxes ++ [⟨[], request.targets.length⟩]
          ready := machine.ready ++ Machine.branchStrands machine.mailboxes.length
            (fun place target => branch (request.base.moveTo target (clock machine.asked place))) 0
            request.targets }) := by
  obtain ⟨view, submits⟩ := @submit_takes W S engine clock taken machine.time request.targets machine.world
  refine ⟨view, fun next => ?_⟩
  let seeded (place : Nat) (target : NodeId) : Program W (Outcome S) :=
    branch (request.base.moveTo target (clock machine.asked place))
  let listen (channel : Nat) : Program W (Outcome S) :=
    engine.gather request machine.time channel (engine.conclude request · next) (room + 1) (engine.openJoin request)
  let launched := Machine.launched { machine with world := view, asked := machine.asked + 1 } request.targets seeded
  obtain ⟨count, counted⟩ := Nat.exists_eq_succ_of_ne_zero (mt List.length_eq_zero_iff.mp nonempty)
  have nothing : launched.take? machine.mailboxes.length = none := by
    refine @Machine.take?_waiting W (Outcome S) launched machine.mailboxes count ?_
    simp only [launched, Machine.launched, counted]
  have submitted : Machine.advance clock (engine.fork branch (room + 1) request next) machine =
      Machine.advance clock (engine.submit (fun names => .launch names seeded listen) request.targets)
        { machine with asked := machine.asked + 1 } := by
    simp only [fork, Program.time, atOnce]
    rfl
  calc
    _ = Machine.advance clock (.launch request.targets seeded listen)
          { machine with world := view, asked := machine.asked + 1 } :=
      submitted.trans (submits _ { machine with asked := machine.asked + 1 })
    _ = Machine.advance clock (listen machine.mailboxes.length) launched := rfl
    _ = _ := by
      refine (advance_gather timers (engine.sound_openJoin request) rfl _ _ room launched).trans ?_
      rw [Machine.advance, nothing]
      rfl

theorem fork_in_parallel (timers : engine.timers = none)
    (taken : ∀ time world, (engine.executor time world).1 = true) (atOnce : request.strategy = .parallel)
    (nonempty : request.targets ≠ []) {room : Nat} (enough : request.targets.length < room)
    {machine : Machine W (Outcome S)} (deaf : Machine.Deaf machine.mailboxes.length machine.parked)
    (ready : ∀ target ∈ request.targets, Ready clock machine.time branch request.base target) :
    ∃ reports world asked box,
      List.Forall₂ (Reports clock machine.time branch request.base) request.targets reports ∧
        ∀ (next : Snapshot S → Program W (Outcome S)) {ρ : Type} (close : Outcome S → Effect W ρ) attached allowance,
          Machine.run attached clock close
              (allowance + 1 + (if attached then 1 else 0) + request.targets.length + 1) none
              (machine.doing (engine.fork branch room request next)) =
            Machine.run attached clock close (allowance + 1) none
              (Machine.doing { machine with world, asked, mailboxes := machine.mailboxes ++ [box] }
                (.unlessEnded ((engine.openJoin request).hear reports) (engine.conclude request · next))) := by
  obtain ⟨room, rfl⟩ := Nat.exists_eq_add_of_le' (Nat.lt_of_le_of_lt (Nat.zero_le _) enough)
  obtain ⟨view, launches⟩ := @fork_launches W S engine clock branch request timers taken atOnce nonempty room
    { machine with ready := [], held := none }
  obtain ⟨first, rest, targets⟩ := List.exists_cons_of_ne_nil nonempty
  rw [targets] at ready enough launches ⊢
  obtain ⟨reports, last, lastAsked, sent, turns⟩ := Machine.run_launched first rest
    (fun place name member => (ready name member).prompt machine.asked place) machine.mailboxes view
    (machine.asked + 1)
  have all : List.Forall₂ (Reports clock machine.time branch request.base) (first :: rest) reports := by
    refine ((List.forall₂_and_left _ _).mpr ⟨ready, sent⟩).imp ?_
    rintro target report ⟨settles, name, place, may⟩
    exact ⟨name, settles.timely _ _ _ may, machine.asked, place, may⟩
  have counted : reports.length = (first :: rest).length := all.length_eq.symm
  have complete : (engine.openJoin request).joined.length + reports.length = (engine.openJoin request).total := by
    simp only [openJoin, Join.start, targets, counted, List.length_nil, Nat.zero_add]
  have nobodyLost : 0 < (engine.openJoin request).total := by
    simp only [openJoin, Join.start, List.length_pos_iff.mpr nonempty]
  have sound := engine.sound_openJoin request
  let gathered : Machine W (Outcome S) :=
    { machine with
      world := last, asked := lastAsked, ready := [], held := none
      mailboxes := machine.mailboxes ++ [⟨reports, 0⟩] }
  obtain ⟨box, hears⟩ := @gather_hears W S engine clock request timers machine.mailboxes reports (room + 1)
    (engine.openJoin request) gathered (by omega) sound (reports_timely all) complete nobodyLost rfl
  refine ⟨reports, last, lastAsked, box, all, fun next ρ close attached allowance => ?_⟩
  let go (join : Join S) : Program W (Outcome S) := engine.conclude request join next
  obtain ⟨report, others, someone⟩ := List.exists_cons_of_length_eq_add_one counted
  refine (Machine.run_doing_parks (launches next) close attached _ none).trans ?_
  refine (turns close machine _ _ attached (allowance + 1) deaf).trans ?_
  refine Machine.run_of_resume rfl rfl ?_ close attached allowance none
  have there : gathered.take? machine.mailboxes.length = _ :=
    Machine.take?_newest (congrArg (fun reports => machine.mailboxes ++ [⟨reports, 0⟩]) someone)
  refine (Machine.resume_listening there engine.config.pollInterval).trans ?_
  exact (advance_gather timers sound rfl machine.mailboxes.length go room gathered).symm.trans (hears go)

/-- How a fork goes on that has heard so. -/
inductive Concluded (engine : Engine W S) (clock : Nat → Readings) (base : Snapshot S) :
    Except (Outcome S) (Join S) → Except (Outcome S) (Snapshot S) → Prop where
  | ended (outcome : Outcome S) : Concluded engine clock base (.error outcome) (.error outcome)
  | joined {join : Join S} {terms : JoinTerms} {answer : Attempt (Except Error (Merged S))}
      (fixed : join.terms = some terms) (gives : (engine.merger base join.joined).Gives answer) (asked : Nat) :
      Concluded engine clock base (.ok join) (conclusion base terms.node join.joined answer (clock asked))

theorem concludes {heard : Except (Outcome S) (Join S)} (fixed : ∀ join, heard = .ok join → join.terms.isSome)
    (machine : Machine W (Outcome S)) :
    ∃ settled world asked, Concluded engine clock request.base heard settled ∧
      ∀ next : Snapshot S → Program W (Outcome S),
        Machine.advance clock (.unlessEnded heard (engine.conclude request · next)) machine =
          Machine.advance clock (.unlessEnded settled next) { machine with world, asked } := by
  cases heard with
  | error outcome => exact ⟨_, _, _, .ended outcome, fun _ => rfl⟩
  | ok join =>
      obtain ⟨terms, known⟩ := Option.isSome_iff_exists.mp (fixed join rfl)
      refine ⟨_, (engine.merger request.base join.joined machine.time machine.world).2, machine.asked + 1,
        .joined known ⟨machine.time, machine.world, rfl⟩ machine.asked, fun next => ?_⟩
      simp only [Program.unlessEnded, engine.conclude_joined request known, Machine.advance]

theorem Concluded.alike (blurred : Instant.Blurred same) (steady : engine.Steady same)
    (times : ∀ asked later, (clock asked).Alike same (clock later)) {base other : Snapshot S}
    (bases : base.Alike same other) {heard others : Except (Outcome S) (Join S)}
    (paired : Paired (Outcome.Alike same) (Join.Alike same) heard others)
    {settled another : Except (Outcome S) (Snapshot S)} (first : Concluded engine clock base heard settled)
    (second : Concluded engine clock other others another) :
    Paired (Outcome.Alike same) (Snapshot.Alike same) settled another := by
  cases first with
  | ended _ =>
      cases second with
      | ended _ =>
          cases paired with
          | error outcomes => exact .error outcomes
      | joined => cases paired
  | joined fixed gives asked =>
      cases second with
      | ended _ => cases paired
      | joined fixedToo givesToo later =>
          cases paired with
          | ok joins =>
              have sameTerms := fixed.symm.trans (joins.terms.trans fixedToo)
              obtain rfl := Option.some.inj sameTerms
              obtain rfl := steady.merger _ _ _ _ bases joins.joined _ _ gives givesToo
              exact conclusion_alike blurred bases _ joins.joined _ (times asked later)

theorem reports_alike (blurred : Instant.Blurred same) (steady : engine.Steady same)
    (times : ∀ asked later, (clock asked).Alike same (clock later)) (room : Nat) {now : Nat} {base : Snapshot S}
    {targets : List NodeId} {reports : List (BranchReport S)}
    (first : List.Forall₂ (Reports clock now (engine.drive room .branch 0) base) targets reports) :
    ∀ {others : List (BranchReport S)},
      List.Forall₂ (Reports clock now (engine.drive room .branch 0) base) targets others →
        List.Forall₂ (fun report other => report.1 = other.1 ∧ report.2.Alike same other.2) reports others := by
  induction first with
  | nil =>
      intro others second
      cases second
      exact .nil
  | @cons target _ _ _ one _ ih =>
      intro others second
      cases second with
      | cons another rest =>
          obtain ⟨name, _, asked, place, settles⟩ := one
          obtain ⟨nameToo, _, later, placeToo, settlesToo⟩ := another
          have seeds := (Snapshot.Alike.refl blurred base).moveTo blurred target (times asked later place placeToo)
          have outcomes := steady.drive blurred times room .branch 0 _ _ seeds _ _ settles settlesToo
          exact .cons ⟨name.trans nameToo.symm, outcomes⟩ (ih rest)

/-- Branches that come to their end without waiting make a fork go on alike under both strategies, whatever the
policy of its join: with snapshots that are alike, or with outcomes that are. In parallel it takes a turn for itself
and one for each branch before, and one to let an attached main strand go. The branches report on a channel of their
own: in an orderly machine nobody listens to it before the fork does. -/
theorem strategies_agree (engine : Engine W S) (same : Instant → Instant → Prop) (clock : Nat → Readings)
    (room : Nat) (request : ForkRequest S) (machine : Machine W (Outcome S)) (blurred : Instant.Blurred same)
    (times : ∀ asked later, (clock asked).Alike same (clock later)) (steady : engine.Steady same)
    (taken : ∀ time world, (engine.executor time world).1 = true) (nonempty : request.targets ≠ [])
    (enough : request.targets.length < room)
    (ready : ∀ target ∈ request.targets,
      Ready clock machine.time (engine.drive room .branch 0) request.base target)
    (deaf : Machine.Deaf machine.mailboxes.length machine.parked) :
    ∃ first second : Except (Outcome S) (Snapshot S),
      Paired (Outcome.Alike same) (Snapshot.Alike same) first second ∧
        ∃ world asked view later box, ∀ (next : Snapshot S → Program W (Outcome S)) {ρ : Type}
          (close : Outcome S → Effect W ρ) (attached : Bool) (allowance : Nat),
          Machine.run attached clock close (allowance + 1) none
              (machine.doing (engine.fork (engine.drive room .branch 0) room
                { request with strategy := .sequential } next)) =
            Machine.run attached clock close (allowance + 1) none
              (Machine.doing { machine with world, asked } (.unlessEnded first next)) ∧
          Machine.run attached clock close
              (allowance + 1 + (if attached then 1 else 0) + request.targets.length + 1) none
              (machine.doing (engine.fork (engine.drive room .branch 0) room
                { request with strategy := .parallel } next)) =
            Machine.run attached clock close (allowance + 1) none
              (Machine.doing { machine with world := view, asked := later, mailboxes := machine.mailboxes ++ [box] }
                (.unlessEnded second next)) := by
  let inTurn : ForkRequest S := { request with strategy := .sequential }
  let atOnce : ForkRequest S := { request with strategy := .parallel }
  obtain ⟨reports, ran, ranAsked, all, inSequence⟩ :=
    @fork_in_sequence W S engine clock (engine.drive room .branch 0) inTurn rfl room
      { machine with ready := [], held := none } ready
  obtain ⟨others, sent, sentAsked, box, allToo, inParallel⟩ :=
    @fork_in_parallel W S engine clock (engine.drive room .branch 0) atOnce steady.timers taken rfl nonempty room
      enough machine deaf ready
  have paired := Join.hear_alike (reports_alike blurred steady times room all allToo)
    (Join.alike_start request.source request.targets.length engine.config.joinTimeout)
  have fixed (heard : List (BranchReport S))
      (each : List.Forall₂ (Reports clock machine.time (engine.drive room .branch 0) request.base) request.targets
        heard) : ∀ join, (engine.openJoin request).hear heard = .ok join → join.terms.isSome := by
    intro join hears
    refine Join.hear_terms heard hears (.inl ?_)
    rintro rfl
    exact nonempty (List.forall₂_nil_right_iff.mp each)
  obtain ⟨first, world, asked, concluded, goesOn⟩ := @concludes W S engine clock inTurn _ (fixed reports all)
    { machine with world := ran, asked := ranAsked, ready := [], held := none }
  obtain ⟨second, view, later, concludedToo, goesOnToo⟩ := @concludes W S engine clock atOnce _ (fixed others allToo)
    { machine with
      world := sent, asked := sentAsked, ready := [], held := none, mailboxes := machine.mailboxes ++ [box] }
  refine ⟨first, second, concluded.alike blurred steady times (.refl blurred request.base) paired concludedToo,
    world, asked, view, later, box, fun next ρ close attached allowance => ⟨?_, ?_⟩⟩
  · refine Machine.run_of_resume rfl rfl ?_ close attached allowance none
    exact (inSequence next).trans (goesOn next)
  · refine (inParallel next close attached allowance).trans ?_
    refine Machine.run_of_resume rfl rfl ?_ close attached allowance none
    exact goesOnToo next

section
/-- A fork to some targets. The first branch joins, and the second one does what it is told; neither waits. -/
def promptMeeting (targets : List NodeId) (strategy : ForkStrategy) (timers : Option String)
    (second : Snapshot Unit → Command Unit) : Blueprint Unit Unit Unit :=
  { lateMeeting strategy with
    timers
    nodes :=
      [(Node.new sourceNode fun _ => .done (.ok (.ofAction (.fork targets strategy .empty none)))).asEntryPoint,
        Node.new firstTarget fun _ => .done (.ok (.join meetNode)),
        Node.new secondTarget fun snapshot => .done (.ok (second snapshot)),
        Node.new meetNode fun _ => .done (.ok .complete)] }

def tickingClock : Nat → Readings := fun asked _ => ⟨asked, 0⟩

def pairEngine : Engine Unit Unit :=
  let parts := promptMeeting [firstTarget, secondTarget] .parallel none fun _ => .join meetNode
  { plainEngine with
    topology :=
      { nodes := parts.nodes, edges := parts.edges, defaultEntry := none, entry := sourceNode
        entryPoints := [sourceNode], places := Topology.nodePlaces 0 .empty parts.nodes
        outgoing := Topology.edgePlaces Edge.source 0 .empty parts.edges
        incoming := Topology.edgePlaces Edge.target 0 .empty parts.edges } }

def pairRequest : ForkRequest Unit :=
  ⟨sourceNode, .initial ⟨"pairing", by decide +kernel, by decide⟩ () .empty sourceNode default,
    [firstTarget, secondTarget], .parallel⟩

def idle : Machine Unit (Outcome Unit) := .start () .never

theorem node_steady {same : Instant → Instant → Prop} (id : NodeId) {command : Command Unit}
    (unconditional : command.conditions = []) :
    (Node.new id fun _ => .done (.ok command) : Node Unit Unit).Steady same where
  process _ _ _ := Activity.agrees_done _
  hooks := ⟨nofun, nofun, nofun, nofun⟩
  commands := by
    intro snapshot entry member
    rw [unconditional] at member
    cases member

theorem pairEngine_steady (same : Instant → Instant → Prop) : pairEngine.Steady same where
  timers := rfl
  nodes := by
    intro node member
    simp only [pairEngine, promptMeeting, List.mem_cons, List.not_mem_nil, or_false] at member
    rcases member with rfl | rfl | rfl | rfl
    · exact { node_steady sourceNode rfl with }
    · exact node_steady firstTarget rfl
    · exact node_steady secondTarget rfl
    · exact node_steady meetNode rfl
  edges := by
    intro edge member
    simp only [pairEngine, promptMeeting, lateMeeting, List.mem_cons, List.not_mem_nil, or_false] at member
    rcases member with rfl | rfl | rfl | rfl <;> exact fun _ _ _ => rfl
  merger _ _ _ _ bases branches := Merger.lastWriterWins_agrees bases branches

theorem pair_ready : ∀ target ∈ pairRequest.targets,
    Ready tickingClock 0 (pairEngine.drive 3 .branch 0) pairRequest.base target := by
  intro target member
  simp only [pairRequest, List.mem_cons, List.not_mem_nil, or_false] at member
  rcases member with rfl | rfl
  all_goals
    refine ⟨fun _ _ _ _ _ => trivial, ?_⟩
    rintro asked place outcome ⟨_, _, _, rfl⟩ node policy timeout snapshot joins
    cases joins

theorem pair_strategies_agree :
    ∃ first second : Except (Outcome Unit) (Snapshot Unit),
      Paired (Outcome.Alike fun _ _ => True) (Snapshot.Alike fun _ _ => True) first second ∧
        ∃ world asked view later box, ∀ (next : Snapshot Unit → Program Unit (Outcome Unit)) {ρ : Type}
          (close : Outcome Unit → Effect Unit ρ) (attached : Bool) (allowance : Nat),
          Machine.run attached tickingClock close (allowance + 1) none
              (idle.doing (pairEngine.fork (pairEngine.drive 3 .branch 0) 3
                { pairRequest with strategy := .sequential } next)) =
            Machine.run attached tickingClock close (allowance + 1) none
              (Machine.doing { idle with world, asked } (.unlessEnded first next)) ∧
          Machine.run attached tickingClock close (allowance + 1 + (if attached then 1 else 0) + 2 + 1) none
              (idle.doing (pairEngine.fork (pairEngine.drive 3 .branch 0) 3
                { pairRequest with strategy := .parallel } next)) =
            Machine.run attached tickingClock close (allowance + 1) none
              (Machine.doing { idle with world := view, asked := later, mailboxes := [box] }
                (.unlessEnded second next)) :=
  strategies_agree pairEngine (fun _ _ => True) tickingClock 3 pairRequest idle
    ⟨fun _ => trivial, fun _ _ => trivial⟩ (fun _ _ _ _ => trivial) (pairEngine_steady _) (fun _ _ => rfl)
    (by simp [pairRequest]) (by decide) pair_ready (Machine.orderly_start () .never 0).deaf

def verdictOf (blueprint : Blueprint Unit Unit Unit) : Except Error (Option (Verdict (Result Unit Unit))) :=
  blueprint.build.map fun workflow =>
    (workflow.perform tickingClock 20 (workflow.start 20 () .empty) ()).map Workflow.Ending.verdict

def joinUnlessLate (snapshot : Snapshot Unit) : Command Unit :=
  if snapshot.revision.modified.seconds = 4 then .complete else .join meetNode

/-- A fork to nowhere fails with another error under each strategy. So do forks differ if a branch looks at the
stamps of its snapshot, or if there are no timers to wait with. -/
theorem strategies_differ :
    ((∃ base, verdictOf (promptMeeting [] .parallel none fun _ => .join meetNode) =
        .ok (some (.settled (.failure
          (.taskJoin "fork at source lost 0 branch(es) before they reported") (some base))))) ∧
      ∃ base, verdictOf (promptMeeting [] .sequential none fun _ => .join meetNode) =
        .ok (some (.settled (.failure
          (.taskJoin "fork at source ended without any branch joining") (some base))))) ∧
    ((∃ last, verdictOf (promptMeeting [firstTarget, secondTarget] .parallel none joinUnlessLate) =
        .ok (some (.settled (.success () last))) ∧ last.trace = [sourceNode, firstTarget, secondTarget, meetNode]) ∧
      ∃ last, verdictOf (promptMeeting [firstTarget, secondTarget] .sequential none joinUnlessLate) =
        .ok (some (.settled (.success () last))) ∧ last.trace = [sourceNode, secondTarget]) ∧
    verdictOf (promptMeeting [firstTarget, secondTarget] .parallel (some "no timers") fun _ => .join meetNode) =
        .ok (some (.broken (.text "no timers"))) ∧
      ∃ last, verdictOf (promptMeeting [firstTarget, secondTarget] .sequential (some "no timers")
          fun _ => .join meetNode) = .ok (some (.settled (.success () last))) :=
  ⟨⟨⟨_, rfl⟩, _, rfl⟩, ⟨⟨_, rfl, rfl⟩, _, rfl, rfl⟩, rfl, _, rfl⟩
end

end FlowGraph.Engine
