import FlowGraph.Proofs.Loop.Ends

/-!
When the loops of two engines follow each other. If the parts of the engines do the same in related worlds, so
do their forks and turns, and the loops come to ends that the rules allow.
-/

namespace FlowGraph

namespace Join
variable {S : Type}

inductive Records (good : NodeId → Outcome S → Prop) (join : Join S) : Prop where
  | blank (terms : join.terms = none) (nobody : join.joined = [])
  | fixed {terms : JoinTerms} {reports : List (BranchReport S)} (fixed : join.terms = some terms)
      (agreed : Agreed terms.node terms.policy reports join.joined)
      (fits : ∀ report ∈ reports, good report.1 report.2)

variable {good : NodeId → Outcome S → Prop} {join : Join S}

theorem Records.record (records : join.Records good) {branch : NodeId} {outcome : Outcome S}
    (fits : good branch outcome) :
    (∃ next, join.record branch outcome = .ok next ∧ next.Records good ∧ next.total = join.total ∧
        next.joined.length = join.joined.length + 1) ∨
      (join.record branch outcome = .error outcome ∧ ¬IsJoin outcome) ∨
      ∃ node policy timeout last error, outcome = .joined node policy timeout last ∧
        join.record branch outcome = .error (.failed error (some last)) := by
  cases outcome with
  | completed snapshot => exact .inr (.inl ⟨rfl, by rintro ⟨_, _, _, _, ⟨⟩⟩⟩)
  | suspended suspension => exact .inr (.inl ⟨rfl, by rintro ⟨_, _, _, _, ⟨⟩⟩⟩)
  | failed error snapshot => exact .inr (.inl ⟨rfl, by rintro ⟨_, _, _, _, ⟨⟩⟩⟩)
  | joined node policy timeout snapshot =>
      cases records with
      | blank terms nobody =>
          refine .inl ⟨{ join with terms := some ⟨node, policy, timeout⟩, joined := [⟨branch, node, snapshot⟩] },
            ?_, .fixed rfl (Agreed.single branch timeout snapshot) ?_, rfl, ?_⟩
          · simp only [Join.record, terms, nobody, List.nil_append]
          · intro report member
            cases List.mem_singleton.mp member
            exact fits
          · rw [nobody]
            rfl
      | @fixed terms reports fixed agreed others =>
          by_cases same : terms.node = node
          · subst same
            refine .inl ⟨{ join with joined := join.joined ++ [⟨branch, terms.node, snapshot⟩] }, ?_,
              .fixed fixed (agreed.concat branch policy timeout snapshot) ?_, rfl, ?_⟩
            · simp only [Join.record, fixed, ↓reduceIte]
            · intro report member
              rcases List.mem_append.mp member with old | new
              · exact others report old
              · cases List.mem_singleton.mp new
                exact fits
            · rw [List.length_append, List.length_singleton]
          · refine .inr (.inr ⟨node, policy, timeout, snapshot,
              .traversal (snapshot.currentNode.getD branch) node (astrayReason terms.node), rfl, ?_⟩)
            simp only [Join.record, fixed]
            rw [if_neg same]
            rfl

theorem Records.next (records : join.Records good) {branch : NodeId} {outcome : Outcome S}
    (fits : good branch outcome) {next : Join S} (recorded : join.record branch outcome = .ok next) :
    next.Records good ∧ next.total = join.total ∧ next.joined.length = join.joined.length + 1 := by
  rcases records.record fits with ⟨same, goesOn, kept⟩ | ⟨failed, _⟩ | ⟨_, _, _, _, _, _, failed⟩
  · rw [recorded] at goesOn
    cases goesOn
    exact kept
  · rw [recorded] at failed
    cases failed
  · rw [recorded] at failed
    cases failed

theorem Records.room (records : join.Records good) (waits : join.isSatisfied = false) :
    join.joined = [] ∨ join.joined.length < join.total := by
  cases records with
  | blank _ nobody => exact .inl nobody
  | @fixed terms reports fixed agreed _ =>
      right
      have some_ : 0 < join.joined.length := by
        rw [← agreed.joins.length_eq]
        exact List.length_pos_iff.mpr agreed.ne_nil
      simp only [isSatisfied, fixed] at waits
      cases policy : terms.policy <;>
        simp only [policy, WaitPolicy.isSatisfied, decide_eq_false_iff_not] at waits <;> omega

end Join

namespace Engine
variable {W V S : Type}

/-- The parts of the engines do the same in related worlds. Observers and mergers need to do so for honest notes
only. -/
structure Mirrors (patience : Option Nat) (worlds : W → V → Prop) (engine : Engine W S)
    (other : Engine V S) : Prop where
  config : engine.config = other.config
  timers : engine.timers = other.timers
  apply : ∀ mode current snapshot command readings,
    engine.apply mode current snapshot command readings = other.apply mode current snapshot command readings
  nodes : ∀ current, Option.Rel
    (fun node otherNode => ∀ snapshot, (node.lifecycle engine.timers snapshot).Follows patience worlds
      (otherNode.lifecycle other.timers snapshot).MayEnd (otherNode.lifecycle other.timers snapshot))
    (engine.topology.node? current) (other.topology.node? current)
  observer : ∀ notice, other.Honest (.told notice) →
    (engine.observer notice).Alike worlds (other.observer notice)
  executor : engine.executor.Alike worlds other.executor
  merger : ∀ base joined, other.Honest (.merges base joined) →
    (engine.merger base joined).Alike worlds (other.merger base joined)

variable {patience : Option Nat} {worlds : W → V → Prop} {engine : Engine W S} {other : Engine V S}
  {count : Nat} {protocol : Protocol (Outcome S)} {ends : Attempt (Outcome S) → Prop}

theorem failed_follows {error : Error} {snapshot : Snapshot S}
    (holds : ends (.ok (.failed error (some snapshot)))) :
    Program.Follows patience worlds count protocol ends (failed error snapshot) (failed error snapshot) :=
  .done holds

theorem Mirrors.notify (mirrors : engine.Mirrors patience worlds other) (notice : Notice S)
    (honest : other.Honest (.told notice)) {next : Program W (Outcome S)} {otherNext : Program V (Outcome S)}
    (rest : Program.Follows patience worlds count protocol ends next otherNext) :
    Program.Follows patience worlds count protocol ends (engine.notify notice next)
      (other.notify notice otherNext) :=
  .call (mirrors.observer notice honest) fun _ _ => rest

section
variable {mode : Mode} {snapshot : Snapshot S} {request : ForkRequest S}

theorem ends_of_record (answers : other.Answers mode snapshot (.fork request)) {join : Join S}
    (records : join.Records (other.Reported request)) {branch : NodeId} {outcome ending : Outcome S}
    (reported : other.Reported request branch outcome)
    (recorded : join.record branch outcome = .error ending) : other.Ends mode snapshot ending := by
  obtain ⟨started, time, comes⟩ := reported
  rcases records.record ⟨started, time, comes⟩ with
    ⟨next, goesOn, _⟩ | ⟨same, isEnd⟩ | ⟨node, policy, timeout, last, error, rfl, astray⟩
  · rw [goesOn] at recorded
    cases recorded
  · rw [same] at recorded
    cases recorded
    exact .branchEnded answers started comes isEnd
  · rw [astray] at recorded
    cases recorded
    exact .astray answers started comes error

theorem MayJoin.rejoins {node : NodeId} {joined : List (JoinedBranch S)} {later : Snapshot S}
    (joins : other.MayJoin request node joined) {answer : Attempt (Except Error (Merged S))} {readings : Readings}
    (gives : (other.merger request.base joined).Gives answer)
    (settled : reconcile request.base node joined answer readings = .ok later) :
    other.Rejoins request node joined later := by
  refine ⟨joins, ?_⟩
  rcases answer with panic | error | merged
  · cases settled
  · cases settled
  · simp only [reconcile] at settled
    split at settled
    · cases settled
    · rename_i position standing
      cases settled
      exact ⟨merged, position, readings, gives, standing, rfl⟩

theorem Mirrors.conclude (mirrors : engine.Mirrors patience worlds other)
    (answers : other.Answers mode snapshot (.fork request)) {join : Join S}
    (records : join.Records (other.Reported request)) {next : Snapshot S → Program W (Outcome S)}
    {otherNext : Snapshot S → Program V (Outcome S)}
    (rest : ∀ node joined later, other.Rejoins request node joined later →
      Program.Follows patience worlds count protocol (other.Comes mode snapshot) (next later)
        (otherNext later)) :
    Program.Follows patience worlds count protocol (other.Comes mode snapshot)
      (engine.conclude request join next) (other.conclude request join otherNext) := by
  unfold Engine.conclude
  cases records with
  | blank terms _ =>
      rw [terms]
      exact failed_follows (.unjoined answers _)
  | @fixed terms reports fixed agreed fits =>
      rw [fixed]
      have joins : other.MayJoin request terms.node join.joined := ⟨terms.policy, reports, agreed, fits⟩
      have merger := mirrors.merger request.base join.joined ⟨_, _, _, _, answers, rfl, joins⟩
      refine .call merger fun answer gives => .clock fun readings => ?_
      cases settled : reconcile request.base terms.node join.joined answer readings with
      | error error => exact failed_follows (.unjoined answers error)
      | ok later => exact rest terms.node join.joined later (joins.rejoins gives settled)

/-- The branches of the fork follow each other with every channel that may be open. -/
def BranchesFollow (patience : Option Nat) (worlds : W → V → Prop) (other : Engine V S) (count : Nat)
    (request : ForkRequest S) (branch : Snapshot S → Program W (Outcome S))
    (otherBranch : Snapshot S → Program V (Outcome S)) : Prop :=
  ∀ target ∈ request.targets, ∀ time, Program.Follows patience worlds count .closed
    (other.Comes .branch (request.base.moveTo target time)) (branch (request.base.moveTo target time))
    (otherBranch (request.base.moveTo target time))

theorem BranchesFollow.fewer {branch : Snapshot S → Program W (Outcome S)}
    {otherBranch : Snapshot S → Program V (Outcome S)}
    (branches : BranchesFollow patience worlds other count request branch otherBranch) {less : Nat}
    (smaller : less ≤ count) : BranchesFollow patience worlds other less request branch otherBranch :=
  fun target member time => (branches target member time).fewer smaller

theorem inSequence_follows (answers : other.Answers mode snapshot (.fork request))
    {branch : Snapshot S → Program W (Outcome S)} {otherBranch : Snapshot S → Program V (Outcome S)}
    (started : Nat) {next : Join S → Program W (Outcome S)} {otherNext : Join S → Program V (Outcome S)}
    (targets : List NodeId) : targets ⊆ request.targets → ∀ {count : Nat} {protocol : Protocol (Outcome S)}
      {join : Join S}, join.Records (other.Reported request) →
        BranchesFollow patience worlds other count request branch otherBranch →
        (∀ less ≤ count, ∀ wide : Protocol (Outcome S), wide.Widens protocol → ∀ join : Join S,
          join.Records (other.Reported request) →
            Program.Follows patience worlds less wide (other.Comes mode snapshot) (next join)
              (otherNext join)) →
        Program.Follows patience worlds count protocol (other.Comes mode snapshot)
          (inSequence branch request started next join targets)
          (inSequence otherBranch request started otherNext join targets) := by
  induction targets with
  | nil =>
      intro _ count protocol join records _ rest
      exact rest count (Nat.le_refl _) protocol (Protocol.Widens.refl _) join records
  | cons target others ih =>
      intro among count protocol join records branches rest
      simp only [inSequence]
      split
      · exact rest count (Nat.le_refl _) protocol (Protocol.Widens.refl _) join records
      · refine .clock fun readings => ?_
        have member : target ∈ request.targets := among List.mem_cons_self
        have one := (branches target member (readings 0)).weaken (Nat.le_refl count)
          (Protocol.widens_closed protocol) fun _ holds => holds
        refine one.bind (fun less smaller wide wider outcome comes => ?_) fun _ _ => trivial
        have reported : other.Reported request target outcome := ⟨member, readings 0, comes⟩
        cases recorded : join.record target outcome with
        | error ending => exact .done (ends_of_record answers records reported recorded)
        | ok joined =>
            refine .time fun now => ?_
            cases joined.expired (now - started) with
            | some error => exact failed_follows (.unjoined answers error)
            | none =>
                refine ih (fun _ later => among (List.mem_cons_of_mem _ later))
                  (records.next reported recorded).1 (branches.fewer smaller) ?_
                intro fewer smallest widest widens join records
                exact rest fewer (by omega) widest (widens.trans wider) join records

theorem Mirrors.submit (mirrors : engine.Mirrors patience worlds other) (targets : List NodeId) :
    ∀ {next : List NodeId → Program W (Outcome S)} {otherNext : List NodeId → Program V (Outcome S)},
      (∀ taken ⊆ targets, Program.Follows patience worlds count protocol ends (next taken)
        (otherNext taken)) →
      Program.Follows patience worlds count protocol ends (engine.submit next targets)
        (other.submit otherNext targets) := by
  induction targets with
  | nil =>
      intro next otherNext rest
      exact rest [] (List.Subset.refl [])
  | cons target others ih =>
      intro next otherNext rest
      refine .call mirrors.executor fun taken _ => ih fun later fewer => rest _ ?_
      split
      · exact List.cons_subset_cons target fewer
      · exact List.subset_cons_of_subset target fewer

def GathersFollow (patience : Option Nat) (worlds : W → V → Prop) (engine : Engine W S) (other : Engine V S)
    (mode : Mode) (snapshot : Snapshot S) (request : ForkRequest S) (count allowance room : Nat) : Prop :=
  ∀ (started channel : Nat) (protocol : Protocol (Outcome S)) (next : Join S → Program W (Outcome S))
    (otherNext : Join S → Program V (Outcome S)), protocol channel = some (other.Reported request) →
      (∀ less ≤ count, ∀ join : Join S, join.Records (other.Reported request) →
        Program.Follows patience worlds less protocol (other.Comes mode snapshot) (next join)
          (otherNext join)) →
      Program.Follows patience worlds count protocol (other.Comes mode snapshot)
        (engine.gather request started channel next allowance
          (.start request.source request.targets.length engine.config.joinTimeout))
        (other.gather request started channel otherNext room
          (.start request.source request.targets.length other.config.joinTimeout))

theorem Mirrors.gather (mirrors : engine.Mirrors none worlds other)
    (answers : other.Answers mode snapshot (.fork request)) (started channel : Nat)
    {next : Join S → Program W (Outcome S)} {otherNext : Join S → Program V (Outcome S)}
    (known : protocol channel = some (other.Reported request)) (allowance : Nat) : ∀ (count : Nat)
      (join : Join S), join.Records (other.Reported request) →
        (∀ less ≤ count, ∀ join : Join S, join.Records (other.Reported request) →
          Program.Follows none worlds less protocol (other.Comes mode snapshot) (next join)
            (otherNext join)) →
        Program.Follows none worlds count protocol (other.Comes mode snapshot)
          (engine.gather request started channel next allowance join)
          (other.gather request started channel otherNext allowance join) := by
  induction allowance with
  | zero =>
      intro count join _ _
      exact .exhausted rfl
  | succ allowance ih =>
      intro count join records rest
      simp only [Engine.gather, mirrors.timers, mirrors.config]
      split
      · exact rest count (Nat.le_refl _) join records
      · refine .time fun now => ?_
        cases join.expired (now - started) with
        | some error => exact failed_follows (.unjoined answers error)
        | none =>
            cases other.timers with
            | some text => exact .broken trivial
            | none =>
                refine .receive rfl known (failed_follows (.unjoined answers _)) ?_ ?_
                · intro less smaller branch outcome reported
                  cases recorded : join.record branch outcome with
                  | error ending =>
                      simp only [recorded]
                      exact .done (ends_of_record answers records reported recorded)
                  | ok joined =>
                      simp only [recorded]
                      exact ih less joined (records.next reported recorded).1
                        fun fewer le => rest fewer (by omega)
                · intro less smaller
                  exact ih less join records fun fewer le => rest fewer (by omega)

theorem Mirrors.gathersFollow (mirrors : engine.Mirrors none worlds other)
    (answers : other.Answers mode snapshot (.fork request)) (count allowance : Nat) :
    GathersFollow none worlds engine other mode snapshot request count allowance allowance := by
  intro started channel protocol next otherNext known rest
  rw [mirrors.config]
  exact mirrors.gather answers started channel known allowance count _ (.blank rfl rfl) rest

theorem launch_follows {branch : Snapshot S → Program W (Outcome S)}
    {otherBranch : Snapshot S → Program V (Outcome S)}
    (branches : BranchesFollow patience worlds other count request branch otherBranch) (readings : Readings)
    {collect : Nat → Program W (Outcome S)} {otherCollect : Nat → Program V (Outcome S)}
    (rest : ∀ channel, protocol channel = none →
      Program.Follows patience worlds count (protocol.opened channel (other.Reported request)) ends
        (collect channel) (otherCollect channel)) (taken : List NodeId) (among : taken ⊆ request.targets) :
    Program.Follows patience worlds count protocol ends
      (.launch taken (fun place target => branch (request.base.moveTo target (readings place))) collect)
      (.launch taken (fun place target => otherBranch (request.base.moveTo target (readings place)))
        otherCollect) := by
  refine .launch (other.Reported request) (fun place target member => ?_) rest
  refine (branches target (among member) (readings place)).weaken (Nat.le_refl count)
    (Protocol.Widens.refl _) ?_
  rintro (panic | outcome) comes
  · trivial
  · exact ⟨among member, readings place, comes⟩

theorem Mirrors.fork (mirrors : engine.Mirrors patience worlds other)
    (answers : other.Answers mode snapshot (.fork request)) {allowance room : Nat}
    (gathers : GathersFollow patience worlds engine other mode snapshot request count allowance room)
    {branch : Snapshot S → Program W (Outcome S)} {otherBranch : Snapshot S → Program V (Outcome S)}
    (branches : BranchesFollow patience worlds other count request branch otherBranch)
    {next : Snapshot S → Program W (Outcome S)} {otherNext : Snapshot S → Program V (Outcome S)}
    (rest : ∀ less ≤ count, ∀ wide : Protocol (Outcome S), wide.Widens protocol →
      ∀ node joined later, other.Rejoins request node joined later →
        Program.Follows patience worlds less wide (other.Comes mode snapshot) (next later)
          (otherNext later)) :
    Program.Follows patience worlds count protocol (other.Comes mode snapshot)
      (engine.fork branch allowance request next) (other.fork otherBranch room request otherNext) := by
  have concludes (less : Nat) (smaller : less ≤ count) (wide : Protocol (Outcome S))
      (wider : wide.Widens protocol) (join : Join S) (records : join.Records (other.Reported request)) :
      Program.Follows patience worlds less wide (other.Comes mode snapshot)
        (engine.conclude request join next) (other.conclude request join otherNext) :=
    mirrors.conclude answers records (rest less smaller wide wider)
  refine .time fun started => ?_
  cases strategy : request.strategy with
  | sequential =>
      rw [mirrors.config]
      exact inSequence_follows answers started request.targets (List.Subset.refl _) (.blank rfl rfl) branches
        concludes
  | parallel =>
      refine .clock fun readings => mirrors.submit request.targets (launch_follows branches readings ?_)
      intro channel fresh
      exact gathers started channel _ _ _ (Protocol.opened_same _ _ _)
        fun less smaller => concludes less smaller _ (Protocol.opened_widens fresh _)
  | conditional =>
      refine .clock fun readings => mirrors.submit request.targets (launch_follows branches readings ?_)
      intro channel fresh
      exact gathers started channel _ _ _ (Protocol.opened_same _ _ _)
        fun less smaller => concludes less smaller _ (Protocol.opened_widens fresh _)

end

def turn (engine : Engine W S) (room : ForkRequest S → Nat) (branch onward : Snapshot S → Program W (Outcome S))
    (mode : Mode) (steps : Nat) (snapshot : Snapshot S) : Program W (Outcome S) :=
  match snapshot.currentNode with
  | none => failed .unpositioned snapshot
  | some current =>
    match guardFault engine.config (steps + 1) snapshot current with
    | some error => failed error snapshot
    | none =>
      match engine.topology.node? current with
      | none => failed (.nodeNotFound current) snapshot
      | some node =>
        engine.notify (.nodeStarted current snapshot) <|
          .perform (node.lifecycle engine.timers snapshot) fun
            | .error error => failed error snapshot
            | .ok command =>
              engine.notify (.nodeCompleted current snapshot command) <|
                .clock fun readings =>
                  .ofAttempt (engine.apply mode current snapshot command readings) fun step =>
                    let proceed (next : Snapshot S) :=
                      engine.notify (.stateUpdated snapshot next) (onward next)
                    match step with
                    | .proceed next => proceed next
                    | .finish outcome => .done outcome
                    | .fork request => engine.fork branch (room request) request proceed

theorem drive_succ (engine : Engine W S) (allowance : Nat) (mode : Mode) (steps : Nat)
    (snapshot : Snapshot S) :
    engine.drive (allowance + 1) mode steps snapshot =
      engine.turn (fun _ => allowance) (engine.drive allowance .branch 0)
        (engine.drive allowance mode (steps + 1)) mode steps snapshot := rfl

section
variable {mode : Mode} {steps : Nat} {snapshot : Snapshot S}

theorem Mirrors.proceed (mirrors : engine.Mirrors patience worlds other) {next : Snapshot S}
    (turn : other.Turn mode snapshot next) {onward : Program W (Outcome S)} {otherOnward : Program V (Outcome S)}
    (follows : Program.Follows patience worlds count protocol (other.Comes mode next) onward otherOnward) :
    Program.Follows patience worlds count protocol (other.Comes mode snapshot)
      (engine.notify (.stateUpdated snapshot next) onward)
      (other.notify (.stateUpdated snapshot next) otherOnward) := by
  refine mirrors.notify (.stateUpdated snapshot next) ⟨mode, turn⟩
    (follows.weaken (Nat.le_refl _) (Protocol.Widens.refl _) ?_)
  rintro (panic | outcome) comes
  · trivial
  · exact .turn turn comes

section
variable {room otherRoom : ForkRequest S → Nat} {branch onward : Snapshot S → Program W (Outcome S)}
  {otherBranch otherOnward : Snapshot S → Program V (Outcome S)}

theorem Mirrors.step (mirrors : engine.Mirrors patience worlds other)
    (gathers : ∀ request, other.Answers mode snapshot (.fork request) →
      GathersFollow patience worlds engine other mode snapshot request count (room request)
        (otherRoom request))
    (branches : ∀ request, other.Answers mode snapshot (.fork request) →
      BranchesFollow patience worlds other count request branch otherBranch)
    (onwards : ∀ next, other.Turn mode snapshot next → ∀ less ≤ count, ∀ wide : Protocol (Outcome S),
      wide.Widens protocol →
        Program.Follows patience worlds less wide (other.Comes mode next) (onward next)
          (otherOnward next))
    {applied : Attempt (Step S)} (answers : ∀ step, applied = .ok step → other.Answers mode snapshot step) :
    Program.Follows patience worlds count protocol (other.Comes mode snapshot)
      (Program.ofAttempt applied fun
        | .proceed next => engine.notify (.stateUpdated snapshot next) (onward next)
        | .finish outcome => .done outcome
        | .fork request => engine.fork branch (room request) request fun next =>
          engine.notify (.stateUpdated snapshot next) (onward next))
      (Program.ofAttempt applied fun
        | .proceed next => other.notify (.stateUpdated snapshot next) (otherOnward next)
        | .finish outcome => .done outcome
        | .fork request => other.fork otherBranch (otherRoom request) request fun next =>
          other.notify (.stateUpdated snapshot next) (otherOnward next)) := by
  cases applied with
  | error panic => exact .broken trivial
  | ok step =>
      have answers := answers step rfl
      cases step with
      | proceed next =>
          have turn : other.Turn mode snapshot next := .moved answers
          exact mirrors.proceed turn (onwards next turn count (Nat.le_refl _) protocol (Protocol.Widens.refl _))
      | finish outcome => exact .done (.finished answers)
      | fork request =>
          refine mirrors.fork answers (gathers request answers) (branches request answers) ?_
          intro less smaller wide wider node joined later rejoins
          have turn : other.Turn mode snapshot later := .rejoined answers rejoins
          exact mirrors.proceed turn (onwards later turn less smaller wide wider)

theorem Mirrors.turn (mirrors : engine.Mirrors patience worlds other)
    (gathers : ∀ request, other.Answers mode snapshot (.fork request) →
      GathersFollow patience worlds engine other mode snapshot request count (room request)
        (otherRoom request))
    (branches : ∀ request, other.Answers mode snapshot (.fork request) →
      BranchesFollow patience worlds other count request branch otherBranch)
    (onwards : ∀ next, other.Turn mode snapshot next → ∀ less ≤ count, ∀ wide : Protocol (Outcome S),
      wide.Widens protocol →
        Program.Follows patience worlds less wide (other.Comes mode next) (onward next)
          (otherOnward next)) :
    Program.Follows patience worlds count protocol (other.Comes mode snapshot)
      (engine.turn room branch onward mode steps snapshot)
      (other.turn otherRoom otherBranch otherOnward mode steps snapshot) := by
  have stops (error : Error) : Program.Follows patience worlds count protocol (other.Comes mode snapshot)
      (failed error snapshot) (failed error snapshot) :=
    failed_follows (.stopped mode snapshot error)
  unfold Engine.turn
  cases standing : snapshot.currentNode with
  | none => exact stops _
  | some current =>
      simp only [mirrors.config]
      cases guarded : guardFault other.config (steps + 1) snapshot current with
      | some error => exact stops error
      | none =>
          have nodes := mirrors.nodes current
          simp only
          generalize engine.topology.node? current = node, found : other.topology.node? current = otherNode
            at nodes
          cases nodes with
          | none => exact stops _
          | @some node otherNode alike =>
              refine mirrors.notify (.nodeStarted current snapshot) trivial
                (Program.Follows.perform (alike snapshot) ?_ fun _ _ => trivial)
              rintro (error | command) may
              · exact stops error
              · refine mirrors.notify (.nodeCompleted current snapshot command) trivial
                  (.clock fun readings => ?_)
                rw [mirrors.apply]
                exact mirrors.step gathers branches onwards fun step applied =>
                  ⟨current, otherNode, command, readings, steps + 1, standing, guarded, found, may, applied⟩

end

end

/-- Loops with the same allowance follow each other. -/
theorem Mirrors.drive (mirrors : engine.Mirrors none worlds other) (allowance : Nat) :
    ∀ (count : Nat) (protocol : Protocol (Outcome S)) (mode : Mode) (steps : Nat) (snapshot : Snapshot S),
      Program.Follows none worlds count protocol (other.Comes mode snapshot)
        (engine.drive allowance mode steps snapshot) (other.drive allowance mode steps snapshot) := by
  induction allowance with
  | zero =>
      intro count protocol mode steps snapshot
      exact .exhausted rfl
  | succ allowance ih =>
      intro count protocol mode steps snapshot
      rw [drive_succ, drive_succ]
      refine mirrors.turn ?_ ?_ ?_
      · intro request answers
        exact mirrors.gathersFollow answers count allowance
      · intro request _ target _ time
        exact ih count .closed .branch 0 _
      · intro next _ less _ wide _
        exact ih less wide mode (steps + 1) next

end Engine
end FlowGraph
