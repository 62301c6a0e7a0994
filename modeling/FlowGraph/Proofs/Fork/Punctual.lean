import FlowGraph.Proofs.Fork.Deadline
import FlowGraph.Proofs.Loop.Outline
import FlowGraph.Proofs.Program.Agrees
import FlowGraph.Proofs.Program.Lives

/-!
How late a fork can be. It looks at its deadline whenever it is about to wait, and it never waits longer than one
interval. So what matters is when it has looked last, and which timeout it has known then.
-/

namespace FlowGraph

namespace Program
variable {W R : Type}

theorem bind_assoc (program : Program W R) (first second : R → Program W R) :
    (program.bind first).bind second = program.bind fun result => (first result).bind second := by
  induction program with
  | done result => rfl
  | call effect rest ih => exact congrArg (call effect) (funext ih)
  | clock rest ih => exact congrArg Program.clock (funext ih)
  | sleep millis rest ih => exact congrArg (sleep millis) (funext ih)
  | launch names branch rest _ ih => exact congrArg (launch names branch) (funext ih)
  | receive channel interval rest ih => exact congrArg (receive channel interval) (funext ih)
  | broken panic => rfl
  | never => rfl
  | exhausted => rfl

end Program

variable {W S : Type}

abbrev TimedReport (S : Type) := Nat × BranchReport S

/-- What a fork has heard with these answers, by this time. -/
abbrev Hearing (W S : Type) := List (TimedAnswer W (Outcome S)) → (time : Nat) → List (TimedReport S) → Prop

/-- What a fork asks for after these answers. -/
abbrev Awaiting (W S : Type) := List (Answer W (Outcome S)) → Program W (Outcome S) → Prop

/-- Where the branches of a fork meet, as far as it has heard of that; before, the fork itself. -/
def joinPlace (source : NodeId) (reports : List (BranchReport S)) : NodeId :=
  match reports.head? with
  | some (_, .joined node _ _ _) => node
  | _ => source

/-- This is the timeout of the fork, and it was already when that time had passed. -/
def KnownInTime (standard : Option Span) (started : Nat) (heard : List (TimedReport S)) (timeout : Span) : Prop :=
  effectiveTimeout standard (heard.map Prod.snd) = some timeout ∧
    effectiveTimeout standard
      ((heard.filter fun report => (report.1 - started) * 1000000 ≤ timeout.toNanos).map Prod.snd) = some timeout

/-- It is not later than one interval behind the timeout, if that was known in time. -/
def Punctual (config : ExecutionConfig) (started : Nat) (heard : List (TimedReport S)) (time : Nat) : Prop :=
  ∀ timeout, KnownInTime config.joinTimeout started heard timeout →
    (time - started) * 1000000 ≤ timeout.toNanos + config.pollInterval * 1000000

theorem punctual_start (config : ExecutionConfig) (started : Nat) (heard : List (TimedReport S)) :
    Punctual config started heard started := by
  intro timeout _
  rw [Nat.sub_self, Nat.zero_mul]
  exact Nat.zero_le _

section
variable {config : ExecutionConfig} {started now time : Nat} {heard : List (TimedReport S)}

theorem within_interval {timeout : Span} {interval : Nat} (before : ¬timeout.ReachedBy (now - started))
    (inTime : time ≤ now + interval) :
    (time - started) * 1000000 ≤ timeout.toNanos + interval * 1000000 := by
  have longer : time - started ≤ now - started + interval := by omega
  have scaled := Nat.mul_le_mul_right 1000000 longer
  rw [Nat.add_mul] at scaled
  exact Nat.le_trans scaled (Nat.add_le_add_right (Nat.le_of_not_le before) _)

theorem punctual_waited
    (unexpired : ∀ timeout, effectiveTimeout config.joinTimeout (heard.map Prod.snd) = some timeout →
      ¬timeout.ReachedBy (now - started)) (inTime : time ≤ now + config.pollInterval) :
    Punctual config started heard time := by
  rintro timeout ⟨effective, _⟩
  exact within_interval (unexpired timeout effective) inTime

theorem punctual_heard
    (unexpired : ∀ timeout, effectiveTimeout config.joinTimeout (heard.map Prod.snd) = some timeout →
      ¬timeout.ReachedBy (now - started)) (inTime : time ≤ now + config.pollInterval) (report : BranchReport S) :
    Punctual config started (heard ++ [(time, report)]) time := by
  rintro timeout ⟨effective, early⟩
  cases heard with
  | cons first rest => exact within_interval (unexpired timeout effective) inTime
  | nil =>
      by_cases ahead : (time - started) * 1000000 ≤ timeout.toNanos
      · exact Nat.le_trans ahead (Nat.le_add_right _ _)
      · simp only [List.nil_append, List.filter_cons, ahead, decide_false, Bool.false_eq_true, ↓reduceIte,
          List.filter_nil, List.map_nil] at early
        exact within_interval (unexpired timeout early) inTime

end

namespace Join

/-- The join is that of a fork with this request, and it has recorded these reports. -/
structure Notes (join : Join S) (request : ForkRequest S) (standard : Option Span)
    (reports : List (BranchReport S)) : Prop extends join.Holds standard request.targets.length reports where
  source_eq : join.forkNode = request.source

variable {join : Join S} {request : ForkRequest S} {standard : Option Span} {reports : List (BranchReport S)}

theorem notes_start (request : ForkRequest S) (standard : Option Span) :
    (Join.start request.source request.targets.length standard).Notes request standard [] :=
  ⟨holds_start request.source request.targets.length standard, rfl⟩

theorem Notes.timeout_eq (notes : join.Notes request standard reports) :
    join.timeout = effectiveTimeout standard reports := by
  rcases notes.recorded with ⟨rfl, terms, _⟩ | ⟨_, _, _, _, _, _, head, terms⟩
  · simp only [Join.timeout, terms, notes.standard_eq, effectiveTimeout, List.head?_nil]
  · simp only [Join.timeout, terms, notes.standard_eq, effectiveTimeout, head]

theorem Notes.place_eq (notes : join.Notes request standard reports) :
    (join.terms.map JoinTerms.node).getD join.forkNode = joinPlace request.source reports := by
  rcases notes.recorded with ⟨rfl, terms, _⟩ | ⟨_, _, _, _, _, _, head, terms⟩
  · simp only [terms, notes.source_eq, joinPlace, List.head?_nil, Option.map_none, Option.getD_none]
  · simp only [terms, joinPlace, head, Option.map_some, Option.getD_some]

theorem Notes.expired_some (notes : join.Notes request standard reports) {elapsed : Nat} {error : Error}
    (expired : join.expired elapsed = some error) :
    ∃ timeout, effectiveTimeout standard reports = some timeout ∧ timeout.ReachedBy elapsed ∧
      error = .joinTimeout (joinPlace request.source reports) timeout := by
  simp only [Join.expired, notes.timeout_eq, notes.place_eq] at expired
  split at expired
  · cases expired
  · rename_i timeout effective
    split at expired
    · cases expired
    · rename_i reached
      cases expired
      exact ⟨timeout, effective, Nat.le_of_not_lt reached, rfl⟩

theorem Notes.expired_none (notes : join.Notes request standard reports) {elapsed : Nat}
    (expired : join.expired elapsed = none) (timeout : Span)
    (effective : effectiveTimeout standard reports = some timeout) : ¬timeout.ReachedBy elapsed := by
  simp only [Join.expired, notes.timeout_eq, effective] at expired
  split at expired
  · rename_i before
    exact Nat.not_le.mpr before
  · cases expired

theorem Notes.record (notes : join.Notes request standard reports) {branch : NodeId} {outcome : Outcome S}
    {next : Join S} (recorded : join.record branch outcome = .ok next) :
    next.Notes request standard (reports ++ [(branch, outcome)]) := by
  refine ⟨notes.toHolds.recorded_ok recorded, ?_⟩
  obtain ⟨_, _, _, _, _, _, _, rfl⟩ := record_ok recorded
  exact notes.source_eq

theorem Notes.fewer (notes : join.Notes request standard reports) (unsatisfied : join.isSatisfied = false)
    (nonempty : request.targets ≠ []) : reports.length < request.targets.length := by
  have total := List.length_pos_iff.mpr nonempty
  rcases notes.recorded with ⟨rfl, _⟩ | ⟨_, _, policy, _, _, agreed, _, _⟩
  · exact total
  · rw [Bool.eq_false_iff, ne_eq, notes.isSatisfied_iff agreed, Nat.not_le] at unsatisfied
    exact Nat.lt_of_lt_of_le unsatisfied (policy.needed_le total)

end Join

/-- These reports are joins, and the fork waits for more of them. -/
def Incomplete (request : ForkRequest S) (standard : Option Span) (reports : List (BranchReport S)) : Prop :=
  ∃ join : Join S, join.Notes request standard reports ∧ join.isSatisfied = false

theorem incomplete_start (request : ForkRequest S) (standard : Option Span) : Incomplete request standard [] :=
  ⟨_, Join.notes_start request standard, rfl⟩

/-- The branches run one after the other, each along its own transcript, and have reported at these times. Behind
each report the fork looks at the clock. -/
inductive TakesTurns (branch : Snapshot S → Program W (Outcome S)) (base : Snapshot S) :
    (now : Nat) → List NodeId → List (TimedAnswer W (Outcome S)) → (later : Nat) → List (TimedReport S) →
      Prop where
  | waiting (now : Nat) (targets : List NodeId) : TakesTurns branch base now targets [] now []
  | underWay {now later : Nat} {target : NodeId} {rest : List NodeId} {readings : Readings}
      {own : List (TimedAnswer W (Outcome S))} {reached : Program W (Outcome S)}
      (lives : Program.Lives now (branch (base.moveTo target (readings 0))) own later reached)
      (unfinished : ∀ outcome, reached ≠ .done outcome) :
      TakesTurns branch base now (target :: rest) ((now, .read readings) :: own) later []
  | reported {now later : Nat} {target : NodeId} {rest : List NodeId} {readings : Readings}
      {own : List (TimedAnswer W (Outcome S))} {outcome : Outcome S}
      (lives : Program.Lives now (branch (base.moveTo target (readings 0))) own later (.done outcome)) :
      TakesTurns branch base now (target :: rest) ((now, .read readings) :: own) later [(later, target, outcome)]
  | goesOn {now middle later : Nat} {target : NodeId} {rest : List NodeId} {readings : Readings}
      {own behind : List (TimedAnswer W (Outcome S))} {outcome : Outcome S} {reports : List (TimedReport S)}
      {world : W}
      (lives : Program.Lives now (branch (base.moveTo target (readings 0))) own middle (.done outcome))
      (others : TakesTurns branch base middle rest behind later reports) :
      TakesTurns branch base now (target :: rest)
        ((now, .read readings) :: own ++ (middle, .called middle world) :: behind) later
        ((middle, target, outcome) :: reports)

/-- A fork that has begun at this time and got these answers has taken up these reports. The first answer tells it
the time. -/
def HeardBy (branch : Snapshot S → Program W (Outcome S)) (request : ForkRequest S) (started : Nat) :
    Hearing W S := fun answers time heard =>
  match request.strategy with
  | .sequential => TakesTurns branch request.base started request.targets answers.tail time heard
  | .parallel | .conditional => heard = answers.filterMap TimedAnswer.report?

theorem heardBy_nil (branch : Snapshot S → Program W (Outcome S)) (request : ForkRequest S) (started : Nat) :
    HeardBy branch request started [] started [] := by
  unfold HeardBy
  split
  · exact .waiting started request.targets
  · rfl
  · rfl

namespace Engine

/-- What a fork has become when it is decided: it goes on with what has joined, its last report is its end, it has
waited for as long as it may, or its branches are lost. -/
inductive Decided (engine : Engine W S) (request : ForkRequest S) (next : Snapshot S → Program W (Outcome S))
    (started time : Nat) (answers : List (TimedAnswer W (Outcome S))) :
    List (BranchReport S) → Program W (Outcome S) → Prop where
  | joined {heard : List (BranchReport S)} {join : Join S}
      (notes : join.Notes request engine.config.joinTimeout heard)
      (complete : join.isSatisfied = true ∨
        request.strategy = .sequential ∧ heard.length = request.targets.length) :
      Decided engine request next started time answers heard (engine.conclude request join next)
  | ended {earlier : List (BranchReport S)} {branch : NodeId} {outcome ending : Outcome S} {join : Join S}
      (notes : join.Notes request engine.config.joinTimeout earlier)
      (refused : join.record branch outcome = .error ending) :
      Decided engine request next started time answers (earlier ++ [(branch, outcome)]) (.done ending)
  | timedOut {heard : List (BranchReport S)} {timeout : Span}
      (effective : effectiveTimeout engine.config.joinTimeout heard = some timeout)
      (reached : timeout.ReachedBy (time - started)) :
      Decided engine request next started time answers heard
        (failed (.joinTimeout (joinPlace request.source heard) timeout) request.base)
  | lost {heard : List (BranchReport S)} {join : Join S}
      (notes : join.Notes request engine.config.joinTimeout heard)
      (fewer : request.targets ≠ [] → heard.length < request.targets.length)
      (closed : (time, .delivered .closed) ∈ answers) :
      Decided engine request next started time answers heard (failed (lost request join) request.base)

theorem Decided.behind {engine : Engine W S} {request : ForkRequest S} {next : Snapshot S → Program W (Outcome S)}
    {started time : Nat} {answers : List (TimedAnswer W (Outcome S))} {heard : List (BranchReport S)}
    {program : Program W (Outcome S)} (decided : Decided engine request next started time answers heard program)
    (lead : List (TimedAnswer W (Outcome S))) :
    Decided engine request next started time (lead ++ answers) heard program := by
  cases decided with
  | joined notes complete => exact .joined notes complete
  | ended notes refused => exact .ended notes refused
  | timedOut effective reached => exact .timedOut effective reached
  | lost notes fewer closed => exact .lost notes fewer (List.mem_append_right lead closed)

def Delivered (heard : List (TimedReport S)) : Hearing W S := fun answers _ reports =>
  reports = heard ++ answers.filterMap TimedAnswer.report?

/-- What a fork has heard by now, and the reports of these targets, whose turns begin now. -/
def InTurns (branch : Snapshot S → Program W (Outcome S)) (base : Snapshot S) (now : Nat) (targets : List NodeId)
    (heard : List (TimedReport S)) : Hearing W S := fun answers time reports =>
  ∃ more, reports = heard ++ more ∧ TakesTurns branch base now targets answers time more

/-- What the loop that listens on a channel asks for after these answers. -/
def Circles (engine : Engine W S) (branch : Snapshot S → Program W (Outcome S)) (request : ForkRequest S)
    (channel : Nat) : Awaiting W S := fun answers reached =>
  ∃ rounds rest more, answers = rounds ++ rest ∧ Rounds rounds more ∧
    ∀ reports, engine.Waits branch request channel reports rest reached

/-- How a fork fares that is at `origin` now, with `k` to come behind it. After these answers it still waits, or at
one of them it was decided. If its branches report on a channel, then it is in time as long as it waits, and it was
when it was decided. As long as such a fork waits, it asks for what it has to, until it has used up its room. -/
inductive Fares (engine : Engine W S) (request : ForkRequest S) (next : Snapshot S → Program W (Outcome S))
    (k : Outcome S → Program W (Outcome S)) (started room : Nat) (hears : Hearing W S) (awaits : Awaiting W S)
    (now : Nat) (origin : Program W (Outcome S)) (later : Nat) (final : Program W (Outcome S)) :
    List (TimedAnswer W (Outcome S)) → Prop where
  | waits {answers : List (TimedAnswer W (Outcome S))} {heard : List (TimedReport S)}
      {reached : Program W (Outcome S)} (lives : Program.Lives now origin answers later reached)
      (hearing : hears answers later heard)
      (unfinished : ∀ outcome, reached ≠ .done outcome) (same : final = reached.bind k)
      (listens : request.strategy ≠ .sequential →
        awaits (answers.map Prod.snd) reached ∧ Incomplete request engine.config.joinTimeout (heard.map Prod.snd) ∨
          room ≤ answers.length ∧ reached = .exhausted)
      (inTime : request.strategy ≠ .sequential → Punctual engine.config started heard (final.due later)) :
      Fares engine request next k started room hears awaits now origin later final answers
  | decided {answers rest : List (TimedAnswer W (Outcome S))} {time : Nat} {heard : List (TimedReport S)}
      {program : Program W (Outcome S)} (lives : Program.Lives now origin answers time program)
      (hearing : hears answers time heard)
      (decided : Decided engine request next started time answers (heard.map Prod.snd) program)
      (onward : Program.Lives time (program.bind k) rest later final)
      (inTime : request.strategy ≠ .sequential → Punctual engine.config started heard time) :
      Fares engine request next k started room hears awaits now origin later final (answers ++ rest)

section
variable {engine : Engine W S} {request : ForkRequest S} {next : Snapshot S → Program W (Outcome S)}
  {k : Outcome S → Program W (Outcome S)} {started room now later : Nat} {final : Program W (Outcome S)}
  {history : List (TimedAnswer W (Outcome S))}

section
variable {less before : Nat} {hears more : Hearing W S} {awaits longer : Awaiting W S}
  {first origin : Program W (Outcome S)}

theorem Fares.here {heard : List (TimedReport S)} (asks : origin.Asks) (hearing : hears [] now heard)
    (listens : request.strategy ≠ .sequential →
      awaits [] origin ∧ Incomplete request engine.config.joinTimeout (heard.map Prod.snd) ∧
        Punctual engine.config started heard ((origin.bind k).due now)) :
    Fares engine request next k started room hears awaits now origin now (origin.bind k) [] :=
  .waits (.still now origin) hearing (Program.ne_done_of_asks asks) rfl
    (fun channelled => .inl ⟨(listens channelled).1, (listens channelled).2.1⟩)
    fun channelled => (listens channelled).2.2

theorem Fares.behind {lead : List (TimedAnswer W (Outcome S))}
    (fares : Fares engine request next k started less hears awaits now origin later final history)
    (leads : Program.Lives before first lead now origin)
    (implies : ∀ answers time heard, hears answers time heard → more (lead ++ answers) time heard)
    (follows : request.strategy ≠ .sequential → ∀ answers reached, awaits answers reached →
      longer (lead.map Prod.snd ++ answers) reached)
    (enough : room ≤ less + lead.length) :
    Fares engine request next k started room more longer before first later final (lead ++ history) := by
  cases fares with
  | waits lives hearing unfinished same listens inTime =>
      refine .waits (leads.append lives) (implies _ _ _ hearing) unfinished same (fun channelled => ?_) inTime
      rw [List.map_append, List.length_append]
      rcases listens channelled with ⟨awaiting, incomplete⟩ | ⟨spent, exhausted⟩
      · exact .inl ⟨follows channelled _ _ awaiting, incomplete⟩
      · exact .inr ⟨by omega, exhausted⟩
  | @decided answers rest _ _ _ lives hearing decided onward inTime =>
      rw [← List.append_assoc]
      exact .decided (leads.append lives) (implies _ _ _ hearing) (decided.behind lead) onward inTime

theorem Fares.answered {answer : TimedAnswer W (Outcome S)}
    (fares : Fares engine request next k started less hears awaits now origin later final history)
    (leads : Program.Lives before first [answer] now origin)
    (implies : ∀ answers time heard, hears answers time heard → more (answer :: answers) time heard)
    (follows : request.strategy ≠ .sequential → ∀ answers reached, awaits answers reached →
      longer (answer.2 :: answers) reached)
    (enough : room ≤ less + 1) :
    Fares engine request next k started room more longer before first later final (answer :: history) :=
  fares.behind leads implies follows enough

end

section
variable {branch : Snapshot S → Program W (Outcome S)} {channel : Nat} {world : W}
  {answers : List (Answer W (Outcome S))}
  {reached : Program W (Outcome S)}

theorem Circles.quiet (circles : Circles engine branch request channel answers reached) :
    Circles engine branch request channel (.called now world :: .delivered .quiet :: answers) reached := by
  obtain ⟨rounds, rest, more, rfl, heard, waits⟩ := circles
  exact ⟨_, rest, more, rfl, heard.quiet, waits⟩

theorem Circles.report (name : NodeId) (outcome : Outcome S)
    (circles : Circles engine branch request channel answers reached) :
    Circles engine branch request channel (.called now world :: .delivered (.report name outcome) :: answers)
      reached := by
  obtain ⟨rounds, rest, more, rfl, heard, waits⟩ := circles
  exact ⟨_, rest, _, rfl, heard.report, waits⟩

theorem Circles.awaits (circles : Circles engine branch request channel answers reached)
    (channelled : request.strategy ≠ .sequential) {readings : Readings} {calls : List (Nat × W)}
    (all : calls.length = request.targets.length) :
    engine.Awaits branch request
      (.called started world :: .read readings :: (submissions calls ++ .launched channel :: answers)) reached := by
  obtain ⟨rounds, rest, more, rfl, heard, waits⟩ := circles
  have hears : Heard branch request channel (.read readings :: (submissions calls ++ .launched channel :: rounds))
      more := heard_rounds channelled all heard
  have awaits : engine.Awaits branch request (.called started world :: (_ ++ rest)) reached :=
    .goesRound hears (waits more)
  rwa [List.cons_append, List.append_assoc, List.cons_append] at awaits

end

def GathersWell (engine : Engine W S) (branch : Snapshot S → Program W (Outcome S)) (request : ForkRequest S)
    (next : Snapshot S → Program W (Outcome S)) (k : Outcome S → Program W (Outcome S))
    (started channel later : Nat) (final : Program W (Outcome S)) (room : Nat) : Prop :=
  ∀ (join : Join S) (now : Nat) (heard : List (TimedReport S)) (history : List (TimedAnswer W (Outcome S))),
    join.Notes request engine.config.joinTimeout (heard.map Prod.snd) → Punctual engine.config started heard now →
    Program.Lives now ((engine.gather request started channel (engine.conclude request · next) room join).bind k)
      history later final →
    Fares engine request next k started room (Delivered heard) (Circles engine branch request channel) now
      (engine.gather request started channel (engine.conclude request · next) room join) later final history

section
variable {branch : Snapshot S → Program W (Outcome S)}

theorem heard_fares {channel time : Nat} {join : Join S} {heard : List (TimedReport S)} {world : W}
    {delivery : Delivery (Outcome S)}
    (again : GathersWell engine branch request next k started channel later final room)
    (notes : join.Notes request engine.config.joinTimeout (heard.map Prod.snd))
    (unsatisfied : join.isSatisfied = false) (unexpired : join.expired (now - started) = none)
    (after : now ≤ time) (inTime : time ≤ now + engine.config.pollInterval)
    (lives : Program.Lives time
      ((Engine.heard request join
        (engine.gather request started channel (engine.conclude request · next) room) delivery).bind k) history
      later final) :
    Fares engine request next k started room (Delivered heard)
      (fun answers => Circles engine branch request channel (.called now world :: answers)) now
      (.receive channel engine.config.pollInterval (Engine.heard request join
        (engine.gather request started channel (engine.conclude request · next) room))) later final
      ((time, .delivered delivery) :: history) := by
  have punctual := punctual_waited (notes.expired_none unexpired) inTime
  cases delivery with
  | report name outcome =>
      have inReach := punctual_heard (notes.expired_none unexpired) inTime (name, outcome)
      have regroup (answers : List (TimedAnswer W (Outcome S))) (later : Nat) (reports : List (TimedReport S))
          (delivered : Delivered (heard ++ [(time, name, outcome)]) answers later reports) :
          Delivered heard ((time, .delivered (.report name outcome)) :: answers) later reports := by
        unfold Delivered at delivered
        rwa [List.append_assoc] at delivered
      have onward (_ : request.strategy ≠ .sequential) (answers : List (Answer W (Outcome S)))
          (reached : Program W (Outcome S)) (circles : Circles engine branch request channel answers reached) :
          Circles engine branch request channel
            (.called now world :: .delivered (.report name outcome) :: answers) reached :=
        circles.report name outcome
      refine Fares.answered ?_ (.receive after inTime (.still time _)) regroup onward (Nat.le_succ room)
      cases recorded : join.record name outcome with
      | error ending =>
          rw [heard_refused recorded] at lives ⊢
          refine .decided (.still time _) (List.append_nil _).symm ?_ lives fun _ => inReach
          rw [List.map_append]
          exact .ended notes recorded
      | ok held =>
          rw [heard_recorded recorded] at lives ⊢
          refine again _ _ _ _ ?_ inReach lives
          rw [List.map_append]
          exact notes.record recorded
  | closed =>
      rw [← List.singleton_append]
      exact .decided (.receive after inTime (.still time _)) (List.append_nil heard).symm
        (.lost notes (notes.fewer unsatisfied) List.mem_cons_self) lives fun _ => punctual
  | quiet =>
      exact Fares.answered (again _ _ _ _ notes punctual lives) (.receive after inTime (.still time _))
        (fun _ _ _ same => same) (fun _ _ _ circles => circles.quiet) (Nat.le_succ room)

theorem gather_fares (timers : engine.timers = none) (channel room : Nat) :
    GathersWell engine branch request next k started channel later final room := by
  induction room with
  | zero =>
      intro join now heard history notes punctual lives
      have unfinished : ∀ outcome, Program.exhausted (W := W) ≠ .done outcome := fun (_ : Outcome S) => nofun
      rw [gather] at lives ⊢
      cases lives with
      | still =>
          exact .waits (.still _ _) (List.append_nil heard).symm unfinished rfl
            (fun _ => .inr ⟨Nat.zero_le _, rfl⟩) fun _ => punctual
  | succ room ih =>
      intro join now heard history notes punctual lives
      have nothing : Delivered heard ([] : List (TimedAnswer W (Outcome S))) now heard :=
        (List.append_nil heard).symm
      by_cases satisfied : join.isSatisfied = true
      · rw [gather_satisfied satisfied] at lives ⊢
        exact .decided (.still now _) nothing (.joined notes (.inl satisfied)) lives fun _ => punctual
      have unsatisfied := Bool.eq_false_iff.mpr satisfied
      have incomplete : Incomplete request engine.config.joinTimeout (heard.map Prod.snd) :=
        ⟨join, notes, unsatisfied⟩
      rw [gather_waiting timers request started channel _ room unsatisfied] at lives ⊢
      cases lives with
      | still =>
          refine .here trivial nothing fun channelled => ⟨?_, incomplete, punctual⟩
          exact ⟨[], [], [], rfl, .start, fun _ => .looks channelled _⟩
      | @call _ _ _ _ _ world _ _ looked =>
          refine Fares.answered ?_ (.call (.still now _)) (fun _ _ _ same => same)
            (fun _ _ _ circles => circles) (Nat.le_refl (room + 1))
          cases expired : join.expired (now - started) with
          | some error =>
              simp only [listening_expired expired] at looked ⊢
              obtain ⟨timeout, effective, reached, rfl⟩ := notes.expired_some expired
              exact .decided (.still now _) nothing (.timedOut effective reached) looked fun _ => punctual
          | none =>
              simp only [listening_unexpired expired] at looked ⊢
              cases looked with
              | still =>
                  have inTime := punctual_waited (notes.expired_none expired) (Nat.le_refl _)
                  refine .here trivial nothing fun channelled => ⟨?_, incomplete, inTime⟩
                  exact ⟨[], _, [], rfl, .start, fun _ => .listens channelled _⟩
              | receive after inTime onward => exact heard_fares ih notes unsatisfied expired after inTime onward

end

def RunsWell (engine : Engine W S) (branch : Snapshot S → Program W (Outcome S)) (request : ForkRequest S)
    (next : Snapshot S → Program W (Outcome S)) (k : Outcome S → Program W (Outcome S)) (started room : Nat)
    (awaits : Awaiting W S) (later : Nat) (final : Program W (Outcome S)) (targets : List NodeId) : Prop :=
  ∀ (join : Join S) (now : Nat) (heard : List (TimedReport S)) (history : List (TimedAnswer W (Outcome S))),
    join.Notes request engine.config.joinTimeout (heard.map Prod.snd) →
    heard.length + targets.length = request.targets.length →
    Program.Lives now ((inSequence branch request started (engine.conclude request · next) join targets).bind k)
      history later final →
    Fares engine request next k started room (InTurns branch request.base now targets heard) awaits now
      (inSequence branch request started (engine.conclude request · next) join targets) later final history

section
variable {branch : Snapshot S → Program W (Outcome S)} {target : NodeId} {rest : List NodeId} {awaits : Awaiting W S}

theorem recorded_fares {middle : Nat} {held : Join S} {heard : List (TimedReport S)} {readings : Readings}
    {own behind : List (TimedAnswer W (Outcome S))} {outcome : Outcome S} {origin : Program W (Outcome S)}
    (sequential : request.strategy = .sequential)
    (again : RunsWell engine branch request next k started room awaits later final rest)
    (noted : held.Notes request engine.config.joinTimeout ((heard ++ [(middle, target, outcome)]).map Prod.snd))
    (others : (heard ++ [(middle, target, outcome)]).length + rest.length = request.targets.length)
    (ran : Program.Lives now (branch (request.base.moveTo target (readings 0))) own middle (.done outcome))
    (came : Program.Lives now origin ((now, .read readings) :: own) middle
      (.time (lookingInTurn branch request started (engine.conclude request · next) held rest)))
    (onward : Program.Lives middle
      ((Program.time (lookingInTurn branch request started (engine.conclude request · next) held rest)).bind k)
      behind later final) :
    Fares engine request next k started room (InTurns branch request.base now (target :: rest) heard) awaits now
      origin later final ((now, .read readings) :: own ++ behind) := by
  have noChannel {P : Prop} (channelled : request.strategy ≠ .sequential) : P := absurd sequential channelled
  cases onward with
  | still =>
      rw [List.append_nil]
      exact .waits came ⟨_, rfl, .reported ran⟩ (Program.ne_done_of_asks trivial) rfl noChannel noChannel
  | @call _ _ _ _ _ world behind _ looked =>
      have looks : Program.Lives now _ (((now, .read readings) :: own) ++ [(middle, .called middle world)])
          middle _ := came.append (.call (.still middle _))
      rw [List.append_cons]
      cases expired : held.expired (middle - started) with
      | some error =>
          simp only [lookingInTurn_expired expired] at looks looked
          obtain ⟨timeout, effective, reached, rfl⟩ := noted.expired_some expired
          exact .decided looks ⟨_, rfl, .goesOn ran (.waiting middle rest)⟩ (.timedOut effective reached) looked
            noChannel
      | none =>
          simp only [lookingInTurn_unexpired expired] at looks looked
          refine (again _ _ _ _ noted others looked).behind looks ?_ noChannel (Nat.le_add_right room _)
          rintro answers time reports ⟨more, rfl, turns⟩
          refine ⟨(middle, target, outcome) :: more, List.append_assoc _ _ _, ?_⟩
          rw [← List.append_cons]
          exact .goesOn ran turns

end

theorem inSequence_fares (sequential : request.strategy = .sequential)
    (branch : Snapshot S → Program W (Outcome S)) (room : Nat) (awaits : Awaiting W S) (targets : List NodeId) :
    RunsWell engine branch request next k started room awaits later final targets := by
  have noChannel {P : Prop} (channelled : request.strategy ≠ .sequential) : P := absurd sequential channelled
  induction targets with
  | nil =>
      intro join now heard history notes all lives
      rw [inSequence] at lives ⊢
      refine .decided (.still now _) ⟨[], (List.append_nil heard).symm, .waiting now []⟩
        (.joined notes (.inr ⟨sequential, ?_⟩)) lives noChannel
      rwa [List.length_map]
  | cons target rest ih =>
      intro join now heard history notes all lives
      have nothing : InTurns branch request.base now (target :: rest) heard [] now heard :=
        ⟨[], (List.append_nil heard).symm, .waiting now _⟩
      by_cases satisfied : join.isSatisfied = true
      · rw [inSequence, if_pos satisfied] at lives ⊢
        exact .decided (.still now _) nothing (.joined notes (.inl satisfied)) lives noChannel
      rw [inSequence_runs (Bool.eq_false_iff.mpr satisfied)] at lives ⊢
      cases lives with
      | still => exact .here trivial nothing noChannel
      | @clock _ _ _ readings _ _ running =>
          simp only [Program.bind_assoc] at running
          cases Program.lives_bind _ running with
          | underWay ran unfinished same =>
              subst same
              exact .waits (.clock (ran.bind _)) ⟨[], (List.append_nil heard).symm, .underWay ran unfinished⟩
                (bind_ne_done unfinished) (Program.bind_assoc _ _ _).symm noChannel noChannel
          | @ended own behind middle outcome ran onward =>
              have came : Program.Lives now
                  (.clock fun readings => (branch (request.base.moveTo target (readings 0))).bind
                    (heardInTurn branch request started (engine.conclude request · next) join target rest))
                  ((now, .read readings) :: own) middle (heardInTurn branch request started
                    (engine.conclude request · next) join target rest outcome) := .clock (ran.bind _)
              cases recorded : join.record target outcome with
              | error ending =>
                  rw [heardInTurn_refused recorded] at came onward
                  rw [← List.cons_append]
                  refine .decided came ⟨[(middle, target, outcome)], rfl, .reported ran⟩ ?_ onward noChannel
                  rw [List.map_append]
                  exact .ended notes recorded
              | ok held =>
                  rw [heardInTurn_recorded recorded] at came onward
                  refine recorded_fares sequential ih ?_ ?_ ran came onward
                  · rw [List.map_append]
                    exact notes.record recorded
                  · rw [List.length_append, List.length_singleton, ← all, List.length_cons]
                    omega

theorem fares_started {origin : Program W (Outcome S)} {hears : Hearing W S} {awaits : Awaiting W S}
    (asks : origin.Asks) (hearing : hears [] started []) (awaiting : awaits [] origin)
    (atOnce : (origin.bind k).due started = started) :
    Fares engine request next k started room hears awaits started origin started (origin.bind k) [] := by
  refine .here asks hearing fun _ => ⟨awaiting, incomplete_start request _, ?_⟩
  rw [atOnce]
  exact punctual_start engine.config started []

def submitted (now : Nat) (worlds : List W) : List (TimedAnswer W (Outcome S)) :=
  worlds.map fun world => (now, .called now world)

theorem submitted_snd (now : Nat) (worlds : List W) :
    (submitted (S := S) now worlds).map Prod.snd = submissions (worlds.map (now, ·)) := by
  simp only [submitted, submissions, List.map_map]
  rfl

theorem submitted_reports (now : Nat) (worlds : List W) :
    (submitted (S := S) now worlds).filterMap TimedAnswer.report? = [] := by
  rw [submitted, List.filterMap_map]
  exact List.filterMap_eq_nil_iff.mpr fun world _ => rfl

theorem submit_lives (targets : List NodeId) : ∀ {goOn : List NodeId → Program W (Outcome S)}
    {history : List (TimedAnswer W (Outcome S))},
    Program.Lives now ((engine.submit goOn targets).bind k) history later final →
      (∃ worlds rest, history = submitted now worlds ++ rest ∧ worlds.length = targets.length ∧
        Program.Lives now (engine.submit goOn targets) (submitted now worlds) now
          (goOn (engine.taken targets (worlds.map (now, ·)))) ∧
        Program.Lives now ((goOn (engine.taken targets (worlds.map (now, ·)))).bind k) rest later final) ∨
      ∃ worlds onward, history = submitted now worlds ∧ worlds.length < targets.length ∧ later = now ∧
        Program.Lives now (engine.submit goOn targets) history now (.call engine.executor onward) ∧
        final = (Program.call engine.executor onward).bind k := by
  induction targets with
  | nil =>
      intro goOn history lives
      exact .inl ⟨[], history, rfl, rfl, .still now _, lives⟩
  | cons target rest ih =>
      intro goOn history lives
      cases lives with
      | still => exact .inr ⟨[], _, rfl, Nat.succ_pos _, rfl, .still now _, rfl⟩
      | @call _ _ _ _ _ world _ _ onward =>
          rcases ih onward with ⟨worlds, behind, rfl, all, calls, goesOn⟩ | ⟨worlds, _, rfl, fewer, rfl, calls, rfl⟩
          · refine .inl ⟨world :: worlds, behind, rfl, congrArg Nat.succ all, ?_⟩
            rw [List.map_cons, taken_cons]
            exact ⟨.call calls, goesOn⟩
          · exact .inr ⟨world :: worlds, _, rfl, Nat.succ_lt_succ fewer, rfl, .call calls, rfl⟩

section
variable {branch : Snapshot S → Program W (Outcome S)} {world : W} {readings : Readings}

/-- What a fork awaits that has begun in this world and got this reading, and these answers to its submissions. -/
def AwaitsLater (engine : Engine W S) (branch : Snapshot S → Program W (Outcome S)) (request : ForkRequest S)
    (started : Nat) (world : W) (readings : Readings) (calls : List (Nat × W)) : Awaiting W S := fun answers =>
  engine.Awaits branch request (.called started world :: .read readings :: (submissions calls ++ answers))

theorem launch_fares (timers : engine.timers = none) (channelled : request.strategy ≠ .sequential) (world : W)
    {calls : List (Nat × W)} (all : calls.length = request.targets.length)
    (lives : Program.Lives started ((Program.launch (engine.taken request.targets calls)
      (fun place target => branch (request.base.moveTo target (readings place)))
        fun channel => engine.gather request started channel (engine.conclude request · next) room
          (Join.start request.source request.targets.length engine.config.joinTimeout)).bind k) history
          later final) :
    Fares engine request next k started room (Delivered [])
      (AwaitsLater engine branch request started world readings calls) started
      (.launch (engine.taken request.targets calls)
        (fun place target => branch (request.base.moveTo target (readings place)))
          fun channel => engine.gather request started channel (engine.conclude request · next) room
            (Join.start request.source request.targets.length engine.config.joinTimeout)) later final history := by
  cases lives with
  | still =>
      refine fares_started trivial rfl (.opens ?_) rfl
      rw [List.append_nil]
      exact .launches all _
  | launch gathering =>
      have gathered : Fares engine request next k started room _ (Circles engine branch request _) _ _ _ _ _ :=
        gather_fares timers _ room _ _ _ _ (Join.notes_start request engine.config.joinTimeout)
          (punctual_start engine.config started []) gathering
      exact gathered.answered (.launch (.still started _)) (fun _ _ _ same => same)
        (fun _ _ _ circles => circles.awaits channelled all) (Nat.le_succ room)

theorem startBranches_fares (timers : engine.timers = none) (channelled : request.strategy ≠ .sequential)
    (lives : Program.Lives started ((engine.startBranches branch room request next started).bind k) history later
      final) :
    Fares engine request next k started room (Delivered [])
      (fun answers => engine.Awaits branch request (.called started world :: answers)) started
      (engine.startBranches branch room request next started) later final history := by
  cases lives with
  | still => exact fares_started trivial rfl (.opens (.reads _)) rfl
  | @clock _ _ _ readings _ _ submitting =>
      rcases submit_lives request.targets submitting with
        ⟨worlds, rest, rfl, all, calls, launching⟩ | ⟨worlds, onward, rfl, fewer, rfl, calls, rfl⟩
      · have counted : (worlds.map (started, ·)).length = request.targets.length := by rw [List.length_map, all]
        have launched := launch_fares timers channelled world counted launching
        rw [← List.cons_append]
        refine launched.behind (.clock calls) (fun answers time heard same => ?_)
          (fun _ answers reached awaits => ?_)
          (Nat.le_add_right room _)
        · rw [Delivered, List.cons_append, List.filterMap_cons_none rfl, List.filterMap_append, submitted_reports]
          exact same
        · rw [List.map_cons, submitted_snd]
          exact awaits
      · have leads : Program.Lives _ (engine.startBranches branch room request next _)
            ((_, .read readings) :: submitted _ worlds) _ (.call engine.executor onward) := .clock calls
        refine .waits leads ?_ (Program.ne_done_of_asks trivial) rfl
          (fun _ => .inl ⟨?_, incomplete_start request _⟩) fun _ => punctual_start engine.config _ []
        · rw [Delivered, List.filterMap_cons_none rfl, submitted_reports, List.append_nil]
        · rw [List.map_cons, submitted_snd]
          exact .opens (.submits (by rwa [List.length_map]) _)

end

theorem fork_fares (timers : engine.timers = none) (branch : Snapshot S → Program W (Outcome S)) (room : Nat)
    (lives : Program.Lives started ((engine.fork branch room request next).bind k) history later final) :
    Fares engine request next k started room (HeardBy branch request started) (engine.Awaits branch request)
      started (engine.fork branch room request next) later final history := by
  have start : (Join.start request.source request.targets.length engine.config.joinTimeout).Notes request
      engine.config.joinTimeout (([] : List (TimedReport S)).map Prod.snd) := Join.notes_start request _
  have nothing := heardBy_nil (W := W) branch request started
  by_cases sequential : request.strategy = .sequential
  · have noChannel {P : Prop} (channelled : request.strategy ≠ .sequential) : P := absurd sequential channelled
    rw [fork_inSequence sequential] at lives ⊢
    cases lives with
    | still => exact fares_started trivial nothing (.begins _) rfl
    | call running =>
        have turns := inSequence_fares sequential branch room (engine.Awaits branch request)
          request.targets _ started
          [] _ start (Nat.zero_add _) running
        refine turns.answered (.call (.still started _)) ?_ noChannel (Nat.le_succ room)
        rintro answers time heard ⟨more, rfl, turns⟩
        unfold HeardBy
        rw [sequential]
        exact turns
  · rw [fork_startBranches sequential] at lives ⊢
    cases lives with
    | still => exact fares_started trivial nothing (.begins _) rfl
    | call running =>
        refine Fares.answered (startBranches_fares timers sequential running) (.call (.still started _)) ?_
          (fun _ _ _ awaits => awaits) (Nat.le_succ room)
        intro answers time heard same
        unfold HeardBy
        split
        · contradiction
        · exact same
        · exact same

end

end Engine

end FlowGraph
