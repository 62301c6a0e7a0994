import FlowGraph.Proofs.Fork
import FlowGraph.Workflow.Blueprint

/-!
The deadline of a fork. It is set by the first join, or else by the configuration. A sequence of branches looks
at the clock behind every report; a fork that listens on a channel looks before it waits for the next one, and
not at all once its policy is satisfied.
-/

namespace FlowGraph

def Span.ReachedBy (timeout : Span) (elapsed : Nat) : Prop := timeout.toNanos ≤ elapsed * 1000000

namespace Program
variable {W R : Type}

theorem answer_program {ledger other later another : Ledger} {program next found : Program W R}
    {first : Answer W R} (taken : program.answer ledger first = some (later, next))
    (too : program.answer other first = some (another, found)) : found = next := by
  cases program with
  | done result => cases taken
  | broken panic => cases taken
  | never => cases taken
  | exhausted => cases taken
  | call effect rest => cases first <;> cases taken; cases too; rfl
  | clock rest => cases first <;> cases taken; cases too; rfl
  | sleep millis rest => cases first <;> cases taken; cases too; rfl
  | launch names branch rest => cases first <;> cases taken; cases too; rfl
  | receive channel interval rest =>
      rcases first with _ | _ | _ | _ | ⟨branch, result⟩ | _ | _
      case delivered.report =>
        simp only [answer, Option.ite_none_right_eq_some, Option.some.injEq, Prod.mk.injEq] at taken too
        rw [← taken.2.2, ← too.2.2]
      all_goals cases taken <;> cases too <;> rfl

theorem after_bind_done {next : R → Program W R} {result : R} {tail : List (Answer W R)}
    {reached : Ledger × Program W R} (own : List (Answer W R)) :
    ∀ {other known ledger : Ledger} {program : Program W R},
      program.after other own = some (known, .done result) →
      (program.bind next).after ledger (own ++ tail) = some reached →
      ∃ later, (next result).after later tail = some reached := by
  induction own with
  | nil =>
      intro other known ledger program ends followed
      cases ends
      exact ⟨ledger, followed⟩
  | cons first rest ih =>
      intro other known ledger program ends followed
      obtain ⟨_, there, taken, onward⟩ := after_cons_eq_some ends
      obtain ⟨_, here, bound, behind⟩ := after_cons_eq_some followed
      rcases asks_of_answer_bind bound with asks | ⟨early, rfl⟩
      · rw [answer_bind ledger program next first asks] at bound
        obtain ⟨⟨_, inner⟩, own, same⟩ := Option.map_eq_some_iff.mp bound
        cases same
        rw [answer_program taken own] at behind
        exact ih onward behind
      · cases taken

end Program

section
variable {W S : Type}

/-- The timeout of a fork that has heard these reports: that of the first join, or else the standard one. -/
def effectiveTimeout (standard : Option Span) (reports : List (BranchReport S)) : Option Span :=
  match reports.head? with
  | some (_, .joined _ _ timeout _) => timeout <|> standard
  | _ => standard

/-- With the last of these answers the last of the targets so far has ended, in its turn. -/
inductive EndsInTurn (branch : Snapshot S → Program W (Outcome S)) (base : Snapshot S) :
    List NodeId → List (Answer W (Outcome S)) → List (BranchReport S) → Prop where
  | first {target : NodeId} {rest : List NodeId} {readings : Readings}
      {own : List (Answer W (Outcome S))} {ledger last : Ledger} {outcome : Outcome S}
      (runs : (branch (base.moveTo target (readings 0))).after ledger own = some (last, .done outcome)) :
      EndsInTurn branch base (target :: rest) (.read readings :: own) [(target, outcome)]
  | later {target : NodeId} {rest : List NodeId} {readings : Readings}
      {own behind : List (Answer W (Outcome S))} {ledger last : Ledger} {outcome : Outcome S}
      {reports : List (BranchReport S)} {now : Nat} {world : W}
      (runs : (branch (base.moveTo target (readings 0))).after ledger own = some (last, .done outcome))
      (others : EndsInTurn branch base rest behind reports) :
      EndsInTurn branch base (target :: rest) (.read readings :: own ++ .called now world :: behind)
        ((target, outcome) :: reports)

/-- With the last of these answers to a fork, the last of these reports has come in. -/
def JustHeard (branch : Snapshot S → Program W (Outcome S)) (request : ForkRequest S)
    (answers : List (Answer W (Outcome S))) (reports : List (BranchReport S)) : Prop :=
  match request.strategy with
  | .sequential => EndsInTurn branch request.base request.targets answers reports
  | .parallel | .conditional =>
    ∃ before name outcome, answers = before ++ [.delivered (.report name outcome)] ∧
      .delivered .closed ∉ before ∧ reports = answers.filterMap Answer.report?

theorem JustHeard.delivered {branch : Snapshot S → Program W (Outcome S)} {request : ForkRequest S}
    {heard : List (Answer W (Outcome S))} {reports : List (BranchReport S)}
    (justHeard : JustHeard branch request heard reports) (channelled : request.strategy ≠ .sequential) :
    ∃ before name outcome, heard = before ++ [.delivered (.report name outcome)] ∧
      .delivered .closed ∉ before ∧ reports = heard.filterMap Answer.report? := by
  unfold JustHeard at justHeard
  split at justHeard
  · rename_i inOrder
    exact absurd inOrder channelled
  · exact justHeard
  · exact justHeard

namespace Join

variable {join : Join S} {standard : Option Span} {total : Nat} {reports : List (BranchReport S)}
  {node : NodeId} {policy : WaitPolicy} {joined : List (JoinedBranch S)}

theorem Holds.expired (holds : join.Holds standard total reports)
    (agreed : Agreed node policy reports joined) {timeout : Span}
    (effective : effectiveTimeout standard reports = some timeout) {elapsed : Nat}
    (late : timeout.ReachedBy elapsed) : join.expired elapsed = some (.joinTimeout node timeout) := by
  obtain ⟨_, _, _, head, terms, _⟩ := holds.terms agreed
  simp only [effectiveTimeout, head] at effective
  have own : join.timeout = some timeout := by
    simp only [Join.timeout, terms, holds.standard_eq, effective]
  have reached : ¬elapsed * 1000000 < timeout.toNanos := Nat.not_lt.mpr late
  simp only [Join.expired, own, if_neg reached, terms, Option.map_some, Option.getD_some]

theorem Holds.record (holds : join.Holds standard total reports) {branch : NodeId} {outcome : Outcome S}
    (agreed : Agreed node policy (reports ++ [(branch, outcome)]) joined) :
    ∃ next, join.record branch outcome = .ok next ∧
      next.Holds standard total (reports ++ [(branch, outcome)]) := by
  obtain ⟨otherPolicy, timeout, snapshot, rfl⟩ := agreed.isJoin (branch, outcome) (by simp)
  suffices recorded : ∃ next, join.record branch (.joined node otherPolicy timeout snapshot) = .ok next by
    obtain ⟨next, recorded⟩ := recorded
    exact ⟨next, recorded, holds.recorded_ok recorded⟩
  rcases holds.recorded with ⟨rfl, terms, _⟩ | ⟨_, _, _, _, _, own, _, terms⟩
  · simp only [Join.record, terms, Except.ok.injEq, exists_eq']
  · obtain ⟨others, before⟩ := agreed.earlier own.ne_nil
    obtain ⟨rfl, rfl⟩ := before.unique own
    simp only [Join.record, terms, ↓reduceIte, Except.ok.injEq, exists_eq']

theorem Holds.unsatisfied (holds : join.Holds standard total reports) {more : List (BranchReport S)}
    (agreed : Agreed node policy (reports ++ more) joined) (nonempty : more ≠ [])
    (atMost : (reports ++ more).length ≤ policy.needed total) : join.isSatisfied = false := by
  rcases holds.recorded with ⟨_, terms, _⟩ | ⟨_, _, _, _, _, own, _, _⟩
  · simp only [isSatisfied, terms]
  · obtain ⟨others, before⟩ := agreed.earlier own.ne_nil
    rw [Bool.eq_false_iff, ne_eq, holds.isSatisfied_iff before]
    have := List.length_pos_iff.mpr nonempty
    rw [List.length_append] at atMost
    omega

end Join

namespace Engine
variable {engine : Engine W S} {request : ForkRequest S} {next : Snapshot S → Program W (Outcome S)}
  {node : NodeId} {policy : WaitPolicy} {joined : List (JoinedBranch S)}

theorem inSequence_looks (branch : Snapshot S → Program W (Outcome S)) (started : Nat) {total : Nat}
    {standard : Option Span} {next : Join S → Program W (Outcome S)} {targets : List NodeId}
    {heard : List (Answer W (Outcome S))} {more : List (BranchReport S)}
    (ends : EndsInTurn branch request.base targets heard more) :
    ∀ {join : Join S} {reports : List (BranchReport S)} {ledger last : Ledger}
      {tail : List (Answer W (Outcome S))} {program : Program W (Outcome S)},
      join.Holds standard total reports → Agreed node policy (reports ++ more) joined →
      (reports ++ more).length ≤ policy.needed total →
      (inSequence branch request started next join targets).after ledger (heard ++ tail) =
        some (last, program) →
      ∃ later rest held, held.Holds standard total (reports ++ more) ∧
        (Program.time (lookingInTurn branch request started next held rest)).after later tail =
          some (last, program) := by
  induction ends with
  | @first target rest readings own _ _ outcome runs =>
      intro join reports ledger last tail program holds agreed atMost followed
      rw [inSequence_runs (holds.unsatisfied agreed (by simp) atMost)] at followed
      obtain ⟨_, same, running⟩ := Program.after_clock followed
      cases same
      obtain ⟨later, recording⟩ := Program.after_bind_done own runs running
      obtain ⟨held, recorded, holds⟩ := holds.record agreed
      rw [heardInTurn_recorded recorded] at recording
      exact ⟨later, rest, held, holds, recording⟩
  | @later target rest readings own behind _ _ outcome others now world runs ends ih =>
      intro join reports ledger last tail program holds agreed atMost followed
      rw [inSequence_runs (holds.unsatisfied agreed (by simp) atMost)] at followed
      rw [List.cons_append, List.cons_append, List.append_assoc] at followed
      obtain ⟨_, same, running⟩ := Program.after_clock followed
      cases same
      obtain ⟨later, recording⟩ := Program.after_bind_done own runs running
      rw [← List.singleton_append, ← List.append_assoc] at agreed atMost
      obtain ⟨_, before⟩ := agreed.earlier (by simp)
      obtain ⟨held, recorded, holds⟩ := holds.record before
      rw [heardInTurn_recorded recorded] at recording
      obtain ⟨_, _, same, looked⟩ := Program.after_call recording
      cases same
      cases expired : held.expired (now - started) with
      | some error =>
          rw [lookingInTurn_expired expired] at looked
          obtain ⟨closed, _⟩ := Program.after_done looked
          cases ends <;> cases closed
      | none =>
          rw [lookingInTurn_unexpired expired] at looked
          have onward := ih holds agreed atMost looked
          rwa [← List.singleton_append, ← List.append_assoc]

/-- The loop takes up all the reports of these answers, of which this one is the last. -/
def GathersUpTo (engine : Engine W S) (request : ForkRequest S) (started channel total : Nat)
    (standard : Option Span) (next : Join S → Program W (Outcome S)) (node : NodeId) (policy : WaitPolicy)
    (joined : List (JoinedBranch S)) (report : BranchReport S) (tail : List (Answer W (Outcome S))) (last : Ledger)
    (program : Program W (Outcome S)) (allowance : Nat) : Prop :=
  ∀ (join : Join S) (reports more : List (BranchReport S)) (ledger : Ledger)
    (before : List (Answer W (Outcome S))), join.Holds standard total reports →
    before.filterMap Answer.report? = more → Agreed node policy (reports ++ more ++ [report]) joined →
    (reports ++ more ++ [report]).length ≤ policy.needed total → .delivered .closed ∉ before →
    (engine.gather request started channel next allowance join).after ledger
      (before ++ .delivered (.report report.1 report.2) :: tail) = some (last, program) →
    ∃ later left held, held.Holds standard total (reports ++ more ++ [report]) ∧
      (engine.gather request started channel next left held).after later tail = some (last, program)

theorem heard_gathers {started channel total interval allowance : Nat} {standard : Option Span}
    {next : Join S → Program W (Outcome S)} {report : BranchReport S} {tail : List (Answer W (Outcome S))}
    {last : Ledger} {program : Program W (Outcome S)}
    (again : GathersUpTo engine request started channel total standard next node policy joined report tail last
      program allowance) {join : Join S} {reports more : List (BranchReport S)} {ledger : Ledger}
    {before : List (Answer W (Outcome S))} (holds : join.Holds standard total reports)
    (brings : before.filterMap Answer.report? = more)
    (agreed : Agreed node policy (reports ++ more ++ [report]) joined)
    (atMost : (reports ++ more ++ [report]).length ≤ policy.needed total) (open_ : .delivered .closed ∉ before)
    (followed : (Program.receive channel interval
      (heard request join (engine.gather request started channel next allowance))).after ledger
        (before ++ .delivered (.report report.1 report.2) :: tail) = some (last, program)) :
    ∃ later left held, held.Holds standard total (reports ++ more ++ [report]) ∧
      (engine.gather request started channel next left held).after later tail = some (last, program) := by
  rcases before with _ | ⟨first, before⟩
  · obtain rfl : [] = more := brings
    rw [List.append_nil] at agreed ⊢
    obtain ⟨held, recorded, holds⟩ := holds.record agreed
    rcases Program.after_receive followed with ⟨_, _, same, _, behind⟩ | ⟨same, _⟩ | ⟨same, _⟩
    · cases same
      rw [heard_recorded recorded] at behind
      exact ⟨_, allowance, held, holds, behind⟩
    all_goals cases same
  · have later : .delivered .closed ∉ before := fun member => open_ (List.mem_cons_of_mem _ member)
    rcases Program.after_receive followed with ⟨branch, early, rfl, _, behind⟩ | ⟨rfl, _⟩ | ⟨rfl, behind⟩
    · obtain rfl : (branch, early) :: before.filterMap Answer.report? = more := brings
      rw [← List.singleton_append, ← List.append_assoc] at agreed atMost ⊢
      have grouped := agreed
      rw [List.append_assoc] at grouped
      obtain ⟨_, known⟩ := grouped.earlier (by simp)
      obtain ⟨held, recorded, holds⟩ := holds.record known
      rw [heard_recorded recorded] at behind
      exact again _ _ _ _ before holds rfl agreed atMost later behind
    · exact (open_ List.mem_cons_self).elim
    · have onward : before.filterMap Answer.report? = more := brings
      exact again _ _ _ _ before holds onward agreed atMost later behind

theorem gather_gathers (started channel : Nat) {total : Nat} {standard : Option Span}
    {next : Join S → Program W (Outcome S)} {report : BranchReport S} {tail : List (Answer W (Outcome S))}
    {last : Ledger} {program : Program W (Outcome S)} (allowance : Nat) :
    GathersUpTo engine request started channel total standard next node policy joined report tail last program
      allowance := by
  induction allowance with
  | zero =>
      intro join reports more ledger before _ _ _ _ _ followed
      cases before <;> cases followed
  | succ allowance ih =>
      intro join reports more ledger before holds brings agreed atMost open_ followed
      rw [gather, holds.unsatisfied (by rwa [← List.append_assoc]) (by simp) (by rwa [← List.append_assoc])]
        at followed
      rcases before with _ | ⟨first, before⟩
      · cases followed
      obtain ⟨now, world, rfl, looked⟩ := Program.after_call followed
      cases expired : join.expired (now - started) with
      | some error =>
          simp only [expired] at looked
          have none_ := (Program.after_done looked).1
          cases before <;> cases none_
      | none =>
          cases timers : engine.timers with
          | some text =>
              simp only [expired, timers] at looked
              cases before <;> cases looked
          | none =>
              simp only [expired, timers] at looked
              have onward : before.filterMap Answer.report? = more := brings
              exact heard_gathers ih holds onward agreed atMost (fun member => open_ (List.mem_cons_of_mem _ member))
                looked

theorem submissions_reports (calls : List (Nat × W)) (behind : List (Answer W (Outcome S))) :
    (submissions calls ++ behind).filterMap Answer.report? = behind.filterMap Answer.report? := by
  have nothing : (submissions (S := S) calls).filterMap Answer.report? = [] := by
    rw [submissions, List.filterMap_map]
    exact List.filterMap_eq_nil_iff.mpr fun call _ => rfl
  rw [List.filterMap_append, nothing, List.nil_append]

theorem submissions_split {calls : List (Nat × W)} {before tail rest : List (Answer W (Outcome S))} {name : NodeId}
    {outcome : Outcome S}
    (same : before ++ .delivered (.report name outcome) :: tail = submissions calls ++ rest) :
    ∃ between, before = submissions calls ++ between ∧
      rest = between ++ .delivered (.report name outcome) :: tail := by
  rcases List.append_eq_append_iff.mp same with ⟨more, split, found⟩ | ⟨between, rfl, behind⟩
  · rcases more with _ | ⟨first, more⟩
    · exact ⟨[], by simp [split], found.symm⟩
    · cases found
      have member : .delivered (.report name outcome) ∈ submissions calls := by simp [split]
      simp [submissions] at member
  · exact ⟨between, rfl, behind⟩

theorem fork_gathers (branch : Snapshot S → Program W (Outcome S)) (allowance : Nat)
    (channelled : request.strategy ≠ .sequential) {ledger last : Ledger} {started : Nat} {world : W}
    {before tail : List (Answer W (Outcome S))} {name : NodeId} {outcome : Outcome S}
    {program : Program W (Outcome S)} (listening : .delivered .closed ∉ before)
    (agreed : Agreed node policy (before.filterMap Answer.report? ++ [(name, outcome)]) joined)
    (atMost : (before.filterMap Answer.report? ++ [(name, outcome)]).length ≤
      policy.needed request.targets.length)
    (followed : (engine.fork branch allowance request next).after ledger
      (.called started world :: (before ++ .delivered (.report name outcome) :: tail)) =
        some (last, program)) :
    ∃ channel later left held,
      held.Holds engine.config.joinTimeout request.targets.length
        (before.filterMap Answer.report? ++ [(name, outcome)]) ∧
      (engine.gather request started channel (engine.conclude request · next) left held).after later tail =
        some (last, program) := by
  rw [fork_startBranches channelled] at followed
  obtain ⟨_, _, same, running⟩ := Program.after_call followed
  cases same
  rcases before with _ | ⟨first, before⟩
  · cases running
  obtain ⟨readings, rfl, submitted⟩ := Program.after_clock running
  rcases submit_after request.targets submitted with
    ⟨calls, rest, same, _, launching⟩ | ⟨calls, _, only, _⟩
  · obtain ⟨between, rfl, rfl⟩ := submissions_split same
    rcases between with _ | ⟨opening, between⟩
    · cases launching
    obtain ⟨channel, rfl, gathering⟩ := Program.after_launch launching
    have brings : (Answer.read readings :: (submissions calls ++ .launched channel :: between)).filterMap
        Answer.report? = between.filterMap Answer.report? :=
      submissions_reports calls (.launched channel :: between)
    rw [brings] at agreed atMost ⊢
    obtain ⟨later, left, held, holds, gathered⟩ := gather_gathers started channel allowance _ [] _ _ between
      (Join.holds_start request.source request.targets.length engine.config.joinTimeout) rfl agreed atMost
      (fun member => listening (by simp [member])) gathering
    exact ⟨channel, later, left, held, holds, gathered⟩
  · have member : .delivered (.report name outcome) ∈ submissions calls := by simp [← only]
    simp [submissions] at member

theorem looked_timesOut {held : Join S} {total : Nat} {reports : List (BranchReport S)} {timeout : Span}
    (holds : held.Holds engine.config.joinTimeout total reports) (agreed : Agreed node policy reports joined)
    (effective : effectiveTimeout engine.config.joinTimeout reports = some timeout) {started now : Nat}
    (late : timeout.ReachedBy (now - started)) {later last : Ledger} {view : W}
    {rest : List (Answer W (Outcome S))} {program : Program W (Outcome S)}
    {otherwise : Nat → Program W (Outcome S)}
    (looked : (Program.time fun now => match held.expired (now - started) with
      | some error => failed error request.base
      | none => otherwise now).after later (.called now view :: rest) = some (last, program)) :
    rest = [] ∧ program = .done (.failed (.joinTimeout node timeout) (some request.base)) := by
  obtain ⟨_, _, same, behind⟩ := Program.after_call looked
  cases same
  simp only [holds.expired agreed effective late] at behind
  obtain ⟨closed, same⟩ := Program.after_done behind
  cases same
  exact ⟨closed, rfl⟩

/-- A join that comes at the deadline or later ends its fork with a timeout exactly if the branches of the fork
run in sequence, or else if the policy waits for more of them. If instead it is the join that makes the policy of
a fork on a channel complete, then it counts like the others, and the fork goes on with all of them. -/
theorem late_join_times_out_iff (engine : Engine W S) (branch : Snapshot S → Program W (Outcome S))
    (allowance : Nat) (request : ForkRequest S) (next : Snapshot S → Program W (Outcome S))
    (ledger last : Ledger) (started now : Nat) (world view : W) (heard rest : List (Answer W (Outcome S)))
    (reports : List (BranchReport S)) (node : NodeId) (policy : WaitPolicy) (joined : List (JoinedBranch S))
    (timeout : Span) (program : Program W (Outcome S)) (justHeard : JustHeard branch request heard reports)
    (agreed : Agreed node policy reports joined)
    (atMost : reports.length ≤ policy.needed request.targets.length)
    (effective : effectiveTimeout engine.config.joinTimeout reports = some timeout)
    (late : timeout.ReachedBy (now - started))
    (followed : (engine.fork branch allowance request next).after ledger
      (.called started world :: (heard ++ .called now view :: rest)) = some (last, program)) :
    (rest = [] ∧ program = .done (.failed (.joinTimeout node timeout) (some request.base)) ↔
      request.strategy = .sequential ∨ reports.length < policy.needed request.targets.length) ∧
    (¬(request.strategy = .sequential ∨ reports.length < policy.needed request.targets.length) →
      ∃ join later, join.joined = joined ∧
        (engine.conclude request join next).after later (.called now view :: rest) = some (last, program)) := by
  by_cases sequential : request.strategy = .sequential
  · refine ⟨iff_of_true ?_ (.inl sequential), fun neither => (neither (.inl sequential)).elim⟩
    obtain ⟨_, _, same, running⟩ := Program.after_call followed
    cases same
    simp only [sequential] at running
    simp only [JustHeard, sequential] at justHeard
    obtain ⟨later, others, held, holds, looked⟩ := inSequence_looks branch started justHeard
      (Join.holds_start request.source request.targets.length engine.config.joinTimeout) agreed atMost running
    exact looked_timesOut holds agreed effective late looked
  · obtain ⟨before, name, outcome, rfl, listening, brought⟩ := justHeard.delivered sequential
    obtain rfl : reports = before.filterMap Answer.report? ++ [(name, outcome)] := by
      rw [brought, List.filterMap_append]
      rfl
    rw [List.append_assoc] at followed
    obtain ⟨channel, later, left, held, holds, gathering⟩ :=
      fork_gathers branch allowance sequential listening agreed atMost followed
    have satisfied := holds.isSatisfied_iff agreed
    obtain ⟨_, _, _, _, terms, same⟩ := holds.terms agreed
    cases left with
    | zero => cases gathering
    | succ left =>
        rw [gather] at gathering
        by_cases fewer : (before.filterMap Answer.report? ++ [(name, outcome)]).length <
            policy.needed request.targets.length
        · rw [if_neg fun enough => absurd (satisfied.mp enough) (Nat.not_le.mpr fewer)] at gathering
          refine ⟨iff_of_true (looked_timesOut holds agreed effective late gathering) (.inr fewer), ?_⟩
          exact fun neither => (neither (.inr fewer)).elim
        · rw [if_pos (satisfied.mpr (Nat.not_lt.mp fewer))] at gathering
          refine ⟨iff_of_false ?_ (not_or_intro sequential fewer), fun _ => ⟨held, later, same, gathering⟩⟩
          rintro ⟨rfl, rfl⟩
          simp only [conclude, terms] at gathering
          cases gathering

section
/-- The second branch joins with a deadline of ten milliseconds, twenty milliseconds after the start. -/
def lateHistory : List (Answer Unit (Outcome Unit)) :=
  [.read default, .called 0 (), .called 0 (), .launched 0, .called 0 (),
    .delivered (.report secondTarget (.joined firstTarget .any (some (.ofMillis 10)) atFirst))]

theorem late_join_of_pair_counts :
    ∃ last program,
      (plainEngine.fork (fun _ => .never) 6 pairFork (.done <| .completed ·)).after Ledger.blank
          (.called 0 () :: (lateHistory ++ [.called 20 ()])) = some (last, program) ∧
        ∃ reports joined, Agreed firstTarget .any reports joined ∧
          ¬(pairFork.strategy = .sequential ∨ reports.length < WaitPolicy.any.needed pairFork.targets.length) ∧
          ∃ join later, join.joined = joined ∧
            (plainEngine.conclude pairFork join (.done <| .completed ·)).after later [.called 20 ()] =
              some (last, program) := by
  have agreed : Agreed firstTarget .any _ _ := Agreed.single secondTarget (some (.ofMillis 10)) atFirst
  have complete : ¬(pairFork.strategy = .sequential ∨ 1 < WaitPolicy.any.needed pairFork.targets.length) := by
    decide
  refine ⟨_, _, rfl, _, _, agreed, complete, ?_⟩
  refine (late_join_times_out_iff plainEngine (fun _ => .never) 6 pairFork (.done <| .completed ·)
    Ledger.blank _ 0 20 () () lateHistory [] _ firstTarget .any _ (.ofMillis 10) _ ?_ agreed (by decide) rfl
    ?_ rfl).2 complete
  · exact ⟨lateHistory.take 5, _, _, rfl, by simp [lateHistory], rfl⟩
  · exact (by decide : (Span.ofMillis 10).toNanos ≤ 20 * 1000000)

def sourceNode : NodeId := ⟨"source", by decide +kernel, by decide⟩
def meetNode : NodeId := ⟨"meeting", by decide +kernel, by decide⟩

/-- A fork to a branch that joins at once and sets a deadline of 110 ms, and to one that joins after 115 ms. -/
def lateMeeting (strategy : ForkStrategy) : Blueprint Unit Unit Unit where
  name := none
  nodes :=
    [(Node.new sourceNode fun _ =>
        .done (.ok (.ofAction (.fork [firstTarget, secondTarget] strategy .empty none)))).asEntryPoint,
      Node.new firstTarget fun _ => .done (.ok ((Command.join meetNode).withTimeout (.ofMillis 110))),
      Node.new secondTarget fun _ => .sleep 115 fun _ => .done (.ok (.join meetNode)),
      Node.new meetNode fun _ => .done (.ok .complete)]
  edges :=
    [.new ⟨"to first", by decide +kernel, by decide⟩ sourceNode firstTarget .always default,
      .new ⟨"to second", by decide +kernel, by decide⟩ sourceNode secondTarget .always default,
      .new ⟨"from first", by decide +kernel, by decide⟩ firstTarget meetNode .always default,
      .new ⟨"from second", by decide +kernel, by decide⟩ secondTarget meetNode .always default]
  defaultEntry := none
  extractor := some fun _ => .pure (.ok ())
  monitors := [.silent]
  executor := .pure true
  merger := .lastWriterWins
  ids := fun _ => .pure "run"
  tracer := fun _ => .pure ()
  timers := none
  config := {}

def endingOf (workflow : Workflow Unit Unit Unit) : Option (Workflow.Ending Unit Unit Unit) :=
  workflow.perform (fun _ _ => default) 20 (workflow.start 20 () .empty) ()

/-- In parallel, a run counts the join that comes behind the deadline and succeeds. In sequence it fails with the
timeout. -/
theorem parallel_fork_counts_late_join :
    (∃ workflow snapshot, (lateMeeting .parallel).build = .ok workflow ∧
      endingOf workflow = some ⟨.settled (.success () snapshot), 115, ()⟩ ∧
      snapshot.trace = [sourceNode, firstTarget, secondTarget, meetNode]) ∧
    ∃ workflow base, (lateMeeting .sequential).build = .ok workflow ∧
      endingOf workflow =
        some ⟨.settled (.failure (.joinTimeout meetNode (.ofMillis 110)) (some base)), 115, ()⟩ ∧
      base.trace = [sourceNode] :=
  ⟨⟨_, _, rfl, rfl, rfl⟩, _, _, rfl, rfl, rfl⟩
end

end Engine
end

end FlowGraph
