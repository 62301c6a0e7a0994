import Mathlib.Data.List.Forall2
import FlowGraph.Engine.Join

/-!
Which report decides a fork, and how. The first report that is no join, or that joins somewhere else than
the first join did, is the end of the fork; otherwise it is the join that makes the policy of the first
join complete. The bookkeeping of a join comes to the same.
-/

namespace FlowGraph

def WaitPolicy.needed (policy : WaitPolicy) (total : Nat) : Nat :=
  match policy with
  | .all => total
  | .any => 1
  | .majority => total / 2 + 1

theorem WaitPolicy.isSatisfied_iff (policy : WaitPolicy) (reported total : Nat) :
    policy.isSatisfied reported total = true ↔ policy.needed total ≤ reported := by
  cases policy with
  | all => simp only [isSatisfied, needed, decide_eq_true_eq]
  | any => simp only [isSatisfied, needed, decide_eq_true_eq]
  | majority =>
      simp only [isSatisfied, needed, decide_eq_true_eq]
      omega

theorem WaitPolicy.needed_le (policy : WaitPolicy) {total : Nat} (nonempty : 0 < total) :
    policy.needed total ≤ total := by
  cases policy <;> simp only [needed] <;> omega

abbrev BranchReport (S : Type) := NodeId × Outcome S

variable {S : Type}

def IsJoin (outcome : Outcome S) : Prop :=
  ∃ node policy timeout snapshot, outcome = .joined node policy timeout snapshot

theorem not_isJoin_failed (error : Error) (last : Option (Snapshot S)) : ¬IsJoin (.failed error last) := by
  rintro ⟨_, _, _, _, ⟨⟩⟩

def JoinsAt (node : NodeId) (report : BranchReport S) (joined : JoinedBranch S) : Prop :=
  ∃ policy timeout, report = (joined.branch, .joined node policy timeout joined.snapshot) ∧
    joined.joinNode = node

/-- All reports are joins at one node, by these branches in this order. The policy is that of the first. -/
structure Agreed (node : NodeId) (policy : WaitPolicy) (reports : List (BranchReport S))
    (joined : List (JoinedBranch S)) : Prop where
  first : ∃ branch timeout snapshot,
    reports.head? = some (branch, .joined node policy timeout snapshot)
  joins : List.Forall₂ (JoinsAt node) reports joined

/-- There are not yet enough joins, and nothing else. -/
def Undecided (total : Nat) (reports : List (BranchReport S)) : Prop :=
  reports = [] ∨ ∃ node policy joined, Agreed node policy reports joined ∧
    reports.length < policy.needed total

/-- If these are joins, there are no more of them than the policy waits for. -/
def AtMostNeeded (total : Nat) (reports : List (BranchReport S)) : Prop :=
  ∀ node policy joined, Agreed node policy reports joined → reports.length ≤ policy.needed total

inductive ForkDecision (S : Type) where
  | ended (outcome : Outcome S)
  | joined (node : NodeId) (branches : List (JoinedBranch S))

def astrayReason (node : NodeId) : String :=
  "branches must join at a single node, '" ++ node.text ++ "' already used"

/-- The last of these reports decides the fork. -/
inductive Decides (total : Nat) : List (BranchReport S) → ForkDecision S → Prop where
  | ended {earlier : List (BranchReport S)} {branch : NodeId} {outcome : Outcome S}
      (before : Undecided total earlier) (other : ¬IsJoin outcome) :
      Decides total (earlier ++ [(branch, outcome)]) (.ended outcome)
  | astray {node : NodeId} {policy : WaitPolicy} {earlier : List (BranchReport S)}
      {joined : List (JoinedBranch S)} {branch elsewhere : NodeId} {otherPolicy : WaitPolicy}
      {timeout : Option Span} {snapshot : Snapshot S} (agreed : Agreed node policy earlier joined)
      (before : earlier.length < policy.needed total) (different : elsewhere ≠ node) :
      Decides total (earlier ++ [(branch, .joined elsewhere otherPolicy timeout snapshot)])
        (.ended (.failed
          (.traversal (snapshot.currentNode.getD branch) elsewhere (astrayReason node))
          (some snapshot)))
  | joined {node : NodeId} {policy : WaitPolicy} {reports : List (BranchReport S)}
      {joined : List (JoinedBranch S)} (agreed : Agreed node policy reports joined)
      (enough : reports.length = policy.needed total) :
      Decides total reports (.joined node joined)

/-- The first join, which fixes the timeout of all, sets none. -/
def Untimed (reports : List (BranchReport S)) : Prop :=
  ∀ branch node policy timeout snapshot,
    reports.head? = some (branch, .joined node policy timeout snapshot) → timeout = none

namespace Agreed
variable {node : NodeId} {policy : WaitPolicy} {reports : List (BranchReport S)}
  {joined : List (JoinedBranch S)}

theorem ne_nil (agreed : Agreed node policy reports joined) : reports ≠ [] := by
  rintro rfl
  obtain ⟨_, _, _, impossible⟩ := agreed.first
  cases impossible

theorem unique (agreed : Agreed node policy reports joined) {other : NodeId} {otherPolicy : WaitPolicy}
    {others : List (JoinedBranch S)} (too : Agreed other otherPolicy reports others) :
    other = node ∧ otherPolicy = policy := by
  obtain ⟨_, _, _, first⟩ := agreed.first
  obtain ⟨_, _, _, same⟩ := too.first
  rw [first] at same
  cases same
  exact ⟨rfl, rfl⟩

theorem single (branch : NodeId) (timeout : Option Span) (snapshot : Snapshot S) :
    Agreed node policy [(branch, .joined node policy timeout snapshot)] [⟨branch, node, snapshot⟩] :=
  ⟨⟨branch, timeout, snapshot, rfl⟩, .cons ⟨policy, timeout, rfl, rfl⟩ .nil⟩

theorem concat (agreed : Agreed node policy reports joined) (branch : NodeId) (otherPolicy : WaitPolicy)
    (timeout : Option Span) (snapshot : Snapshot S) :
    Agreed node policy (reports ++ [(branch, .joined node otherPolicy timeout snapshot)])
      (joined ++ [⟨branch, node, snapshot⟩]) := by
  constructor
  · obtain ⟨first, firstTimeout, firstSnapshot, head⟩ := agreed.first
    exact ⟨first, firstTimeout, firstSnapshot, by rw [List.head?_append, head, Option.some_or]⟩
  · exact List.rel_append agreed.joins (.cons ⟨otherPolicy, timeout, rfl, rfl⟩ .nil)

theorem branches (agreed : Agreed node policy reports joined) :
    joined.map JoinedBranch.branch = reports.map Prod.fst := by
  have joins := agreed.joins
  clear agreed
  induction joins with
  | nil => rfl
  | cons joinsAt _ ih =>
      obtain ⟨_, _, rfl, _⟩ := joinsAt
      simp only [List.map_cons, ih]

end Agreed

theorem Agreed.earlier {node : NodeId} {policy : WaitPolicy} {reports more : List (BranchReport S)}
    {joined : List (JoinedBranch S)} (agreed : Agreed node policy (reports ++ more) joined)
    (nonempty : reports ≠ []) : ∃ joined, Agreed node policy reports joined := by
  obtain ⟨branch, timeout, snapshot, head⟩ := agreed.first
  have joins := List.forall₂_take reports.length agreed.joins
  rw [List.take_left] at joins
  rw [List.head?_append_of_ne_nil _ nonempty] at head
  exact ⟨_, ⟨branch, timeout, snapshot, head⟩, joins⟩

theorem Agreed.isJoin {node : NodeId} {policy : WaitPolicy} {reports : List (BranchReport S)}
    {joined : List (JoinedBranch S)} (agreed : Agreed node policy reports joined) :
    ∀ report ∈ reports, ∃ otherPolicy timeout snapshot,
      report.2 = .joined node otherPolicy timeout snapshot := by
  have joins := agreed.joins
  clear agreed
  induction joins with
  | nil => simp
  | cons joinsAt _ ih =>
      intro report member
      rcases List.mem_cons.mp member with rfl | later
      · obtain ⟨otherPolicy, timeout, rfl, _⟩ := joinsAt
        exact ⟨otherPolicy, timeout, _, rfl⟩
      · exact ih report later

theorem JoinsAt.unique {node : NodeId} {report : BranchReport S} {joined other : JoinedBranch S}
    (joins : JoinsAt node report joined) (too : JoinsAt node report other) : other = joined := by
  obtain ⟨branch, joinNode, snapshot⟩ := joined
  obtain ⟨otherBranch, otherNode, otherSnapshot⟩ := other
  obtain ⟨_, _, rfl, rfl⟩ := joins
  obtain ⟨_, _, same, rfl⟩ := too
  cases same
  rfl

theorem joinedBranches_unique {node : NodeId} {reports : List (BranchReport S)}
    {joined : List (JoinedBranch S)} (joins : List.Forall₂ (JoinsAt node) reports joined) :
    ∀ {others : List (JoinedBranch S)}, List.Forall₂ (JoinsAt node) reports others →
      others = joined := by
  induction joins with
  | nil =>
      intro others too
      cases too
      rfl
  | cons first _ ih =>
      intro others too
      cases too with
      | cons same rest => rw [first.unique same, ih rest]

theorem Decides.branches {total : Nat} {reports : List (BranchReport S)} {node : NodeId}
    {joined : List (JoinedBranch S)} (decides : Decides total reports (.joined node joined)) :
    joined.map JoinedBranch.branch = reports.map Prod.fst := by
  cases decides with
  | joined agreed _ => exact agreed.branches

namespace Join
variable {join : Join S}

theorem record_ok {next : Join S} {branch : NodeId} {outcome : Outcome S}
    (recorded : join.record branch outcome = .ok next) :
    ∃ node policy timeout snapshot terms, outcome = .joined node policy timeout snapshot ∧
      (join.terms = some terms ∨ join.terms = none ∧ terms = ⟨node, policy, timeout⟩) ∧
      next = { join with terms := some terms, joined := join.joined ++ [⟨branch, node, snapshot⟩] } := by
  cases outcome with
  | completed => cases recorded
  | suspended => cases recorded
  | failed => cases recorded
  | joined node policy timeout snapshot =>
      cases fixed : join.terms with
      | none =>
          simp only [Join.record, fixed] at recorded
          cases recorded
          exact ⟨node, policy, timeout, snapshot, _, rfl, .inr ⟨rfl, rfl⟩, rfl⟩
      | some terms =>
          simp only [Join.record, fixed] at recorded
          split at recorded
          · cases recorded
            exact ⟨node, policy, timeout, snapshot, terms, rfl, .inl rfl, rfl⟩
          · cases recorded

theorem record_error {branch : NodeId} {outcome ending : Outcome S}
    (refused : join.record branch outcome = .error ending) :
    (ending = outcome ∧ ¬IsJoin outcome) ∨
      ∃ node policy timeout last source reason, outcome = .joined node policy timeout last ∧
        ending = .failed (.traversal source node reason) (some last) := by
  cases outcome with
  | completed last =>
      cases refused
      exact .inl ⟨rfl, by rintro ⟨_, _, _, _, ⟨⟩⟩⟩
  | suspended suspension =>
      cases refused
      exact .inl ⟨rfl, by rintro ⟨_, _, _, _, ⟨⟩⟩⟩
  | failed error last =>
      cases refused
      exact .inl ⟨rfl, by rintro ⟨_, _, _, _, ⟨⟩⟩⟩
  | joined node policy timeout last =>
      simp only [Join.record] at refused
      split at refused
      · cases refused
      · split at refused
        · cases refused
        · cases refused
          exact .inr ⟨node, policy, timeout, last, _, _, rfl, rfl⟩

/-- The join has recorded these reports, all of them joins at one node. -/
structure Holds (join : Join S) (standard : Option Span) (total : Nat) (reports : List (BranchReport S)) :
    Prop where
  total_eq : join.total = total
  standard_eq : join.defaultTimeout = standard
  recorded : (reports = [] ∧ join.terms = none ∧ join.joined = []) ∨
    ∃ branch node policy timeout snapshot, Agreed node policy reports join.joined ∧
      reports.head? = some (branch, .joined node policy timeout snapshot) ∧
      join.terms = some ⟨node, policy, timeout⟩

section
variable {next : Join S} {standard : Option Span} {total : Nat} {reports : List (BranchReport S)}
  {node : NodeId} {policy : WaitPolicy} {joined : List (JoinedBranch S)}

theorem holds_start (forkNode : NodeId) (total : Nat) (standard : Option Span) :
    (Join.start (S := S) forkNode total standard).Holds standard total [] :=
  ⟨rfl, rfl, .inl ⟨rfl, rfl, rfl⟩⟩

theorem Holds.terms (holds : join.Holds standard total reports)
    (agreed : Agreed node policy reports joined) :
    ∃ branch timeout snapshot, reports.head? = some (branch, .joined node policy timeout snapshot) ∧
      join.terms = some ⟨node, policy, timeout⟩ ∧ join.joined = joined := by
  rcases holds.recorded with ⟨rfl, _⟩ | ⟨branch, first, firstPolicy, timeout, snapshot, own, head, terms⟩
  · exact (agreed.ne_nil rfl).elim
  · obtain ⟨rfl, rfl⟩ := agreed.unique own
    exact ⟨branch, timeout, snapshot, head, terms, (joinedBranches_unique own.joins agreed.joins).symm⟩

theorem Holds.isSatisfied_iff (holds : join.Holds standard total reports)
    (agreed : Agreed node policy reports joined) :
    join.isSatisfied = true ↔ policy.needed total ≤ reports.length := by
  obtain ⟨_, _, _, _, terms, same⟩ := holds.terms agreed
  simp only [isSatisfied, terms, same, holds.total_eq, policy.isSatisfied_iff, agreed.joins.length_eq]

theorem Holds.recorded_ok (holds : join.Holds standard total reports) {branch : NodeId} {outcome : Outcome S}
    (recorded : join.record branch outcome = .ok next) :
    next.Holds standard total (reports ++ [(branch, outcome)]) := by
  obtain ⟨node, policy, timeout, snapshot, _, rfl, _, _⟩ := record_ok recorded
  rcases holds.recorded with ⟨rfl, terms, nobody⟩ |
    ⟨first, known, firstPolicy, firstTimeout, earlier, agreed, head, terms⟩
  · simp only [Join.record, terms, nobody, List.nil_append, Except.ok.injEq] at recorded
    subst recorded
    refine ⟨holds.total_eq, holds.standard_eq, .inr ?_⟩
    exact ⟨branch, node, policy, timeout, snapshot, Agreed.single branch timeout snapshot, rfl, rfl⟩
  · simp only [Join.record, terms] at recorded
    split at recorded
    · rename_i same
      subst same
      cases recorded
      refine ⟨holds.total_eq, holds.standard_eq, .inr ?_⟩
      exact ⟨first, known, firstPolicy, firstTimeout, earlier, agreed.concat branch policy timeout snapshot,
        by rw [List.head?_append, head, Option.some_or], rfl⟩
    · cases recorded

theorem Holds.unexpired (holds : join.Holds none total reports) (untimed : Untimed reports) (elapsed : Nat) :
    join.expired elapsed = none := by
  have never : join.timeout = none := by
    unfold Join.timeout
    rcases holds.recorded with ⟨_, terms, _⟩ | ⟨branch, node, policy, timeout, snapshot, _, head, terms⟩
    · rw [terms]
      exact holds.standard_eq
    · obtain rfl := untimed branch node policy timeout snapshot head
      rw [terms]
      exact holds.standard_eq
  simp only [Join.expired, never]

end

end Join

theorem AtMostNeeded.nil (total : Nat) : AtMostNeeded (S := S) total [] := by
  intro node policy joined agreed
  exact (agreed.ne_nil rfl).elim

theorem Decides.unique {total : Nat} {reports all : List (BranchReport S)}
    {decision other : ForkDecision S} (decides : Decides total reports decision)
    (too : Decides total all other) (same : all = reports) : other = decision := by
  cases decides with
  | ended before isEnd =>
      cases too with
      | ended _ _ =>
          cases (List.append_inj' same rfl).2
          rfl
      | astray _ _ _ =>
          cases (List.append_inj' same rfl).2
          exact (isEnd ⟨_, _, _, _, rfl⟩).elim
      | joined agreed _ =>
          subst same
          obtain ⟨_, _, _, isJoin⟩ := agreed.isJoin _ List.mem_concat_self
          exact (isEnd ⟨_, _, _, _, isJoin⟩).elim
  | astray agreed before different =>
      cases too with
      | ended _ isEnd =>
          cases (List.append_inj' same rfl).2
          exact (isEnd ⟨_, _, _, _, rfl⟩).elim
      | astray otherAgreed _ _ =>
          obtain ⟨rfl, last⟩ := List.append_inj' same rfl
          cases last
          obtain ⟨rfl, rfl⟩ := agreed.unique otherAgreed
          rfl
      | joined otherAgreed _ =>
          subst same
          obtain ⟨_, _, _, isJoin⟩ := otherAgreed.isJoin _ List.mem_concat_self
          obtain ⟨joined, first⟩ := otherAgreed.earlier agreed.ne_nil
          cases isJoin
          exact (different (agreed.unique first).1).elim
  | joined agreed enough =>
      cases too with
      | ended _ isEnd =>
          subst same
          obtain ⟨_, _, _, isJoin⟩ := agreed.isJoin _ List.mem_concat_self
          exact (isEnd ⟨_, _, _, _, isJoin⟩).elim
      | astray otherAgreed _ different =>
          subst same
          obtain ⟨_, _, _, isJoin⟩ := agreed.isJoin _ List.mem_concat_self
          obtain ⟨joined, first⟩ := agreed.earlier otherAgreed.ne_nil
          cases isJoin
          exact (different (otherAgreed.unique first).1).elim
      | joined otherAgreed _ =>
          subst same
          obtain ⟨rfl, rfl⟩ := agreed.unique otherAgreed
          rw [joinedBranches_unique agreed.joins otherAgreed.joins]

end FlowGraph
