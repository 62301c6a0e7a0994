import Mathlib.Algebra.GroupWithZero.Nat
import Mathlib.Algebra.Order.BigOperators.Group.List
import Mathlib.Algebra.Order.Group.Nat
import FlowGraph.Proofs.Loop.Outline
import FlowGraph.Proofs.Loop.Progress

/-!
What the limits of an engine make of its loops. Under a visit limit no chain of snapshots is longer than the nodes
can be visited in all, whatever forks do, for branches inherit the visits of their fork and joins keep them.
Under a step limit alone this holds of loops whose forks nest to a bounded depth.
-/

namespace FlowGraph

namespace Snapshot
variable {S : Type}

theorem visitCount_eq (snapshot : Snapshot S) (node : NodeId) :
    snapshot.visitCount node = snapshot.trace.countP (· = node) := by
  unfold visitCount trace
  cases snapshot.position with
  | none => rfl
  | some position => exact (List.countP_reverse ..).symm

theorem trace_of_currentNode {snapshot : Snapshot S} {current : NodeId}
    (standing : snapshot.currentNode = some current) : ∃ earlier, snapshot.trace = earlier ++ [current] := by
  obtain ⟨position, found, rfl⟩ := Option.map_eq_some_iff.mp standing
  exact ⟨position.behind.reverse, by simp only [trace, found, Position.visited, List.reverse_cons]⟩

/-- How much of a visit limit is used up, over all nodes. -/
def spent (ids : List NodeId) (limit : Nat) (snapshot : Snapshot S) : Nat :=
  (ids.map fun id => min (snapshot.visitCount id) (limit + 1)).sum

theorem spent_le (ids : List NodeId) (limit : Nat) (snapshot : Snapshot S) :
    snapshot.spent ids limit ≤ (limit + 1) * ids.length := by
  unfold spent
  induction ids with
  | nil => exact Nat.zero_le _
  | cons id rest ih =>
      rw [List.map_cons, List.sum_cons, List.length_cons, Nat.mul_succ]
      have atMost := Nat.min_le_right (snapshot.visitCount id) (limit + 1)
      omega

def Extends (first next : Snapshot S) : Prop :=
  ∀ current, next.currentNode = some current →
    ∃ earlier, next.trace = earlier ++ [current] ∧ first.trace.Sublist earlier

theorem Extends.spent_lt {first next : Snapshot S} (grows : first.Extends next) {ids : List NodeId}
    {limit : Nat} {current : NodeId} (standing : next.currentNode = some current) (known : current ∈ ids)
    (within : next.visitCount current ≤ limit) : first.spent ids limit < next.spent ids limit := by
  obtain ⟨earlier, visits, among⟩ := grows current standing
  have counted (id : NodeId) : first.visitCount id + [current].countP (· = id) ≤ next.visitCount id := by
    rw [visitCount_eq, visitCount_eq, visits, List.countP_append]
    exact Nat.add_le_add_right among.countP_le _
  refine List.sum_lt_sum _ _ (fun id _ => ?_) ⟨current, known, ?_⟩
  · have atLeast := counted id
    omega
  · have more := counted current
    rw [List.countP_singleton, if_pos (decide_eq_true rfl)] at more
    omega

theorem extends_of_walk {first next : Snapshot S} {walk : List NodeId} (moved : walk ≠ [])
    (visits : next.trace = first.trace ++ walk) : first.Extends next := by
  intro current standing
  obtain ⟨earlier, same⟩ := trace_of_currentNode standing
  obtain ⟨steps, last, rfl⟩ := (List.eq_nil_or_concat walk).resolve_left moved
  rw [List.concat_eq_append, ← List.append_assoc] at visits
  obtain ⟨rfl, _⟩ := List.append_inj' (same.symm.trans visits) rfl
  exact ⟨_, same, List.sublist_append_left _ _⟩

theorem Advances.grows {first next : Snapshot S} (advances : first.Advances next) : first.Extends next := by
  obtain ⟨walk, moved, visits⟩ := advances.moves
  exact extends_of_walk moved visits

end Snapshot

namespace Engine
variable {W S : Type} {engine : Engine W S}

/-- One snapshot comes from another by a transition of its loop, as the first one of a branch, or as that of a
join that its branch has taken part in. -/
inductive Derives (engine : Engine W S) (snapshot next : Snapshot S) : Prop where
  | turn {mode : Mode} (turn : engine.Turn mode snapshot next)
  | seed {mode : Mode} (seeds : engine.Seeds mode snapshot next)
  | join {request : ForkRequest S} {node : NodeId} {joined : List (JoinedBranch S)} {branch : JoinedBranch S}
      {policy : WaitPolicy} {timeout : Option Span}
      (answers : engine.Answers .branch snapshot (.finish (.joined node policy timeout branch.snapshot)))
      (member : branch ∈ joined) (rejoins : engine.Rejoins request node joined next)

def MayExecute (engine : Engine W S) (snapshot : Snapshot S) : Prop :=
  ∃ current steps, snapshot.currentNode = some current ∧
    guardFault engine.config steps snapshot current = none ∧ engine.topology.node? current ≠ none

theorem Answers.mayExecute {mode : Mode} {snapshot : Snapshot S} {step : Step S}
    (answers : engine.Answers mode snapshot step) : engine.MayExecute snapshot := by
  obtain ⟨current, node, _, _, steps, standing, free, found, _⟩ := answers
  exact ⟨current, steps, standing, free, by simp [found]⟩

theorem Turn.mayExecute {mode : Mode} {snapshot next : Snapshot S} (turn : engine.Turn mode snapshot next) :
    engine.MayExecute snapshot := by
  cases turn with
  | moved answers => exact answers.mayExecute
  | rejoined answers _ => exact answers.mayExecute

theorem Derives.mayExecute {snapshot next : Snapshot S} (derives : engine.Derives snapshot next) :
    engine.MayExecute snapshot := by
  cases derives with
  | turn turn => exact turn.mayExecute
  | seed seeds =>
      cases seeds with
      | started answers _ _ => exact answers.mayExecute
  | join answers _ _ => exact answers.mayExecute

theorem mem_flatten_of_forall₂ {α β : Type} {rel : α → List β → Prop} {first : List α} {walks : List (List β)}
    (both : List.Forall₂ rel first walks) {a : α} (member : a ∈ first) :
    ∃ walk, rel a walk ∧ walk.Sublist walks.flatten := by
  induction both with
  | nil => cases member
  | cons here _ ih =>
      rcases List.mem_cons.mp member with rfl | later
      · exact ⟨_, here, List.sublist_append_left _ _⟩
      · obtain ⟨walk, holds, among⟩ := ih later
        exact ⟨walk, holds, among.trans (List.sublist_append_right _ _)⟩

theorem Derives.grows {snapshot next : Snapshot S} (derives : engine.Derives snapshot next) :
    snapshot.Extends next := by
  cases derives with
  | turn turn => exact turn.advances.grows
  | seed seeds =>
      obtain ⟨answers, _, rfl⟩ := seeds
      exact (answers.base.1.advances (moveTo_advances _ _ _)).grows
  | @join request node joined branch policy timeout answers member rejoins =>
      have stands : branch.snapshot.trace = snapshot.trace := by
        cases answers.keeps with
        | finish stands => exact Snapshot.trace_of_position (stands _ rfl).2
      obtain ⟨⟨walks, branches, visits⟩, current, _⟩ := rejoins.keepsHistory
      obtain ⟨walk, ⟨_, whole⟩, among⟩ := mem_flatten_of_forall₂ branches member
      intro other standing
      rw [current] at standing
      cases standing
      refine ⟨_, visits, ?_⟩
      rw [← stands, whole]
      exact (List.Sublist.refl _).append among

theorem not_stops {steps : Nat} {snapshot : Snapshot S} (goesOn : ¬engine.Stops steps snapshot) :
    ∃ current, snapshot.currentNode = some current ∧
      guardFault engine.config (steps + 1) snapshot current = none ∧ engine.topology.node? current ≠ none := by
  simp only [Stops, not_forall] at goesOn
  obtain ⟨current, standing, free, known⟩ := goesOn
  exact ⟨current, standing, free, known⟩

section
variable {limit : Nat} {ids : List NodeId}

theorem visitCount_of_guard (limited : engine.config.visitLimit = some limit) {steps : Nat}
    {snapshot : Snapshot S} {current : NodeId}
    (free : guardFault engine.config steps snapshot current = none) : snapshot.visitCount current ≤ limit := by
  simp only [guardFault, limited] at free
  split at free
  · cases free
  split at free
  · cases free
  · omega

/-- Each snapshot that a loop may go on from uses up more of the limit than the one it is derived from. -/
theorem Derives.spent_lt (limited : engine.config.visitLimit = some limit)
    (known : ∀ id, engine.topology.node? id ≠ none → id ∈ ids) {snapshot next : Snapshot S}
    (derives : engine.Derives snapshot next) (onward : engine.MayExecute next) :
    snapshot.spent ids limit < next.spent ids limit := by
  obtain ⟨current, steps, standing, free, found⟩ := onward
  exact derives.grows.spent_lt standing (known current found) (visitCount_of_guard limited free)

/-- No chain of derived snapshots is longer than the nodes can be visited in all. -/
theorem chain_length_le (limited : engine.config.visitLimit = some limit)
    (known : ∀ id, engine.topology.node? id ≠ none → id ∈ ids) (rest : List (Snapshot S)) :
    ∀ first, (first :: rest).IsChain engine.Derives →
      rest.length + first.spent ids limit ≤ (limit + 1) * ids.length + 1 := by
  induction rest with
  | nil =>
      intro first _
      have atMost := first.spent_le ids limit
      rw [List.length_nil]
      omega
  | cons next others ih =>
      intro first chain
      obtain ⟨derives, later⟩ := List.isChain_cons_cons.mp chain
      have shorter := ih next later
      cases others with
      | nil =>
          have atMost := first.spent_le ids limit
          rw [List.length_singleton]
          omega
      | cons second _ =>
          have onward := (List.isChain_cons_cons.mp later).1.mayExecute
          have more := derives.spent_lt limited known onward
          rw [List.length_cons]
          omega

theorem shallow_of_limit (limited : engine.config.visitLimit = some limit)
    (known : ∀ id, engine.topology.node? id ≠ none → id ∈ ids) (depth : Nat) :
    ∀ (mode : Mode) (steps : Nat) (snapshot : Snapshot S),
      (limit + 1) * ids.length ≤ snapshot.spent ids limit + depth →
        engine.Shallow (depth + 1) mode steps snapshot := by
  induction depth with
  | zero =>
      intro mode steps snapshot full
      have last {mode : Mode} {steps : Nat} {next : Snapshot S} (derives : engine.Derives snapshot next) :
          engine.Shallow 0 mode steps next := by
        refine .stops ?_
        by_contra goesOn
        obtain ⟨current, standing, free, found⟩ := not_stops goesOn
        have more := derives.spent_lt limited known ⟨current, _, standing, free, found⟩
        have atMost := next.spent_le ids limit
        omega
      exact .goesOn (fun next turn => last (.turn turn)) fun seed seeds => last (.seed seeds)
  | succ depth ih =>
      intro mode steps snapshot left
      have later {mode : Mode} {steps : Nat} {next : Snapshot S} (derives : engine.Derives snapshot next) :
          engine.Shallow (depth + 1) mode steps next := by
        by_cases stops : engine.Stops steps next
        · exact .stops stops
        · obtain ⟨current, standing, free, found⟩ := not_stops stops
          have more := derives.spent_lt limited known ⟨current, _, standing, free, found⟩
          exact ih _ _ next (by omega)
      exact .goesOn (fun next turn => later (.turn turn)) fun seed seeds => later (.seed seeds)

end

/-- Snapshots that loops come to from the first one, and how many forks deep their loops are. -/
inductive Reaches (engine : Engine W S) (first : Snapshot S) : (nesting : Nat) → Mode → Snapshot S → Prop where
  | here : Reaches engine first 0 .root first
  | turn {nesting : Nat} {mode : Mode} {snapshot next : Snapshot S}
      (reaches : Reaches engine first nesting mode snapshot) (turn : engine.Turn mode snapshot next) :
      Reaches engine first nesting mode next
  | seed {nesting : Nat} {mode : Mode} {snapshot seed : Snapshot S}
      (reaches : Reaches engine first nesting mode snapshot) (seeds : engine.Seeds mode snapshot seed) :
      Reaches engine first (nesting + 1) .branch seed

/-- Whatever is answered, forks never nest deeper than this. -/
def NestsWithin (engine : Engine W S) (most : Nat) (first : Snapshot S) : Prop :=
  ∀ nesting mode snapshot, engine.Reaches first nesting mode snapshot → nesting ≤ most

theorem steps_of_guard {steps : Nat} {snapshot : Snapshot S} {current : NodeId}
    (free : guardFault engine.config steps snapshot current = none) : steps ≤ engine.config.maxSteps := by
  simp only [guardFault] at free
  split at free
  · cases free
  · omega

/-- A loop has at most the steps that are left to it, and each of its branches the whole number again. -/
theorem shallow_of_nesting {first : Snapshot S} {most : Nat} (nests : engine.NestsWithin most first)
    (depth : Nat) : ∀ (nesting : Nat) (mode : Mode) (steps : Nat) (snapshot : Snapshot S),
      engine.Reaches first nesting mode snapshot →
      (most - nesting) * (engine.config.maxSteps + 1) + (engine.config.maxSteps + 1 - steps) ≤ depth →
        engine.Shallow depth mode steps snapshot := by
  induction depth with
  | zero =>
      intro nesting mode steps snapshot _ few
      refine .stops ?_
      by_contra goesOn
      obtain ⟨current, _, free, _⟩ := not_stops goesOn
      have atMost := steps_of_guard free
      omega
  | succ depth ih =>
      intro nesting mode steps snapshot reaches few
      by_cases stops : engine.Stops steps snapshot
      · exact .stops stops
      · obtain ⟨current, _, free, _⟩ := not_stops stops
        have atMost := steps_of_guard free
        refine .goesOn (fun next turn => ?_) fun seed seeds => ?_
        · exact ih nesting mode (steps + 1) next (.turn reaches turn) (by omega)
        · have deeper := nests _ _ _ (.seed reaches seeds)
          refine ih (nesting + 1) .branch 0 seed (.seed reaches seeds) ?_
          obtain ⟨less, same⟩ : ∃ less, most - nesting = less + 1 := ⟨most - nesting - 1, by omega⟩
          have one : most - (nesting + 1) = less := by omega
          rw [same, Nat.succ_mul] at few
          rw [one]
          omega

end Engine
end FlowGraph
