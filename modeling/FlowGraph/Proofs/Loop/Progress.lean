import FlowGraph.Proofs.Loop.Ends
import FlowGraph.Proofs.Snapshot.History

/-!
Loops only go forward. Whatever a command asks for, the snapshot behind it continues the one before; a turn
advances it, also when a fork is merged, for each branch has gone on from the snapshot of its fork.
-/

namespace FlowGraph

def Outcome.snapshot? {S : Type} : Outcome S → Option (Snapshot S)
  | .completed snapshot => some snapshot
  | .suspended suspension => some suspension.snapshot
  | .failed _ snapshot => snapshot
  | .joined _ _ _ snapshot => some snapshot

namespace Engine
variable {W S : Type} {engine : Engine W S} {mode : Mode} {snapshot : Snapshot S}

/-- What a step keeps of the snapshot that its command answers. -/
inductive StepKeeps (snapshot : Snapshot S) : Step S → Prop where
  | proceed {next : Snapshot S} {target : NodeId} (advances : snapshot.Advances next)
      (moves : next.trace = snapshot.trace ++ [target]) (keys : snapshot.KeepsKeys next) :
      StepKeeps snapshot (.proceed next)
  | finish {outcome : Outcome S} (stands : ∀ last, outcome.snapshot? = some last →
      snapshot.Continues last ∧ last.position = snapshot.position) : StepKeeps snapshot (.finish outcome)
  | fork {request : ForkRequest S} (continues : snapshot.Continues request.base)
      (keys : snapshot.KeepsKeys request.base) (stands : request.base.position = snapshot.position) :
      StepKeeps snapshot (.fork request)

section
variable (snapshot) (updates : Context) (data : Option S) (readings : Readings)

theorem withUpdates_stands :
    snapshot.Continues (withUpdates snapshot updates data readings) ∧
      (withUpdates snapshot updates data readings).position = snapshot.position :=
  ⟨snapshot.withUpdates_continues updates data readings, position_withUpdates snapshot updates data readings⟩

theorem repositioned_keeps (target : NodeId) {move : Position → Position} (now : Instant)
    (visits : ∀ position, (move position).visited = position.visited ++ [target]) :
    StepKeeps snapshot
      (.proceed ((withUpdates snapshot updates data readings).reposition target move now)) := by
  obtain ⟨continues, stands⟩ := withUpdates_stands snapshot updates data readings
  have advances := (withUpdates snapshot updates data readings).reposition_advances now visits
  have moved := (withUpdates snapshot updates data readings).trace_reposition now visits
  rw [Snapshot.trace_of_position stands] at moved
  refine .proceed (continues.advances advances) moved
    ((snapshot.withUpdates_keepsKeys updates data readings).trans (.of_context ?_))
  exact Snapshot.context_reposition _ _ _ now

end

theorem failed_keeps {error : Error} {last : Snapshot S} (continues : snapshot.Continues last)
    (stands : last.position = snapshot.position) :
    StepKeeps snapshot (.finish (.failed error (some last))) := by
  refine .finish ?_
  rintro _ ⟨⟩
  exact ⟨continues, stands⟩

theorem apply_keeps {current : NodeId} {command : Command S} {readings : Readings} {step : Step S}
    (applied : engine.apply mode current snapshot command readings = .ok step) :
    StepKeeps snapshot step := by
  have updated (data : Option S) := withUpdates_stands snapshot command.updates data readings
  have finished {outcome : Outcome S} (data : Option S) (last : outcome.snapshot? =
      some (withUpdates snapshot command.updates data readings)) : StepKeeps snapshot (.finish outcome) := by
    refine .finish fun other found => ?_
    rw [last] at found
    cases found
    exact updated data
  cases applied_of_apply applied with
  | moved =>
      exact repositioned_keeps snapshot _ _ readings _ _ fun position => position.visited_traverse _ _ _
  | recovered => exact repositioned_keeps snapshot _ none readings _ _ fun position => position.visited_moveTo _
  | @forked _ _ _ _ data =>
      exact .fork (updated data).1 (snapshot.withUpdates_keepsKeys _ data readings) (updated data).2
  | shut | unselected | unforked | unjoined => exact failed_keeps (.refl snapshot) rfl
  | @unchosen _ _ _ data | @joined _ _ _ data | @completed data => exact finished data rfl
  | suspended | stranded | reported => exact finished none rfl

theorem Answers.keeps {step : Step S} (answers : engine.Answers mode snapshot step) :
    StepKeeps snapshot step := by
  obtain ⟨_, _, _, _, _, _, _, _, _, applied⟩ := answers
  exact apply_keeps applied

theorem Answers.base {request : ForkRequest S} (answers : engine.Answers mode snapshot (.fork request)) :
    snapshot.Continues request.base ∧ snapshot.KeepsKeys request.base ∧
      request.base.position = snapshot.position := by
  cases answers.keeps with
  | fork continues keys stands => exact ⟨continues, keys, stands⟩

theorem Answers.advances {next : Snapshot S} (answers : engine.Answers mode snapshot (.proceed next)) :
    snapshot.Advances next := by
  cases answers.keeps with
  | proceed advances _ _ => exact advances

theorem moveTo_advances (snapshot : Snapshot S) (target : NodeId) (time : Instant) :
    snapshot.Advances (snapshot.moveTo target time) :=
  snapshot.reposition_advances time fun position => position.visited_moveTo target

theorem Ends.continues {outcome : Outcome S} (ends : engine.Ends mode snapshot outcome) :
    ∀ last, outcome.snapshot? = some last → snapshot.Continues last := by
  induction ends with
  | stopped mode snapshot error =>
      rintro last ⟨⟩
      exact .refl snapshot
  | finished answers =>
      intro last found
      cases answers.keeps with
      | finish stands => exact (stands last found).1
  | moved answers _ ih =>
      intro last found
      exact answers.advances.toContinues.trans (ih last found)
  | unjoined answers error =>
      rintro last ⟨⟩
      exact answers.base.1
  | branchEnded answers _ _ _ ih =>
      intro last found
      exact (answers.base.1.trans (moveTo_advances _ _ _).toContinues).trans (ih last found)
  | astray answers _ _ error ih =>
      rintro last ⟨⟩
      exact (answers.base.1.trans (moveTo_advances _ _ _).toContinues).trans (ih _ rfl)
  | rejoined answers _ _ _ _ standing _ _ ih =>
      intro last found
      exact (answers.base.1.trans (advances_reconciled standing _ _ _).toContinues).trans (ih last found)

section
variable {request : ForkRequest S} {node : NodeId} {joined : List (JoinedBranch S)} {next : Snapshot S}

theorem MayJoin.branch (joins : engine.MayJoin request node joined) {branch : JoinedBranch S}
    (member : branch ∈ joined) : branch.joinNode = node ∧
      ∃ policy timeout, engine.Reported request branch.branch (.joined node policy timeout branch.snapshot) := by
  obtain ⟨_, reports, agreed, reported⟩ := joins
  have both := agreed.joins
  clear agreed
  induction both with
  | nil => cases member
  | @cons report joined _ _ joinsAt _ ih =>
      rcases List.mem_cons.mp member with rfl | later
      · obtain ⟨policy, timeout, rfl, same⟩ := joinsAt
        exact ⟨same, policy, timeout, reported _ List.mem_cons_self⟩
      · exact ih later fun report among => reported report (List.mem_cons_of_mem _ among)

theorem MayJoin.somebody (joins : engine.MayJoin request node joined) : joined ≠ [] := by
  obtain ⟨_, reports, agreed, _⟩ := joins
  rintro rfl
  exact agreed.ne_nil (List.forall₂_nil_right_iff.mp agreed.joins)

theorem Reported.walk {target : NodeId} {outcome : Outcome S} {last : Snapshot S}
    (reported : engine.Reported request target outcome) (found : outcome.snapshot? = some last) :
    ∃ walk, walk ≠ [] ∧ last.trace = request.base.trace ++ walk := by
  obtain ⟨_, time, ends⟩ := reported
  obtain ⟨walk, moved, begins⟩ := (moveTo_advances request.base target time).moves
  obtain ⟨rest, same⟩ := (ends.continues last found).history
  exact ⟨walk ++ rest, by simp [moved], by rw [← same, begins, List.append_assoc]⟩

/-- If the fork goes on, it does so with the whole history, whatever its merger has answered. -/
theorem MayJoin.keepsHistory (joins : engine.MayJoin request node joined)
    {answer : Attempt (Except Error (Merged S))} {readings : Readings}
    (settled : reconcile request.base node joined answer readings = .ok next) :
    KeepsHistory request.base joined node next := by
  rcases answer with panic | error | merged
  · cases settled
  · cases settled
  · simp only [reconcile] at settled
    split at settled
    · cases settled
    · rename_i position standing
      cases settled
      refine keepsHistory_reconciled standing joins.somebody (fun branch member => ?_) node merged readings
      obtain ⟨_, _, _, reported⟩ := joins.branch member
      exact reported.walk rfl

theorem Rejoins.keepsHistory (rejoins : engine.Rejoins request node joined next) :
    KeepsHistory request.base joined node next := by
  obtain ⟨merged, position, readings, _, standing, rfl⟩ := rejoins.merged
  have settled : reconcile request.base node joined (.ok (.ok merged)) readings =
      .ok (reconciled request.base position node joined merged readings) := by
    simp only [reconcile, standing]
  exact rejoins.joins.keepsHistory settled

theorem Rejoins.advances (rejoins : engine.Rejoins request node joined next) : request.base.Advances next := by
  obtain ⟨merged, position, readings, _, standing, rfl⟩ := rejoins.merged
  exact advances_reconciled standing node merged readings

theorem Rejoins.keepsKeys (merger : engine.merger = .lastWriterWins)
    (rejoins : engine.Rejoins request node joined next) : request.base.KeepsKeys next := by
  obtain ⟨merged, position, readings, ⟨time, world, gives⟩, _, rfl⟩ := rejoins.merged
  rw [merger] at gives
  cases gives
  intro name known
  have merges : ∀ (branches : List (JoinedBranch S)) (context : Context), context.contains name = true →
      (branches.foldl (fun context joined => context.merge joined.snapshot.context) context).contains name =
        true := by
    intro branches
    induction branches with
    | nil => exact fun _ holds => holds
    | cons first rest ih =>
        intro context holds
        exact ih _ (by rw [Snapshot.contains_merge, holds, Bool.or_true])
  exact merges joined request.base.context known

end

theorem Turn.advances {next : Snapshot S} (turn : engine.Turn mode snapshot next) :
    snapshot.Advances next := by
  cases turn with
  | moved answers => exact answers.advances
  | rejoined answers rejoins => exact answers.base.1.advances rejoins.advances

theorem Turn.keepsKeys (merger : engine.merger = .lastWriterWins) {next : Snapshot S}
    (turn : engine.Turn mode snapshot next) : snapshot.KeepsKeys next := by
  cases turn with
  | moved answers =>
      cases answers.keeps with
      | proceed _ _ keys => exact keys
  | rejoined answers rejoins => exact answers.base.2.1.trans (rejoins.keepsKeys merger)

end Engine
end FlowGraph
