import FlowGraph.Proofs.Fork.Rounds
import FlowGraph.Proofs.Loop.Follows

/-!
Loops that end. If no chain of snapshots goes on for more than so many turns and branches, a loop with a larger
allowance follows a program that waits in vain for nobody's report twice: its outline, which does not depend on
the allowance.
-/

namespace FlowGraph
variable {W S : Type}

namespace Node

/-- Whatever the processor is given and whatever the world answers, it comes to an end. -/
def Returns (node : Node W S) : Prop := ∀ snapshot, (node.process snapshot).Returns

theorem guarded_returns {α : Type} (effect : Effect W (Attempt α))
    {next : α → Activity W (Except Error (Command S))} (returns : ∀ value, (next value).Returns) :
    (guarded effect next).Returns := by
  rintro (panic | value) _
  · trivial
  · exact returns value

theorem validated_returns (node : Node W S) (snapshot : Snapshot S)
    {next : Activity W (Except Error (Command S))} (returns : next.Returns) :
    (node.validated snapshot next).Returns := by
  unfold validated
  split
  · exact returns
  · refine guarded_returns _ ?_
    rintro (error | accepted)
    · trivial
    · exact returns

theorem prepared_returns (node : Node W S) (snapshot : Snapshot S)
    {next : Activity W (Except Error (Command S))} (returns : next.Returns) :
    (node.prepared snapshot next).Returns := by
  unfold prepared
  split
  · exact returns
  · exact guarded_returns _ fun _ => returns

theorem concluded_returns (node : Node W S) (snapshot : Snapshot S) (reply : Except Error (Command S)) :
    (node.concluded snapshot reply).Returns := by
  unfold concluded
  cases reply <;> simp only <;> split
  · trivial
  · exact guarded_returns _ fun _ => trivial
  · trivial
  · exact guarded_returns _ fun _ => trivial

theorem Returns.lifecycle {node : Node W S} (returns : node.Returns) (timers : Option String)
    (snapshot : Snapshot S) : (node.lifecycle timers snapshot).Returns := by
  refine node.validated_returns snapshot (node.prepared_returns snapshot (Activity.Returns.bind ?_ ?_))
  · refine Activity.Returns.contained ?_ timers Reply.broken
    exact (returns snapshot).bind fun _ => trivial
  · rintro (reply | panic)
    · exact node.concluded_returns snapshot reply
    · trivial

end Node

namespace Engine
variable {engine : Engine W S}

theorem Mirrors.refl {patience : Option Nat}
    (returns : patience ≠ none → ∀ id node, engine.topology.node? id = some node → node.Returns) :
    engine.Mirrors patience Eq engine where
  config := rfl
  timers := rfl
  apply _ _ _ _ _ := rfl
  nodes id := by
    cases found : engine.topology.node? id with
    | none => exact .none
    | some node =>
        refine .some fun snapshot => Activity.Follows.refl _ fun calm => ?_
        exact (returns calm id node found).lifecycle engine.timers snapshot
  observer notice _ := .refl _
  executor := .refl _
  merger _ _ _ := .refl _

theorem listening_eq (request : ForkRequest S) (started channel : Nat) (join : Join S)
    (collect other : Join S → Program W (Outcome S)) :
    engine.listening request started channel join collect = fun now =>
      if (join.expired (now - started)).isSome then
        engine.listening request started channel join other now
      else .receive channel engine.config.pollInterval (heard request join collect) := by
  funext now
  unfold listening
  cases join.expired (now - started) <;> rfl

theorem gather_again (timers : engine.timers = none) (request : ForkRequest S) (started channel : Nat)
    (next : Join S → Program W (Outcome S)) (room : Nat) {join : Join S} (waits : join.isSatisfied = false) :
    engine.gather request started channel next (room + 2) join = .time fun now =>
      if (join.expired (now - started)).isSome then
        engine.listening request started channel join (engine.gather request started channel next room) now
      else .receive channel engine.config.pollInterval
        (heard request join (engine.gather request started channel next (room + 1))) := by
  rw [gather_waiting timers request started channel next (room + 1) waits,
    listening_eq request started channel join _ (engine.gather request started channel next room)]

/-- Waiting for the reports of a fork with an allowance, and with room for the reports alone. -/
theorem gather_awaits {mode : Mode} {snapshot : Snapshot S} {request : ForkRequest S}
    {protocol : Protocol (Outcome S)} (answers : engine.Answers mode snapshot (.fork request))
    (started channel : Nat) {next otherNext : Join S → Program W (Outcome S)}
    (known : protocol channel = some (engine.Reported request)) (allowance : Nat) :
    ∀ (count room : Nat) (join : Join S), count < allowance → 0 < room →
      join.total + 2 ≤ room + join.joined.length → join.Records (engine.Reported request) →
      (∀ less ≤ count, ∀ join : Join S, join.Records (engine.Reported request) →
        Program.Follows (some engine.config.pollInterval) Eq less protocol (engine.Comes mode snapshot)
          (next join) (otherNext join)) →
      Program.Follows (some engine.config.pollInterval) Eq count protocol (engine.Comes mode snapshot)
        (engine.gather request started channel next allowance join)
        (engine.gather request started channel otherNext room join) := by
  induction allowance with
  | zero =>
      intro count room join few
      cases few
  | succ allowance ih =>
      intro count room join few positive roomy records rest
      obtain ⟨room, rfl⟩ := Nat.exists_eq_add_of_le' positive
      cases waits : join.isSatisfied with
      | true =>
          rw [gather_satisfied waits, gather_satisfied waits]
          exact rest count (Nat.le_refl _) join records
      | false =>
          have more : 0 < room := by
            rcases records.room waits with nobody | fewer
            · rw [nobody, List.length_nil] at roomy
              omega
            · omega
          have quiet (less : Nat) (smaller : less < count) := ih less (room + 1) join (by omega) positive roomy
            records fun fewer le => rest fewer (by omega)
          obtain ⟨room, rfl⟩ := Nat.exists_eq_add_of_le' more
          cases timers : engine.timers with
          | some text =>
              simp only [gather, waits, timers, Bool.false_eq_true, ↓reduceIte]
              refine .time fun now => ?_
              cases join.expired (now - started) with
              | some error => exact failed_follows (.unjoined answers error)
              | none => exact .broken trivial
          | none =>
              rw [gather_again timers request started channel otherNext room waits] at quiet
              rw [gather_waiting timers request started channel next allowance waits,
                gather_waiting timers request started channel otherNext (room + 1) waits]
              refine .time fun now => ?_
              unfold listening
              cases join.expired (now - started) with
              | some error => exact failed_follows (.unjoined answers error)
              | none =>
                  refine .await rfl (Nat.lt_of_lt_of_le Nat.zero_lt_one (Nat.le_max_right _ _)) known
                    (failed_follows (.unjoined answers _)) ?_
                    (gather_waiting timers request started channel otherNext room waits) quiet
                  intro less smaller branch outcome reported
                  cases recorded : join.record branch outcome with
                  | error ending =>
                      rw [heard_refused recorded, heard_refused recorded]
                      exact .done (ends_of_record answers records reported recorded)
                  | ok joined =>
                      obtain ⟨stillRecords, total, length⟩ := records.next reported recorded
                      rw [heard_recorded recorded, heard_recorded recorded]
                      exact ih less (room + 1) joined (by omega) (by omega) (by omega) stillRecords
                        fun fewer le => rest fewer (by omega)

theorem gathersFollow_awaits {mode : Mode} {snapshot : Snapshot S} {request : ForkRequest S}
    (answers : engine.Answers mode snapshot (.fork request)) {count allowance : Nat} (few : count < allowance) :
    GathersFollow (some engine.config.pollInterval) Eq engine engine mode snapshot request count allowance
      (request.targets.length + 2) := by
  intro started channel protocol next otherNext known rest
  exact gather_awaits answers started channel known allowance count _ _ few (Nat.zero_lt_succ _)
    (Nat.le_refl _) (.blank rfl rfl) rest

/-- The loop does not execute another node. -/
def Stops (engine : Engine W S) (steps : Nat) (snapshot : Snapshot S) : Prop :=
  ∀ current, snapshot.currentNode = some current →
    guardFault engine.config (steps + 1) snapshot current = none → engine.topology.node? current = none

/-- No chain of turns and branches goes on from the snapshot for more than `depth` nodes. `steps` counts the
nodes that its loop has executed before. -/
inductive Shallow (engine : Engine W S) : (depth : Nat) → Mode → (steps : Nat) → Snapshot S → Prop where
  | stops {depth : Nat} {mode : Mode} {steps : Nat} {snapshot : Snapshot S}
      (stops : engine.Stops steps snapshot) : Shallow engine depth mode steps snapshot
  | goesOn {depth : Nat} {mode : Mode} {steps : Nat} {snapshot : Snapshot S}
      (onward : ∀ next, engine.Turn mode snapshot next → Shallow engine depth mode (steps + 1) next)
      (branches : ∀ seed, engine.Seeds mode snapshot seed → Shallow engine depth .branch 0 seed) :
      Shallow engine (depth + 1) mode steps snapshot

theorem Stops.turn {steps : Nat} {snapshot : Snapshot S} (stops : engine.Stops steps snapshot) (mode : Mode) :
    ∃ error, ∀ room branch onward,
      engine.turn room branch onward mode steps snapshot = failed error snapshot := by
  unfold Engine.turn
  cases standing : snapshot.currentNode with
  | none => exact ⟨_, fun _ _ _ => rfl⟩
  | some current =>
      simp only
      cases guarded : guardFault engine.config (steps + 1) snapshot current with
      | some error => exact ⟨error, fun _ _ _ => rfl⟩
      | none =>
          simp only [stops current standing guarded]
          exact ⟨_, fun _ _ _ => rfl⟩

/-- A loop that cannot go on forever follows its outline as long as it has more allowance than it can use. -/
theorem Shallow.outline (returns : ∀ id node, engine.topology.node? id = some node → node.Returns)
    {depth : Nat} {mode : Mode} {steps : Nat} {snapshot : Snapshot S}
    (shallow : engine.Shallow depth mode steps snapshot) :
    ∃ outline, ∀ (count allowance : Nat) (protocol : Protocol (Outcome S)), count + depth < allowance →
      Program.Follows (some engine.config.pollInterval) Eq count protocol (engine.Comes mode snapshot)
        (engine.drive allowance mode steps snapshot) outline := by
  induction shallow with
  | @stops depth mode steps snapshot stops =>
      obtain ⟨error, same⟩ := stops.turn mode
      refine ⟨failed error snapshot, fun count allowance protocol enough => ?_⟩
      obtain ⟨allowance, rfl⟩ := Nat.exists_eq_add_of_le' (Nat.lt_of_le_of_lt (Nat.zero_le _) enough)
      rw [drive_succ, same]
      exact failed_follows (.stopped mode snapshot error)
  | @goesOn depth mode steps snapshot _ _ onwardIh branchesIh =>
      have onwards : ∀ next, ∃ outline, engine.Turn mode snapshot next → _ := fun next => by
        by_cases turn : engine.Turn mode snapshot next
        · obtain ⟨outline, follows⟩ := onwardIh next turn
          exact ⟨outline, fun _ => follows⟩
        · exact ⟨.never, fun reached => (turn reached).elim⟩
      have seeded : ∀ seed, ∃ outline, engine.Seeds mode snapshot seed → _ := fun seed => by
        by_cases seeds : engine.Seeds mode snapshot seed
        · obtain ⟨outline, follows⟩ := branchesIh seed seeds
          exact ⟨outline, fun _ => follows⟩
        · exact ⟨.never, fun reached => (seeds reached).elim⟩
      choose onward later using onwards
      choose branch begins using seeded
      refine ⟨engine.turn (fun request => request.targets.length + 2) branch onward mode steps snapshot,
        fun count allowance protocol enough => ?_⟩
      obtain ⟨allowance, rfl⟩ := Nat.exists_eq_add_of_le' (Nat.lt_of_le_of_lt (Nat.zero_le _) enough)
      rw [drive_succ]
      refine (Mirrors.refl fun _ => returns).turn ?_ ?_ ?_
      · intro request answers
        exact gathersFollow_awaits answers (by omega)
      · intro request answers target member time
        exact begins _ (.started answers member rfl) count allowance .closed (by omega)
      · intro next turn less smaller wide _
        exact later next turn less allowance wide (by omega)

end Engine
end FlowGraph
