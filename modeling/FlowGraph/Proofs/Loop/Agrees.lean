import FlowGraph.Proofs.Loop.Steady

/-!
The loop of a steady engine, on snapshots that are alike. The conclusion of a fork, its branches in sequence and
each turn of the loop agree, and so do the outcomes of all that settles without waiting.
-/

namespace FlowGraph
variable {W S : Type} {same : Instant → Instant → Prop}

namespace Join
variable {join other : Join S}

structure Alike (same : Instant → Instant → Prop) (join other : Join S) : Prop where
  forkNode : join.forkNode = other.forkNode
  total : join.total = other.total
  defaultTimeout : join.defaultTimeout = other.defaultTimeout
  terms : join.terms = other.terms
  joined : List.Forall₂ (JoinedBranch.Alike same) join.joined other.joined

theorem alike_start (forkNode : NodeId) (total : Nat) (defaultTimeout : Option Span) :
    (Join.start (S := S) forkNode total defaultTimeout).Alike same (.start forkNode total defaultTimeout) :=
  ⟨rfl, rfl, rfl, rfl, .nil⟩

theorem Alike.isSatisfied (alike : join.Alike same other) : join.isSatisfied = other.isSatisfied := by
  simp only [Join.isSatisfied, alike.terms, alike.total, alike.joined.length_eq]

theorem Alike.expired (alike : join.Alike same other) (elapsed : Nat) :
    join.expired elapsed = other.expired elapsed := by
  simp only [Join.expired, Join.timeout, alike.terms, alike.defaultTimeout, alike.forkNode]

theorem Alike.record (alike : join.Alike same other) (branch : NodeId) {outcome another : Outcome S}
    (outcomes : outcome.Alike same another) :
    Paired (Outcome.Alike same) (Join.Alike same) (join.record branch outcome) (other.record branch another) := by
  cases outcomes with
  | completed last => exact .error (.completed last)
  | suspended last => exact .error (.suspended last)
  | failed last => exact .error (.failed last)
  | @joined node _ _ snapshot another last =>
      have added : List.Forall₂ (JoinedBranch.Alike same) (join.joined ++ [⟨branch, node, snapshot⟩])
          (other.joined ++ [⟨branch, node, another⟩]) :=
        List.rel_append alike.joined (.cons ⟨rfl, rfl, last⟩ .nil)
      cases fixed : other.terms with
      | none =>
          simp only [Join.record, alike.terms, fixed]
          exact .ok { alike with terms := rfl, joined := added }
      | some terms =>
          simp only [Join.record, alike.terms, fixed]
          by_cases here : terms.node = node
          · rw [if_pos here, if_pos here]
            exact .ok { alike with terms := alike.terms.trans fixed ▸ rfl, joined := added }
          · rw [if_neg here, if_neg here, last.currentNode]
            exact .error (.failed (.some last))

end Join

namespace Engine
variable {engine : Engine W S} {clock : Nat → Readings} {now : Nat}

/-- How a fork goes on at the join, given what its merger answered. -/
def conclusion (base : Snapshot S) (node : NodeId) (joined : List (JoinedBranch S))
    (answer : Attempt (Except Error (Merged S))) (readings : Readings) : Except (Outcome S) (Snapshot S) :=
  match reconcile base node joined answer readings with
  | .ok snapshot => .ok snapshot
  | .error error => .error (.failed error (some base))

theorem conclude_joined (engine : Engine W S) (request : ForkRequest S) {join : Join S} {terms : JoinTerms}
    (fixed : join.terms = some terms) (next : Snapshot S → Program W (Outcome S)) :
    engine.conclude request join next =
      .call (engine.merger request.base join.joined) fun answer => .clock fun readings =>
        .unlessEnded (conclusion request.base terms.node join.joined answer readings) next := by
  simp only [conclude, fixed]
  congr 1
  funext answer
  congr 1
  funext readings
  simp only [conclusion]
  cases reconcile request.base terms.node join.joined answer readings <;> rfl

theorem conclusion_alike (blurred : Instant.Blurred same) {base other : Snapshot S}
    (bases : base.Alike same other) (node : NodeId) {joined others : List (JoinedBranch S)}
    (branches : List.Forall₂ (JoinedBranch.Alike same) joined others)
    (answer : Attempt (Except Error (Merged S))) {readings later : Readings} (times : readings.Alike same later) :
    Paired (Outcome.Alike same) (Snapshot.Alike same) (conclusion base node joined answer readings)
      (conclusion other node others answer later) := by
  have fails (error : Error) : Outcome.Alike same (.failed error (some base)) (.failed error (some other)) :=
    .failed (.some bases)
  rcases answer with panic | error | merged
  · exact .error (fails _)
  · exact .error (fails _)
  · have positions := bases.position
    simp only [conclusion, reconcile]
    generalize base.position = here at positions
    generalize other.position = there at positions
    cases positions with
    | none => exact .error (fails _)
    | some pair => exact .ok (reconciled_alike blurred bases pair branches node merged times)

variable {request : ForkRequest S} {base : Snapshot S} {next again : Snapshot S → Program W (Outcome S)}

theorem Steady.conclude (blurred : Instant.Blurred same) (steady : engine.Steady same)
    (times : ∀ asked later, (clock asked).Alike same (clock later)) (bases : request.base.Alike same base)
    {join other : Join S} (joins : join.Alike same other)
    (rest : ∀ snapshot other, snapshot.Alike same other →
      Program.Agrees clock now (Outcome.Alike same) (next snapshot) (again other)) :
    Program.Agrees clock now (Outcome.Alike same) (engine.conclude request join next)
      (engine.conclude { request with base } other again) := by
  cases fixed : join.terms with
  | none =>
      simp only [Engine.conclude, fixed, joins.terms ▸ fixed]
      exact Program.agrees_done (.failed (.some bases))
  | some terms =>
      rw [engine.conclude_joined request fixed, engine.conclude_joined _ (joins.terms ▸ fixed)]
      refine Program.agrees_call fun answer found gives givesToo => ?_
      obtain rfl := steady.merger _ _ _ _ bases joins.joined _ _ gives givesToo
      refine Program.agrees_clock fun asked later => ?_
      exact Program.agrees_unlessEnded
        (conclusion_alike blurred bases terms.node joins.joined answer (times asked later)) rest

theorem inSequence_agrees (blurred : Instant.Blurred same)
    (times : ∀ asked later, (clock asked).Alike same (clock later)) (bases : request.base.Alike same base)
    {branch : Snapshot S → Program W (Outcome S)}
    (branches : ∀ snapshot other, snapshot.Alike same other →
      Program.Agrees clock now (Outcome.Alike same) (branch snapshot) (branch other))
    {next again : Join S → Program W (Outcome S)}
    (rest : ∀ join other, join.Alike same other →
      Program.Agrees clock now (Outcome.Alike same) (next join) (again other))
    (started : Nat) (targets : List NodeId) : ∀ {join other : Join S}, join.Alike same other →
      Program.Agrees clock now (Outcome.Alike same) (inSequence branch request started next join targets)
        (inSequence branch { request with base } started again other targets) := by
  induction targets with
  | nil => exact fun joins => rest _ _ joins
  | cons target later ih =>
      intro join other joins
      simp only [inSequence, joins.isSatisfied]
      split
      · exact rest _ _ joins
      refine Program.agrees_clock fun asked after => ?_
      have seeds := bases.moveTo blurred target (times asked after 0 0)
      refine (branches _ _ seeds).bind fun outcome another outcomes => ?_
      have recorded := joins.record target outcomes
      generalize join.record target outcome = heard at recorded
      generalize other.record target another = heardToo at recorded
      cases recorded with
      | error ending => exact Program.agrees_done ending
      | ok joins =>
          refine Program.agrees_time ?_
          simp only [joins.expired]
          split
          · exact Program.agrees_done (.failed (.some bases))
          · exact ih joins

theorem submit_waits {next : List NodeId → Program W (Outcome S)} {outcome : Outcome S}
    (waits : ∀ taken, ¬(next taken).MaySettle clock now outcome) (targets : List NodeId) :
    ¬(engine.submit next targets).MaySettle clock now outcome := by
  induction targets generalizing next with
  | nil => exact waits []
  | cons target rest ih =>
      rintro ⟨world, may⟩
      exact ih (fun taken => waits _) may

theorem Steady.fork (blurred : Instant.Blurred same) (steady : engine.Steady same)
    (times : ∀ asked later, (clock asked).Alike same (clock later)) (bases : request.base.Alike same base)
    {branch : Snapshot S → Program W (Outcome S)}
    (branches : ∀ snapshot other, snapshot.Alike same other →
      Program.Agrees clock now (Outcome.Alike same) (branch snapshot) (branch other))
    (rest : ∀ snapshot other, snapshot.Alike same other →
      Program.Agrees clock now (Outcome.Alike same) (next snapshot) (again other)) (allowance : Nat) :
    Program.Agrees clock now (Outcome.Alike same) (engine.fork branch allowance request next)
      (engine.fork branch allowance { request with base } again) := by
  refine Program.agrees_time ?_
  simp only
  split
  · exact inSequence_agrees blurred times bases branches
      (fun join other joins => steady.conclude blurred times bases joins rest) now request.targets
      (Join.alike_start _ _ _)
  all_goals
    rintro outcome another ⟨asked, may⟩
    refine absurd may (submit_waits (fun taken => ?_) request.targets)
    exact id

theorem notify_agrees {notice notices : Notice S} {program other : Program W (Outcome S)}
    (rest : Program.Agrees clock now (Outcome.Alike same) program other) :
    Program.Agrees clock now (Outcome.Alike same) (engine.notify notice program)
      (engine.notify notices other) :=
  Program.agrees_call fun _ _ _ _ => rest

theorem guardFault_alike {snapshot other : Snapshot S} (alike : snapshot.Alike same other)
    (config : ExecutionConfig) (steps : Nat) (current : NodeId) :
    guardFault config steps snapshot current = guardFault config steps other current := by
  simp only [guardFault, alike.visitCount]

theorem Steady.drive (blurred : Instant.Blurred same) (steady : engine.Steady same)
    (times : ∀ asked later, (clock asked).Alike same (clock later)) (allowance : Nat) :
    ∀ (mode : Mode) (steps : Nat) (snapshot other : Snapshot S), snapshot.Alike same other →
      Program.Agrees clock now (Outcome.Alike same) (engine.drive allowance mode steps snapshot)
        (engine.drive allowance mode steps other) := by
  induction allowance with
  | zero => exact fun _ _ _ _ _ _ _ may => may.elim
  | succ allowance ih =>
      intro mode steps snapshot other alike
      have fails (error : Error) : Program.Agrees clock now (Outcome.Alike same)
          (failed error snapshot : Program W (Outcome S)) (failed error other) :=
        Program.agrees_done (.failed (.some alike))
      simp only [Engine.drive, alike.currentNode]
      cases standing : other.currentNode with
      | none => exact fails _
      | some current =>
          simp only [guardFault_alike alike]
          split
          · exact fails _
          split
          · exact fails _
          rename_i node found
          have known := Topology.mem_nodes_of_node? found
          refine notify_agrees ?_
          rw [steady.timers]
          refine Program.agrees_perform ((steady.nodes node known).lifecycle alike) fun reply answered => ?_
          cases reply with
          | error error => exact fails error
          | ok command =>
              have steadily := (node.lifecycle_answers none (steady.nodes node known).commands snapshot).of_mayEnd
                answered
              refine notify_agrees (Program.agrees_clock fun asked later => ?_)
              refine Program.agrees_attempt (steady.apply blurred mode current alike steadily (times asked later))
                fun step another steps => ?_
              cases steps with
              | proceed nexts => exact notify_agrees (ih mode _ _ _ nexts)
              | finish outcomes => exact Program.agrees_done outcomes
              | fork bases =>
                  exact steady.fork blurred times bases (ih .branch 0)
                    (fun next after nexts => notify_agrees (ih mode _ next after nexts)) allowance

end Engine
end FlowGraph
