import FlowGraph.Proofs.Fork.Decision
import FlowGraph.Proofs.Fork.Rounds
import FlowGraph.Proofs.Loop.Agrees
import FlowGraph.Proofs.Program.Turns

/-!
What a fork makes of the reports of all its branches while time stands still. Both loops hear one report after the
other until the join is satisfied or ended; in sequence the branches still have to run, and on a channel the reports
are there already. What is heard decides how the fork goes on.
-/

namespace FlowGraph
variable {W S : Type} {same : Instant → Instant → Prop}

def Outcome.Timely (outcome : Outcome S) : Prop :=
  ∀ node policy timeout snapshot, outcome = .joined node policy (some timeout) snapshot → 0 < timeout.toNanos

namespace Join
variable {join : Join S}

/-- Records reports until the join is satisfied, or one of them is the end of the fork. -/
def hear : Join S → List (BranchReport S) → Except (Outcome S) (Join S)
  | join, [] => .ok join
  | join, report :: rest =>
    if join.isSatisfied then .ok join
    else
      match join.record report.1 report.2 with
      | .error outcome => .error outcome
      | .ok join => join.hear rest

/-- The join has terms if a branch has joined, and none of its timeouts is of no length. -/
structure Sound (join : Join S) : Prop where
  fixed : join.joined ≠ [] → join.terms.isSome
  standard : ∀ timeout, join.defaultTimeout = some timeout → 0 < timeout.toNanos
  own : ∀ terms timeout, join.terms = some terms → terms.timeout = some timeout → 0 < timeout.toNanos

theorem sound_start (forkNode : NodeId) (total : Nat) {defaultTimeout : Option Span}
    (standard : ∀ timeout, defaultTimeout = some timeout → 0 < timeout.toNanos) :
    (Join.start (S := S) forkNode total defaultTimeout).Sound :=
  ⟨fun somebody => (somebody rfl).elim, standard, nofun⟩

theorem Sound.expired (sound : join.Sound) : join.expired 0 = none := by
  have positive : ∀ timeout, join.timeout = some timeout → 0 < timeout.toNanos := by
    intro timeout effective
    unfold Join.timeout at effective
    cases fixed : join.terms with
    | none =>
        rw [fixed] at effective
        exact sound.standard timeout effective
    | some terms =>
        rw [fixed] at effective
        cases own : terms.timeout with
        | none =>
            simp only [own] at effective
            exact sound.standard timeout effective
        | some given =>
            simp only [own] at effective
            exact sound.own terms timeout fixed (own.trans effective)
  unfold Join.expired
  cases effective : join.timeout with
  | none => rfl
  | some timeout =>
      have ahead := positive timeout effective
      simp only [Nat.zero_mul, if_pos ahead]

theorem Sound.record (sound : join.Sound) {branch : NodeId} {outcome : Outcome S} (timely : outcome.Timely)
    {next : Join S} (recorded : join.record branch outcome = .ok next) :
    next.Sound ∧ next.total = join.total ∧ next.joined.length = join.joined.length + 1 := by
  obtain ⟨node, policy, timeout, snapshot, terms, rfl, known, rfl⟩ := record_ok recorded
  refine ⟨⟨fun _ => rfl, sound.standard, ?_⟩, rfl, List.length_append⟩
  rintro _ given ⟨⟩ own
  rcases known with fixed | ⟨_, rfl⟩
  · exact sound.own terms given fixed own
  · exact timely node policy given snapshot (congrArg (Outcome.joined node policy · snapshot) own)

theorem Sound.isSatisfied (sound : join.Sound) (nonempty : 0 < join.total)
    (all : join.joined.length = join.total) : join.isSatisfied = true := by
  have somebody : join.joined ≠ [] := List.ne_nil_of_length_pos (all ▸ nonempty)
  obtain ⟨terms, fixed⟩ := Option.isSome_iff_exists.mp (sound.fixed somebody)
  simp only [Join.isSatisfied, fixed, terms.policy.isSatisfied_iff, all]
  exact terms.policy.needed_le nonempty

theorem hear_terms (reports : List (BranchReport S)) : ∀ {join last : Join S}, join.hear reports = .ok last →
    reports ≠ [] ∨ join.terms.isSome → last.terms.isSome := by
  induction reports with
  | nil =>
      rintro join last ⟨⟩ known
      exact known.resolve_left (fun nonempty => nonempty rfl)
  | cons report rest ih =>
      intro join last heard _
      rw [hear] at heard
      split at heard
      · rename_i satisfied
        cases heard
        unfold Join.isSatisfied at satisfied
        cases fixed : join.terms with
        | none => simp only [fixed, Bool.false_eq_true] at satisfied
        | some terms => rfl
      split at heard
      · cases heard
      · rename_i next recorded
        obtain ⟨_, _, _, _, terms, _, _, rfl⟩ := record_ok recorded
        exact ih heard (.inr rfl)

theorem hear_alike {reports others : List (BranchReport S)}
    (alike : List.Forall₂ (fun report other => report.1 = other.1 ∧ report.2.Alike same other.2) reports others) :
    ∀ {join other : Join S}, join.Alike same other →
      Paired (Outcome.Alike same) (Join.Alike same) (join.hear reports) (other.hear others) := by
  induction alike with
  | nil => exact fun joins => .ok joins
  | @cons report another _ _ first _ ih =>
      intro join other joins
      simp only [hear, joins.isSatisfied, first.1]
      split
      · exact .ok joins
      have recorded := joins.record another.1 first.2
      generalize join.record another.1 report.2 = heard at recorded
      generalize other.record another.1 another.2 = heardToo at recorded
      cases recorded with
      | error ending => exact .error ending
      | ok joins => exact ih joins

end Join

namespace Engine
variable {engine : Engine W S} {clock : Nat → Readings} {request : ForkRequest S}
  {branch : Snapshot S → Program W (Outcome S)}

def Reports (clock : Nat → Readings) (now : Nat) (branch : Snapshot S → Program W (Outcome S))
    (base : Snapshot S) (target : NodeId) (report : BranchReport S) : Prop :=
  report.1 = target ∧ report.2.Timely ∧
    ∃ asked place, (branch (base.moveTo target (clock asked place))).MaySettle clock now report.2

structure Ready (clock : Nat → Readings) (now : Nat) (branch : Snapshot S → Program W (Outcome S))
    (base : Snapshot S) (target : NodeId) : Prop where
  prompt : ∀ asked place, (branch (base.moveTo target (clock asked place))).Prompt clock now
  timely : ∀ asked place outcome,
    (branch (base.moveTo target (clock asked place))).MaySettle clock now outcome → outcome.Timely

theorem inSequence_hears (targets : List NodeId) : ∀ {join : Join S} {machine : Machine W (Outcome S)},
    join.Sound → (∀ target ∈ targets, Ready clock machine.time branch request.base target) →
      ∃ reports world asked,
        List.Forall₂ (Reports clock machine.time branch request.base) targets reports ∧
          ∀ next : Join S → Program W (Outcome S),
            Machine.advance clock (inSequence branch request machine.time next join targets) machine =
              Machine.advance clock (.unlessEnded (join.hear reports) next) { machine with world, asked } := by
  induction targets with
  | nil => exact fun _ _ => ⟨[], _, _, .nil, fun _ => rfl⟩
  | cons target rest ih =>
      intro join machine sound ready
      have first := ready target List.mem_cons_self
      have others : ∀ later ∈ rest, Ready clock machine.time branch request.base later :=
        fun later member => ready later (List.mem_cons_of_mem _ member)
      obtain ⟨outcome, world, asked, settles, runs⟩ :=
        (first.prompt machine.asked 0).advance machine.world (machine.asked + 1)
      have timely := first.timely _ _ _ settles
      have reported : Reports clock machine.time branch request.base target (target, outcome) :=
        ⟨rfl, timely, machine.asked, 0, settles⟩
      by_cases satisfied : join.isSatisfied = true
      · obtain ⟨reports, _, _, all, _⟩ := @ih join machine sound others
        refine ⟨(target, outcome) :: reports, machine.world, machine.asked, .cons reported all, fun next => ?_⟩
        rw [inSequence, if_pos satisfied, Join.hear, if_pos satisfied]
        rfl
      cases recorded : join.record target outcome with
      | error ending =>
          obtain ⟨reports, _, _, all, _⟩ := @ih join machine sound others
          refine ⟨(target, outcome) :: reports, world, asked, .cons reported all, fun next => ?_⟩
          have heard : join.hear ((target, outcome) :: reports) = .error ending := by
            rw [Join.hear, if_neg satisfied]
            simp only [recorded]
          rw [inSequence, if_neg satisfied, heard, Machine.advance, runs]
          simp only [recorded]
          rfl
      | ok later =>
          have recordedSound := (sound.record timely recorded).1
          obtain ⟨reports, view, askedLater, all, goesOn⟩ := @ih later { machine with world, asked } recordedSound
            others
          refine ⟨(target, outcome) :: reports, view, askedLater, .cons reported all, fun next => ?_⟩
          have heard : join.hear ((target, outcome) :: reports) = later.hear reports := by
            rw [Join.hear, if_neg satisfied]
            simp only [recorded]
          rw [inSequence, if_neg satisfied, heard, Machine.advance, runs]
          simp only [recorded, Program.time, Machine.advance, Nat.sub_self, recordedSound.expired]
          exact goesOn next

theorem advance_gather (timers : engine.timers = none) {join : Join S} (sound : join.Sound)
    (unsatisfied : join.isSatisfied = false) (channel : Nat) (next : Join S → Program W (Outcome S))
    (allowance : Nat) (machine : Machine W (Outcome S)) :
    Machine.advance clock (engine.gather request machine.time channel next (allowance + 1) join) machine =
      Machine.advance clock (.receive channel engine.config.pollInterval
        (heard request join (engine.gather request machine.time channel next allowance))) machine := by
  rw [gather_waiting timers request machine.time channel next allowance unsatisfied, Program.time, Machine.advance]
  simp only [listening, Nat.sub_self, sound.expired]

theorem gather_hears (timers : engine.timers = none) (boxes : List (Mailbox (Outcome S)))
    (reports : List (BranchReport S)) : ∀ {allowance : Nat} {join : Join S} {machine : Machine W (Outcome S)},
    reports.length < allowance → join.Sound → (∀ report ∈ reports, report.2.Timely) →
      join.joined.length + reports.length = join.total → 0 < join.total →
        machine.mailboxes = boxes ++ [⟨reports, 0⟩] →
          ∃ box, ∀ next : Join S → Program W (Outcome S),
            Machine.advance clock (engine.gather request machine.time boxes.length next allowance join) machine =
              Machine.advance clock (.unlessEnded (join.hear reports) next)
                { machine with mailboxes := boxes ++ [box] } := by
  induction reports with
  | nil =>
      intro allowance join machine enough sound _ all nonempty newest
      obtain ⟨allowance, rfl⟩ : ∃ less, allowance = less + 1 := Nat.exists_eq_add_of_le' enough
      have satisfied := sound.isSatisfied nonempty all
      refine ⟨⟨[], 0⟩, fun next => ?_⟩
      rw [gather_satisfied satisfied, ← newest]
      rfl
  | cons report rest ih =>
      intro allowance join machine enough sound timely all nonempty newest
      obtain ⟨allowance, rfl⟩ := Nat.exists_eq_add_of_le' (Nat.lt_of_le_of_lt (Nat.zero_le _) enough)
      by_cases satisfied : join.isSatisfied = true
      · refine ⟨⟨report :: rest, 0⟩, fun next => ?_⟩
        rw [gather_satisfied satisfied, Join.hear, if_pos satisfied, ← newest]
        rfl
      have open_ := Bool.eq_false_iff.mpr satisfied
      have looks (next : Join S → Program W (Outcome S)) :
          Machine.advance clock (engine.gather request machine.time boxes.length next (allowance + 1) join) machine =
            Machine.advance clock (.unlessEnded (join.record report.1 report.2)
              (engine.gather request machine.time boxes.length next allowance))
              { machine with mailboxes := boxes ++ [⟨rest, 0⟩] } := by
        rw [advance_gather timers sound open_, Machine.advance, Machine.take?_newest newest]
        exact congrArg (Machine.advance clock · _) (heard_report request join _ report.1 report.2)
      cases recorded : join.record report.1 report.2 with
      | error ending =>
          refine ⟨⟨rest, 0⟩, fun next => ?_⟩
          rw [looks, recorded]
          simp only [Join.hear, open_, Bool.false_eq_true, ↓reduceIte, recorded]
          rfl
      | ok later =>
          obtain ⟨laterSound, total, counted⟩ := sound.record (timely report List.mem_cons_self) recorded
          rw [List.length_cons] at all enough
          obtain ⟨box, hears⟩ := @ih allowance later { machine with mailboxes := boxes ++ [⟨rest, 0⟩] } (by omega)
            laterSound (fun other member => timely other (List.mem_cons_of_mem _ member)) (by omega) (by omega) rfl
          refine ⟨box, fun next => ?_⟩
          rw [looks, recorded]
          simp only [Join.hear, open_, Bool.false_eq_true, ↓reduceIte, recorded]
          exact hears next

end Engine
end FlowGraph
