import Mathlib.Logic.Function.Iterate
import FlowGraph.Proofs.Program.Lives
import FlowGraph.Proofs.Program.Rounds

/-!
Every strand of a run lives along a transcript with times. Time moves on only when no strand can run, and then to
the next timer, so no strand is taken up later than its answer is due.
-/

namespace FlowGraph
variable {W R ρ : Type}

namespace Program

/-- When the programs of a run begin: this one at once, and the branches of each when it launches them. -/
inductive Begins (root : Program W R) : (birth : Nat) → Program W R → Prop where
  | root : Begins root 0 root
  | branch {birth time place : Nat} {origin : Program W R} {history : List (TimedAnswer W R)} {names : List NodeId}
      {branch : Nat → NodeId → Program W R} {next : Nat → Program W R} {name : NodeId}
      (begins : Begins root birth origin) (lives : Lives birth origin history time (.launch names branch next))
      (among : name ∈ names) : Begins root time (branch place name)

/-- A program of the run has come here at this time. -/
def Reaches (root : Program W R) (time : Nat) (reached : Program W R) : Prop :=
  ∃ birth origin history, root.Begins birth origin ∧ Lives birth origin history time reached

theorem Begins.reaches {root origin : Program W R} {birth : Nat} (begins : root.Begins birth origin) :
    root.Reaches birth origin := ⟨birth, origin, [], begins, .still birth origin⟩

theorem Reaches.onward {root reached final : Program W R} {time later : Nat} {history : List (TimedAnswer W R)}
    (reaches : root.Reaches time reached) (lives : Lives time reached history later final) :
    root.Reaches later final := by
  obtain ⟨birth, origin, before, begins, first⟩ := reaches
  exact ⟨birth, origin, before ++ history, begins, first.append lives⟩

theorem Reaches.launches {root : Program W R} {time place : Nat} {names : List NodeId}
    {branch : Nat → NodeId → Program W R} {next : Nat → Program W R} {name : NodeId}
    (reaches : root.Reaches time (.launch names branch next)) (among : name ∈ names) :
    root.Reaches time (branch place name) := by
  obtain ⟨_, _, _, begins, lives⟩ := reaches
  exact (begins.branch lives among).reaches

end Program

namespace Wait

/-- The program has asked at one time for what the strand waits for, and the answer can come at the other. -/
inductive Awaits (asked : Nat) : (time : Nat) → Wait W R → Program W R → Prop where
  | fresh (program : Program W R) : Awaits asked asked (.resting fun _ => program) program
  | sleep (millis : Nat) (next : Unit → Program W R) :
      Awaits asked (asked + millis) (.resting next) (.sleep millis next)
  | receive {time interval : Nat} (channel : Nat) (next : Delivery R → Program W R) (after : asked ≤ time)
      (inTime : time ≤ asked + interval) :
      Awaits asked time (.listening channel next) (.receive channel interval next)

theorem Awaits.le_due {asked time : Nat} {wait : Wait W R} {program : Program W R}
    (awaits : wait.Awaits asked time program) : time ≤ program.due asked := by
  cases awaits with
  | fresh program => cases program <;> simp [Program.due]
  | sleep millis next => exact Nat.le_refl _
  | receive channel next after inTime => exact inTime

/-- A program of the run has asked for this by now, and its answer can come at `time`. -/
def Chronicled (root : Program W R) (now time : Nat) (wait : Wait W R) : Prop :=
  ∃ asked reached, root.Reaches asked reached ∧ asked ≤ now ∧ wait.Awaits asked time reached

theorem chronicled_fresh {root program : Program W R} {now : Nat} (reaches : root.Reaches now program) :
    Chronicled root now now (.resting fun _ => program) :=
  ⟨now, program, reaches, Nat.le_refl now, .fresh program⟩

variable {root : Program W R} {now later time : Nat} {wait : Wait W R}

theorem Chronicled.mono (chronicled : wait.Chronicled root now time) (moved : now ≤ later) :
    wait.Chronicled root later time := by
  obtain ⟨asked, reached, reaches, before, awaits⟩ := chronicled
  exact ⟨asked, reached, reaches, Nat.le_trans before moved, awaits⟩

theorem Chronicled.early {channel : Nat} {next : Delivery R → Program W R}
    (chronicled : Chronicled root now time (.listening channel next)) (before : now ≤ time) :
    Chronicled root now now (.listening channel next) := by
  obtain ⟨asked, reached, reaches, after, awaits⟩ := chronicled
  cases awaits with
  | receive _ _ _ inTime =>
      exact ⟨asked, _, reaches, after, .receive channel next after (Nat.le_trans before inTime)⟩

theorem Chronicled.delivered {channel : Nat} {next : Delivery R → Program W R}
    (chronicled : Chronicled root now time (.listening channel next)) (delivery : Delivery R) :
    root.Reaches time (next delivery) := by
  obtain ⟨asked, reached, reaches, _, awaits⟩ := chronicled
  cases awaits with
  | receive _ _ after inTime => exact reaches.onward (.receive after inTime (.still time _))

theorem Chronicled.rested {next : Unit → Program W R} (chronicled : Chronicled root now time (.resting next)) :
    root.Reaches time (next ()) := by
  obtain ⟨asked, reached, reaches, _, awaits⟩ := chronicled
  cases awaits with
  | fresh _ => exact reaches
  | sleep millis _ => exact reaches.onward (.sleep (.still _ _))

end Wait

/-- The strand has lived since its program began, and what it has asked for is not overdue. -/
def Strand.Alive (root : Program W R) (now : Nat) (strand : Strand W R) : Prop :=
  ∃ birth origin history asked reached, root.Begins birth origin ∧
    Program.Lives birth origin history asked reached ∧ (∃ time, strand.wait.Awaits asked time reached) ∧
      asked ≤ now ∧ now ≤ reached.due asked

def Halt.Chronicled (root : Program W R) (now : Nat) : Halt W R → Prop
  | .settled result => root.Reaches now (.done result)
  | .broken panic => root.Reaches now (.broken panic)
  | .parked wait deadline => now ≤ deadline ∧ wait.Chronicled root now deadline
  | .gone => root.Reaches now .never
  | .exhausted => root.Reaches now .exhausted

namespace Machine

/-- Every strand waits for what a program of the run has asked for. Who is awake has the answer now, who is parked
has it when the timer fires, which is still to come. -/
structure Chronicled (root : Program W R) (machine : Machine W R) : Prop where
  ready : ∀ strand ∈ machine.ready, strand.wait.Chronicled root machine.time machine.time
  held : ∀ strand, machine.held = some strand → strand.wait.Chronicled root machine.time machine.time
  parked : ∀ parked ∈ machine.parked,
    machine.time ≤ parked.deadline ∧ parked.strand.wait.Chronicled root machine.time parked.deadline

variable {root : Program W R} {machine : Machine W R}

theorem chronicled_start (world : W) (root : Program W R) : (start world root).Chronicled root := by
  refine ⟨?_, by simp [start], by simp [start]⟩
  intro strand member
  cases List.mem_singleton.mp member
  exact Wait.chronicled_fresh Program.Begins.root.reaches

/-- A program that has been reached goes on to what it halts at, and so do the branches that it launches. -/
theorem advance_chronicled (clock : Nat → Readings) (program : Program W R) : ∀ machine : Machine W R,
    root.Reaches machine.time program →
      (advance clock program machine).1.Chronicled root machine.time ∧
        ∀ strand ∈ (advance clock program machine).2.ready,
          strand ∈ machine.ready ∨ strand.wait.Chronicled root machine.time machine.time := by
  induction program with
  | done result =>
      intro machine reaches
      exact ⟨reaches, fun _ => .inl⟩
  | call effect next ih =>
      intro machine reaches
      have onward : root.Reaches machine.time (next (effect machine.time machine.world).1) :=
        reaches.onward (.call (.still _ _))
      exact ih _ { machine with world := (effect machine.time machine.world).2 } onward
  | clock next ih =>
      intro machine reaches
      have onward : root.Reaches machine.time (next (clock machine.asked)) := reaches.onward (.clock (.still _ _))
      exact ih _ { machine with asked := machine.asked + 1 } onward
  | sleep millis next ih =>
      intro machine reaches
      simp only [advance]
      split
      · rename_i atOnce
        subst atOnce
        exact ih () machine (reaches.onward (.sleep (.still _ _)))
      · exact ⟨⟨Nat.le_add_right _ _, machine.time, _, reaches, Nat.le_refl _, .sleep millis next⟩, fun _ => .inl⟩
  | launch names branch next _ ih =>
      intro machine reaches
      have onward : root.Reaches machine.time (next machine.mailboxes.length) :=
        reaches.onward (.launch (.still _ _))
      obtain ⟨halts, others⟩ := ih _ (machine.launched names branch) onward
      refine ⟨halts, fun strand member => ?_⟩
      rcases others strand member with before | new
      · rcases List.mem_append.mp before with old | launched
        · exact .inl old
        · obtain ⟨place, name, among, rfl⟩ := eq_of_mem_branchStrands names 0 strand launched
          exact .inr (Wait.chronicled_fresh (reaches.launches among))
      · exact .inr new
  | receive channel interval next ih =>
      intro machine reaches
      have listens : Wait.Chronicled root machine.time machine.time (.listening channel next) :=
        ⟨machine.time, _, reaches, Nat.le_refl _,
          .receive channel next (Nat.le_refl _) (Nat.le_add_right _ interval)⟩
      simp only [advance]
      split
      · rename_i delivery after taken
        have onward := listens.delivered delivery
        rcases take?_cases taken with ⟨_, rfl⟩ | ⟨_, _, _, _, _, _, rfl⟩
        · exact ih _ _ onward
        · exact ih _ { machine with mailboxes := _ } onward
      · refine ⟨⟨Nat.le_add_right _ _, machine.time, _, reaches, Nat.le_refl _, ?_⟩, fun _ => .inl⟩
        exact .receive channel next (Nat.le_add_right _ _) (Nat.le_refl _)
  | broken panic =>
      intro machine reaches
      exact ⟨reaches, fun _ => .inl⟩
  | never =>
      intro machine reaches
      exact ⟨reaches, fun _ => .inl⟩
  | exhausted =>
      intro machine reaches
      exact ⟨reaches, fun _ => .inl⟩

theorem resume_chronicled (clock : Nat → Readings) {wait : Wait W R} (machine : Machine W R)
    (chronicled : wait.Chronicled root machine.time machine.time) :
    (resume clock wait machine).1.Chronicled root machine.time ∧
      ∀ strand ∈ (resume clock wait machine).2.ready,
        strand ∈ machine.ready ∨ strand.wait.Chronicled root machine.time machine.time := by
  cases wait with
  | resting next => exact advance_chronicled clock _ machine chronicled.rested
  | listening channel next =>
      simp only [resume]
      split
      · rename_i delivery after taken
        have onward := chronicled.delivered delivery
        rcases take?_cases taken with ⟨_, rfl⟩ | ⟨_, _, _, _, _, _, rfl⟩
        · exact advance_chronicled clock _ _ onward
        · exact advance_chronicled clock _ { machine with mailboxes := _ } onward
      · exact advance_chronicled clock _ machine (chronicled.delivered .quiet)

theorem time_awaken (attached : Bool) (machine : Machine W R) (woken : Strand W R) :
    (machine.awaken attached woken).time = machine.time := by
  unfold awaken
  split <;> rfl

namespace Chronicled

theorem awaken (chronicled : machine.Chronicled root) (attached : Bool) {woken : Strand W R}
    (answered : woken.wait.Chronicled root machine.time machine.time) :
    (machine.awaken attached woken).Chronicled root := by
  unfold Machine.awaken
  split
  · refine ⟨chronicled.ready, ?_, chronicled.parked⟩
    rintro strand ⟨⟩
    exact answered
  · refine ⟨fun strand member => ?_, chronicled.held, chronicled.parked⟩
    rcases List.mem_append.mp member with old | new
    · exact chronicled.ready strand old
    · cases List.mem_singleton.mp new
      exact answered

theorem awakenAll (attached : Bool) (woken : List (Parked W R)) : ∀ {machine : Machine W R},
    machine.Chronicled root →
      (∀ parked ∈ woken, parked.strand.wait.Chronicled root machine.time machine.time) →
        (woken.foldl (fun machine parked => machine.awaken attached parked.strand) machine).Chronicled root := by
  induction woken with
  | nil =>
      intro machine chronicled _
      exact chronicled
  | cons first rest ih =>
      intro machine chronicled answered
      refine ih (chronicled.awaken attached (answered first List.mem_cons_self)) ?_
      rw [time_awaken]
      exact fun parked member => answered parked (List.mem_cons_of_mem _ member)

theorem awakenListeners (chronicled : machine.Chronicled root) (attached : Bool) (channel : Nat) :
    (machine.awakenListeners attached channel).Chronicled root := by
  simp only [Machine.awakenListeners, List.partition_eq_filter_filter]
  refine awakenAll attached _ ⟨chronicled.ready, chronicled.held, ?_⟩ ?_
  · exact fun parked member => chronicled.parked parked (List.mem_filter.mp member).1
  · rintro ⟨⟨owner, wait⟩, deadline⟩ member
    obtain ⟨among, listens⟩ := List.mem_filter.mp member
    obtain ⟨before, answered⟩ := chronicled.parked _ among
    cases wait with
    | resting next => cases listens
    | listening other next => exact answered.early before

theorem ended (chronicled : machine.Chronicled root) (attached : Bool) (channel : Nat)
    (report : Option (NodeId × R)) : (machine.ended attached channel report).Chronicled root := by
  have posted (mailbox : Mailbox R) : (machine.setMailbox channel mailbox).Chronicled root :=
    ⟨chronicled.ready, chronicled.held, chronicled.parked⟩
  simp only [Machine.ended]
  split
  · exact (posted _).awakenListeners attached channel
  · exact posted _

theorem placed (chronicled : machine.Chronicled root) (attached : Bool) (close : R → Effect W ρ) (owner : Owner)
    {halt : Halt W R} (halts : halt.Chronicled root machine.time) :
    (machine.placed attached close owner halt).Chronicled root := by
  cases halt with
  | parked wait deadline =>
      refine ⟨chronicled.ready, chronicled.held, fun parked member => ?_⟩
      rcases List.mem_append.mp member with old | new
      · exact chronicled.parked parked old
      · cases List.mem_singleton.mp new
        exact halts
  | settled result =>
      cases owner with
      | main => exact ⟨chronicled.ready, chronicled.held, chronicled.parked⟩
      | branch channel name => exact chronicled.ended attached channel (some (name, result))
  | broken panic =>
      cases owner with
      | main => exact chronicled
      | branch channel name => exact chronicled.ended attached channel none
  | gone => exact chronicled
  | exhausted => exact chronicled

theorem jump (chronicled : machine.Chronicled root) (empty : machine.ready = []) (nobody : machine.held = none)
    {attached : Bool} {after : Machine W R} (jumped : machine.jump attached = some after) :
    after.Chronicled root := by
  simp only [Machine.jump, List.partition_eq_filter_filter, Option.map_eq_some_iff] at jumped
  obtain ⟨time, soonest, rfl⟩ := jumped
  obtain ⟨⟨first, among, fires⟩, least⟩ := earliest_spec soonest
  have moved : machine.time ≤ time := fires ▸ (chronicled.parked first among).1
  refine ⟨?_, ?_, ?_⟩
  · intro strand member
    simp only [empty, List.nil_append] at member
    have isDue : strand ∈ (machine.parked.filter fun parked => decide (parked.deadline ≤ time)).map
        Parked.strand := by
      cases attached with
      | false => exact member
      | true => exact (List.filter_append_perm isMain _).mem_iff.mp member
    obtain ⟨parked, due, rfl⟩ := List.mem_map.mp isDue
    obtain ⟨here, passed⟩ := List.mem_filter.mp due
    have now : parked.deadline = time := Nat.le_antisymm (of_decide_eq_true passed) (least parked here)
    have waits := (chronicled.parked parked here).2.mono moved
    rwa [now] at waits
  · intro strand back
    rw [nobody] at back
    cases back
  · intro parked member
    have here := (List.mem_filter.mp member).1
    exact ⟨least parked here, (chronicled.parked parked here).2.mono moved⟩

theorem turn (chronicled : machine.Chronicled root) {strand : Strand W R} {ready : List (Strand W R)}
    (queue : machine.ready = strand :: ready) (clock : Nat → Readings) :
    (resume clock strand.wait { machine with ready }).1.Chronicled root machine.time ∧
      (resume clock strand.wait { machine with ready }).2.Chronicled root := by
  have rest : ∀ other ∈ ready, other.wait.Chronicled root machine.time machine.time :=
    fun other member => chronicled.ready other (queue ▸ List.mem_cons_of_mem _ member)
  obtain ⟨halts, readied⟩ := resume_chronicled clock { machine with ready }
    (chronicled.ready strand (queue ▸ List.mem_cons_self))
  have ran := resume_ran clock strand.wait { machine with ready }
  refine ⟨halts, ?_, ?_, ?_⟩
  · intro other member
    rw [ran.time]
    exact (readied other member).elim (rest other) id
  · rw [ran.held, ran.time]
    exact chronicled.held
  · rw [ran.parked, ran.time]
    exact chronicled.parked

theorem round (chronicled : machine.Chronicled root) (attached : Bool) (clock : Nat → Readings)
    (close : R → Effect W ρ) : (machine.round attached clock close).Chronicled root := by
  cases queue : machine.ready with
  | cons strand ready =>
      rw [round_ready attached clock close queue]
      obtain ⟨halts, others⟩ := chronicled.turn queue clock
      refine others.placed attached close strand.owner ?_
      rwa [(resume_ran clock strand.wait { machine with ready }).time]
  | nil =>
      simp only [Machine.round, queue]
      cases back : machine.held with
      | some strand =>
          refine ⟨fun other member => ?_, by simp, chronicled.parked⟩
          cases List.mem_singleton.mp member
          exact chronicled.held strand back
      | none =>
          cases jumped : machine.jump attached with
          | none => exact chronicled
          | some after => exact chronicled.jump queue back jumped

end Chronicled

/-- Whatever the strands of a machine have gone through, they are where a program of the run can be by then. -/
theorem chronicled_rounds (attached : Bool) (clock : Nat → Readings) (close : R → Effect W ρ) (world : W)
    (root : Program W R) (rounds : Nat) :
    ((round attached clock close)^[rounds] (start world root)).Chronicled root := by
  induction rounds with
  | zero => exact chronicled_start world root
  | succ rounds ih =>
      rw [Function.iterate_succ_apply']
      exact ih.round attached clock close

theorem Chronicled.alive (chronicled : machine.Chronicled root) {strand : Strand W R}
    (member : strand ∈ machine.strands) : strand.Alive root machine.time := by
  have of_wait (time : Nat) (before : machine.time ≤ time)
      (waits : strand.wait.Chronicled root machine.time time) : strand.Alive root machine.time := by
    obtain ⟨asked, reached, ⟨birth, origin, history, begins, lives⟩, after, awaits⟩ := waits
    exact ⟨birth, origin, history, asked, reached, begins, lives, ⟨time, awaits⟩, after,
      Nat.le_trans before awaits.le_due⟩
  simp only [strands, List.mem_append, List.mem_map, Option.mem_toList] at member
  rcases member with (ready | ⟨parked, among, rfl⟩) | held
  · exact of_wait machine.time (Nat.le_refl _) (chronicled.ready strand ready)
  · obtain ⟨before, waits⟩ := chronicled.parked parked among
    exact of_wait parked.deadline before waits
  · exact of_wait machine.time (Nat.le_refl _) (chronicled.held strand held)

end Machine
end FlowGraph
