import Mathlib.Tactic.ByContra
import FlowGraph.Program.Scheduler
import FlowGraph.Proofs.Program.Follows

/-!
What running a program until it waits does to a machine. It adds strands of its branches and leaves all others
alone; where it waits, and where its branches begin, it is further down its own tree.
-/

namespace FlowGraph
variable {W R : Type}

/-- The program may come to wait there, or it may launch a branch that does. -/
inductive Program.Leads : Program W R → Wait W R → Prop where
  | sleep (millis : Nat) (next : Unit → Program W R) : Leads (.sleep millis next) (.resting next)
  | receive (channel interval : Nat) (next : Delivery R → Program W R) :
      Leads (.receive channel interval next) (.listening channel next)
  | launch (names : List NodeId) (branch : Nat → NodeId → Program W R) (next : Nat → Program W R)
      (place : Nat) {name : NodeId} (member : name ∈ names) :
      Leads (.launch names branch next) (.resting fun _ => branch place name)
  | called {β : Type} {effect : Effect W β} {next : β → Program W R} {wait : Wait W R} {value : β}
      (gives : effect.Gives value) (leads : Leads (next value) wait) : Leads (.call effect next) wait
  | told {next : Readings → Program W R} {wait : Wait W R} (readings : Readings)
      (leads : Leads (next readings) wait) : Leads (.clock next) wait
  | slept {millis : Nat} {next : Unit → Program W R} {wait : Wait W R} (leads : Leads (next ()) wait) :
      Leads (.sleep millis next) wait
  | launched {names : List NodeId} {branch : Nat → NodeId → Program W R} {next : Nat → Program W R}
      {wait : Wait W R} (channel : Nat) (leads : Leads (next channel) wait) :
      Leads (.launch names branch next) wait
  | received {channel interval : Nat} {next : Delivery R → Program W R} {wait : Wait W R}
      (delivery : Delivery R) (leads : Leads (next delivery) wait) :
      Leads (.receive channel interval next) wait

namespace Wait

inductive Opens : Wait W R → Program W R → Prop where
  | resting (next : Unit → Program W R) : Opens (.resting next) (next ())
  | listening (channel : Nat) (next : Delivery R → Program W R) (delivery : Delivery R) :
      Opens (.listening channel next) (next delivery)

/-- Where a strand, or a branch that it has launched, may wait next. -/
def After (later wait : Wait W R) : Prop := ∃ program, wait.Opens program ∧ program.Leads later

theorem acc_of_leads (program : Program W R) : ∀ wait, program.Leads wait → Acc After wait := by
  induction program with
  | done result =>
      rintro wait ⟨⟩
  | call effect next ih =>
      rintro wait ⟨⟩
      exact ih _ _ ‹_›
  | clock next ih =>
      rintro wait ⟨⟩
      exact ih _ _ ‹_›
  | sleep millis next ih =>
      rintro wait (_ | _)
      · refine ⟨_, ?_⟩
        rintro later ⟨program, ⟨⟩, leads⟩
        exact ih () later leads
      · exact ih () _ ‹_›
  | launch names branch next branchIh ih =>
      rintro wait (_ | _)
      · rename_i place name _
        refine ⟨_, ?_⟩
        rintro later ⟨program, ⟨⟩, leads⟩
        exact branchIh place name later leads
      · exact ih _ _ ‹_›
  | receive channel interval next ih =>
      rintro wait (_ | _)
      · refine ⟨_, ?_⟩
        rintro later ⟨program, ⟨⟩, leads⟩
        exact ih _ later leads
      · exact ih _ _ ‹_›
  | broken panic =>
      rintro wait ⟨⟩
  | never =>
      rintro wait ⟨⟩
  | exhausted =>
      rintro wait ⟨⟩

theorem wellFounded_after : WellFounded (After (W := W) (R := R)) := by
  refine ⟨fun wait => ⟨wait, ?_⟩⟩
  rintro later ⟨program, _, leads⟩
  exact acc_of_leads program later leads

end Wait

def Strand.sendsTo (channel : Nat) (strand : Strand W R) : Bool :=
  match strand.owner with
  | .main => false
  | .branch other _ => other = channel

namespace Machine

/-- Nothing has arrived on the channel, but something still may. -/
def Awaited (machine : Machine W R) (channel : Nat) : Prop :=
  (machine.mailbox channel).reports = [] ∧ (machine.mailbox channel).senders ≠ 0

theorem awaited_of_take? {machine : Machine W R} {channel : Nat} (nothing : machine.take? channel = none) :
    machine.Awaited channel := by
  simp only [take?] at nothing
  split at nothing
  · cases nothing
  · rename_i empty
    refine ⟨empty, fun nobody => ?_⟩
    rw [if_pos nobody] at nothing
    cases nothing

theorem Awaited.opened {machine : Machine W R} {channel : Nat} (awaited : machine.Awaited channel) :
    channel < machine.mailboxes.length := by
  by_contra beyond
  refine awaited.2 ?_
  rw [mailbox, List.getElem?_eq_none (by omega)]
  rfl

theorem mailbox_launched {machine : Machine W R} {channel : Nat} (names : List NodeId)
    (branch : Nat → NodeId → Program W R) (known : channel < machine.mailboxes.length) :
    (machine.launched names branch).mailbox channel = machine.mailbox channel := by
  simp only [mailbox, launched, List.getElem?_append_left known]

theorem mailbox_setMailbox {machine : Machine W R} {channel : Nat} (other : Nat) (mailbox : Mailbox R)
    (known : channel < machine.mailboxes.length) :
    (machine.setMailbox channel mailbox).mailbox other =
      if other = channel then mailbox else machine.mailbox other := by
  simp only [Machine.mailbox, setMailbox, List.getElem?_set, known, ↓reduceIte]
  by_cases same : other = channel
  · subst same
    simp
  · simp [same, Ne.symm same]

theorem eq_of_mem_branchStrands {channel : Nat} {branch : Nat → NodeId → Program W R} (names : List NodeId) :
    ∀ place, ∀ strand ∈ branchStrands channel branch place names, ∃ place, ∃ name ∈ names,
      strand = ⟨.branch channel name, .resting fun _ => branch place name⟩ := by
  induction names with
  | nil =>
      intro place strand member
      cases member
  | cons name others ih =>
      intro place strand member
      rcases List.mem_cons.mp member with rfl | later
      · exact ⟨place, name, List.mem_cons_self, rfl⟩
      · obtain ⟨place, other, among, same⟩ := ih _ strand later
        exact ⟨place, other, List.mem_cons_of_mem _ among, same⟩

theorem mem_branchStrands {channel : Nat} {branch : Nat → NodeId → Program W R} (names : List NodeId)
    (place : Nat) (strand : Strand W R) (member : strand ∈ branchStrands channel branch place names) :
    isMain strand = false ∧ ∃ place, ∃ name ∈ names, strand.wait = .resting fun _ => branch place name := by
  obtain ⟨place, name, among, rfl⟩ := eq_of_mem_branchStrands names place strand member
  exact ⟨rfl, place, name, among, rfl⟩

theorem countP_branchStrands (channel : Nat) (branch : Nat → NodeId → Program W R) (names : List NodeId) :
    ∀ place, (branchStrands channel branch place names).countP (Strand.sendsTo channel) =
      names.length := by
  induction names with
  | nil =>
      intro place
      rfl
  | cons name others ih =>
      intro place
      rw [branchStrands, List.countP_cons, ih]
      simp [Strand.sendsTo]

/-- What a program has done to a machine when it waits or ends: its branches are ready, everything else
about strands and their timers is as before, and mailboxes have at most lost reports. `leads` tells where
the program and its branches may wait. -/
structure Ran (leads : Wait W R → Prop) (before : Machine W R) (halt : Halt W R) (after : Machine W R) :
    Prop where
  time : after.time = before.time
  parked : after.parked = before.parked
  held : after.held = before.held
  adds : ∃ added, after.ready = before.ready ++ added ∧
    (∀ strand ∈ added, isMain strand = false ∧ leads strand.wait) ∧
    ∀ channel, (after.mailbox channel).senders ≤
      (before.mailbox channel).senders + added.countP (Strand.sendsTo channel)
  awaited : ∀ channel, before.Awaited channel → after.Awaited channel
  waits : ∀ wait deadline, halt = .parked wait deadline → leads wait
  listens : ∀ channel next deadline, halt = .parked (.listening channel next) deadline →
    after.Awaited channel

namespace Ran
variable {leads more : Wait W R → Prop} {before middle after : Machine W R} {halt : Halt W R}

theorem here (waits : ∀ wait deadline, halt = .parked wait deadline → leads wait)
    (listens : ∀ channel next deadline, halt = .parked (.listening channel next) deadline →
      before.Awaited channel) : Ran leads before halt before :=
  ⟨rfl, rfl, rfl, ⟨[], by simp⟩, fun _ awaited => awaited, waits, listens⟩

theorem goOn (ran : Ran leads middle halt after) (implies : ∀ wait, leads wait → more wait)
    (time : middle.time = before.time) (parked : middle.parked = before.parked)
    (held : middle.held = before.held) (new : List (Strand W R))
    (ready : middle.ready = before.ready ++ new)
    (branches : ∀ strand ∈ new, isMain strand = false ∧ more strand.wait)
    (senders : ∀ channel, (middle.mailbox channel).senders ≤
      (before.mailbox channel).senders + new.countP (Strand.sendsTo channel))
    (awaited : ∀ channel, before.Awaited channel → middle.Awaited channel) :
    Ran more before halt after := by
  obtain ⟨added, readied, others, fewer⟩ := ran.adds
  refine ⟨ran.time.trans time, ran.parked.trans parked, ran.held.trans held, ⟨new ++ added, ?_, ?_, ?_⟩,
    fun channel waiting => ran.awaited channel (awaited channel waiting),
    fun wait deadline same => implies wait (ran.waits wait deadline same), ran.listens⟩
  · rw [readied, ready, List.append_assoc]
  · intro strand member
    rcases List.mem_append.mp member with first | second
    · exact branches strand first
    · exact ⟨(others strand second).1, implies _ (others strand second).2⟩
  · intro channel
    have now := fewer channel
    have then_ := senders channel
    rw [List.countP_append]
    omega

theorem same (ran : Ran leads middle halt after) (implies : ∀ wait, leads wait → more wait)
    (unchanged : ∃ world asked, middle = { before with world, asked }) : Ran more before halt after := by
  obtain ⟨world, asked, rfl⟩ := unchanged
  exact ran.goOn implies rfl rfl rfl [] (List.append_nil _).symm (by simp)
    (fun channel => Nat.le_add_right _ _) fun _ awaited => awaited

theorem received {channel : Nat} {delivery : Delivery R} (ran : Ran leads middle halt after)
    (implies : ∀ wait, leads wait → more wait)
    (taken : before.take? channel = some (delivery, middle)) : Ran more before halt after := by
  simp only [take?] at taken
  split at taken
  · rename_i branch result reports waiting
    have known : channel < before.mailboxes.length := by
      by_contra beyond
      rw [mailbox, List.getElem?_eq_none (by omega)] at waiting
      cases waiting
    cases taken
    refine ran.goOn implies rfl rfl rfl [] (List.append_nil _).symm (by simp) ?_ ?_
    · intro other
      rw [mailbox_setMailbox other _ known]
      split
      · rename_i same
        subst same
        exact Nat.le_add_right _ _
      · exact Nat.le_add_right _ _
    · intro other awaited
      rw [Awaited, mailbox_setMailbox other _ known]
      split
      · rename_i same
        subst same
        rw [awaited.1] at waiting
        cases waiting
      · exact awaited
  · split at taken
    · cases taken
      exact ran.same implies ⟨_, _, rfl⟩
    · cases taken

theorem launching {names : List NodeId} {branch : Nat → NodeId → Program W R}
    (ran : Ran leads (before.launched names branch) halt after)
    (implies : ∀ wait, leads wait → more wait)
    (begins : ∀ place, ∀ name ∈ names, more (.resting fun _ => branch place name)) : Ran more before halt after := by
  refine ran.goOn implies rfl rfl rfl _ rfl ?_ ?_ ?_
  · intro strand member
    obtain ⟨branchOnly, place, name, among, same⟩ := mem_branchStrands names 0 strand member
    exact ⟨branchOnly, same ▸ begins place name among⟩
  · intro channel
    by_cases known : channel < before.mailboxes.length
    · rw [mailbox_launched names branch known]
      exact Nat.le_add_right _ _
    · by_cases new : channel = before.mailboxes.length
      · subst new
        have opened : (before.launched names branch).mailbox before.mailboxes.length =
            ⟨[], names.length⟩ := by
          simp [mailbox, launched]
        rw [opened, countP_branchStrands]
        exact Nat.le_add_left _ _
      · have unknown : (before.launched names branch).mailbox channel = ⟨[], 0⟩ := by
          rw [mailbox, launched, List.getElem?_eq_none (by simp; omega)]
          rfl
        rw [unknown]
        exact Nat.zero_le _
  · intro channel awaited
    rwa [Awaited, mailbox_launched names branch awaited.opened]

end Ran

theorem advance_ran (clock : Nat → Readings) (program : Program W R) : ∀ machine : Machine W R,
    Ran program.Leads machine (advance clock program machine).1 (advance clock program machine).2 := by
  induction program with
  | done result =>
      intro machine
      exact .here (by rintro _ _ ⟨⟩) (by rintro _ _ _ ⟨⟩)
  | call effect next ih =>
      intro machine
      exact (ih _ _).same (fun _ leads => .called ⟨_, _, rfl⟩ leads) ⟨_, _, rfl⟩
  | clock next ih =>
      intro machine
      exact (ih _ _).same (fun _ leads => .told _ leads) ⟨_, _, rfl⟩
  | sleep millis next ih =>
      intro machine
      simp only [advance]
      split
      · exact (ih () machine).same (fun _ leads => .slept leads) ⟨_, _, rfl⟩
      · refine .here ?_ (by rintro _ _ _ ⟨⟩)
        rintro wait deadline ⟨⟩
        exact .sleep millis next
  | launch names branch next _ ih =>
      intro machine
      exact (ih _ _).launching (fun _ leads => .launched _ leads) fun place _ member =>
        .launch names branch next place member
  | receive channel interval next ih =>
      intro machine
      simp only [advance]
      split
      · rename_i taken
        exact (ih _ _).received (fun _ leads => .received _ leads) taken
      · rename_i nothing
        refine .here ?_ ?_
        · rintro wait deadline ⟨⟩
          exact .receive channel interval next
        · rintro other rest deadline ⟨⟩
          exact awaited_of_take? nothing
  | broken panic =>
      intro machine
      exact .here (by rintro _ _ ⟨⟩) (by rintro _ _ _ ⟨⟩)
  | never =>
      intro machine
      exact .here (by rintro _ _ ⟨⟩) (by rintro _ _ _ ⟨⟩)
  | exhausted =>
      intro machine
      exact .here (by rintro _ _ ⟨⟩) (by rintro _ _ _ ⟨⟩)

theorem resume_ran (clock : Nat → Readings) (wait : Wait W R) (machine : Machine W R) :
    Ran (fun later => later.After wait) machine (resume clock wait machine).1
      (resume clock wait machine).2 := by
  cases wait with
  | resting next =>
      exact (advance_ran clock (next ()) machine).same (fun _ leads => ⟨_, .resting next, leads⟩)
        ⟨_, _, rfl⟩
  | listening channel next =>
      simp only [resume]
      split
      · rename_i delivery middle taken
        exact (advance_ran clock (next delivery) middle).received
          (fun _ leads => ⟨_, .listening channel next delivery, leads⟩) taken
      · exact (advance_ran clock (next .quiet) machine).same
          (fun _ leads => ⟨_, .listening channel next .quiet, leads⟩) ⟨_, _, rfl⟩

end Machine
end FlowGraph
