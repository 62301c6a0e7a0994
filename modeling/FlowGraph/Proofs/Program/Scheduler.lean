import FlowGraph.Proofs.Program.Accounts

/-!
What a run does to the main program. Strands are only ever moved around, and however they take turns, the
main program goes on with answers that fit what it asks for. So a run is one of the transcripts of its
program, in which each branch that was launched reports at most once.
-/

namespace FlowGraph

section
variable {W R : Type}

/-- A property of programs and their ledgers that every answer keeps. -/
def Program.Invariant (kept : Ledger → Program W R → Prop) : Prop :=
  ∀ ledger program answer later next, kept ledger program →
    program.answer ledger answer = some (later, next) → kept later next

def Wait.Keeps (kept : Ledger → Program W R → Prop) (ledger : Ledger) : Wait W R → Prop
  | .resting next => kept ledger (next ())
  | .listening channel next => ∃ interval, kept ledger (.receive channel interval next)

def Halt.Keeps (kept : Ledger → Program W R → Prop) (ledger : Ledger) : Halt W R → Prop
  | .settled result => kept ledger (.done result)
  | .broken panic => kept ledger (.broken panic)
  | .parked wait _ => wait.Keeps kept ledger
  | .gone => True
  | .exhausted => True

namespace Machine

def strands (machine : Machine W R) : List (Strand W R) :=
  machine.ready ++ machine.parked.map Parked.strand ++ machine.held.toList

def owners (machine : Machine W R) : List Owner := machine.strands.map Strand.owner

/-- The invariant of a run: wherever the main strand waits, its program keeps the property with a ledger
for which the books are right. `atHand` owns the strand that is not with the machine at the moment. -/
def Keeps (kept : Ledger → Program W R → Prop) (atHand : List Owner) (machine : Machine W R) : Prop :=
  ∀ strand ∈ machine.strands, isMain strand = true → ∃ ledger, strand.wait.Keeps kept ledger ∧
    Accounts ledger machine.mailboxes (atHand ++ machine.owners)

theorem take?_cases {machine after : Machine W R} {channel : Nat} {delivery : Delivery R}
    (taken : machine.take? channel = some (delivery, after)) :
    (delivery = .closed ∧ after = machine) ∨
      ∃ branch result rest senders,
        (machine.mailboxes[channel]?.getD ⟨[], 0⟩).reports = (branch, result) :: rest ∧
        delivery = .report branch result ∧
        after = { machine with mailboxes := machine.mailboxes.set channel ⟨rest, senders⟩ } := by
  simp only [take?, mailbox, setMailbox] at taken
  split at taken
  · rename_i branch result rest waiting
    cases taken
    exact .inr ⟨branch, result, rest, _, waiting, rfl, rfl⟩
  · by_cases empty : (machine.mailboxes[channel]?.getD ⟨[], 0⟩).senders = 0
    · simp only [empty, ↓reduceIte] at taken
      cases taken
      exact .inl ⟨rfl, rfl⟩
    · simp only [empty, ↓reduceIte] at taken
      cases taken

theorem owners_branchStrands (channel : Nat) (branch : Nat → NodeId → Program W R)
    (names : List NodeId) : ∀ place,
      (branchStrands channel branch place names).map Strand.owner = names.map (Owner.branch channel) := by
  induction names with
  | nil =>
      intro place
      rfl
  | cons name rest ih =>
      intro place
      simp only [branchStrands, List.map_cons, ih]

theorem owners_launched (machine : Machine W R) (names : List NodeId)
    (branch : Nat → NodeId → Program W R) :
    (machine.launched names branch).owners.Perm
      (names.map (Owner.branch machine.mailboxes.length) ++ machine.owners) := by
  simp only [owners, strands, launched, List.map_append, owners_branchStrands, List.append_assoc]
  exact List.perm_append_comm_assoc _ _ _

theorem accounts_launched {ledger : Ledger} {machine : Machine W R} {owner : Owner}
    {names : List NodeId} {branch : Nat → NodeId → Program W R} {mailboxes : List (Mailbox R)}
    (accounts : Accounts ledger mailboxes
      (names.map (Owner.branch machine.mailboxes.length) ++ owner :: machine.owners)) :
    Accounts ledger mailboxes (owner :: (machine.launched names branch).owners) := by
  refine accounts.subperm (List.Perm.subperm ?_)
  exact ((owners_launched machine names branch).cons owner).trans List.perm_middle.symm

theorem advance_accounts {ledger : Ledger} {owner : Owner} (clock : Nat → Readings)
    (program : Program W R) : ∀ machine : Machine W R,
      Accounts ledger machine.mailboxes (owner :: machine.owners) →
        Accounts ledger (advance clock program machine).2.mailboxes
          (owner :: (advance clock program machine).2.owners) := by
  induction program with
  | done result =>
      intro machine accounts
      exact accounts
  | call effect next ih =>
      intro machine accounts
      exact ih _ _ accounts
  | clock next ih =>
      intro machine accounts
      exact ih _ _ accounts
  | sleep millis next ih =>
      intro machine accounts
      simp only [advance]
      split
      · exact ih () machine accounts
      · exact accounts
  | launch names branch next _ ih =>
      intro machine accounts
      exact ih _ _ (accounts_launched (accounts.launch names names.length))
  | receive channel interval next ih =>
      intro machine accounts
      simp only [advance]
      split
      · rename_i taken
        rcases take?_cases taken with ⟨_, rfl⟩ | ⟨_, _, _, senders, waiting, _, rfl⟩
        · exact ih _ _ accounts
        · exact ih _ _ (accounts.take waiting senders)
      · exact accounts
  | broken panic =>
      intro machine accounts
      exact accounts
  | never =>
      intro machine accounts
      exact accounts
  | exhausted =>
      intro machine accounts
      exact accounts

theorem mem_strands_advance (clock : Nat → Readings) (program : Program W R) :
    ∀ (machine : Machine W R), ∀ strand ∈ (advance clock program machine).2.strands,
      isMain strand = true → strand ∈ machine.strands := by
  induction program with
  | done result =>
      intro machine strand member _
      exact member
  | call effect next ih =>
      intro machine strand member main
      exact ih (effect machine.time machine.world).1
        { machine with world := (effect machine.time machine.world).2 } strand member main
  | clock next ih =>
      intro machine strand member main
      exact ih (clock machine.asked) { machine with asked := machine.asked + 1 } strand member main
  | sleep millis next ih =>
      intro machine strand member main
      simp only [advance] at member
      split at member
      · exact ih () machine strand member main
      · exact member
  | launch names branch next _ ih =>
      intro machine strand member main
      have before := ih _ _ strand member main
      simp only [strands, launched, List.mem_append] at before ⊢
      rcases before with ((ready | new) | parked) | back
      · exact .inl (.inl ready)
      · have owner := List.mem_map_of_mem (f := Strand.owner) new
        rw [owners_branchStrands] at owner
        obtain ⟨name, _, same⟩ := List.mem_map.mp owner
        simp only [isMain, ← same] at main
        cases main
      · exact .inl (.inr parked)
      · exact .inr back
  | receive channel interval next ih =>
      intro machine strand member main
      simp only [advance] at member
      split at member
      · rename_i taken
        have before := ih _ _ strand member main
        rcases take?_cases taken with ⟨_, rfl⟩ | ⟨_, _, _, _, _, _, rfl⟩
        · exact before
        · exact before
      · exact member
  | broken panic =>
      intro machine strand member _
      exact member
  | never =>
      intro machine strand member _
      exact member
  | exhausted =>
      intro machine strand member _
      exact member

variable {kept : Ledger → Program W R → Prop}

/-- A program goes on with answers that fit until it has to wait or ends. -/
theorem advance_keeps (invariant : Program.Invariant kept) (owner : Owner) (clock : Nat → Readings)
    (program : Program W R) : ∀ (machine : Machine W R) (ledger : Ledger), kept ledger program →
      Accounts ledger machine.mailboxes (owner :: machine.owners) →
        ∃ later, (advance clock program machine).1.Keeps kept later ∧
          Accounts later (advance clock program machine).2.mailboxes
            (owner :: (advance clock program machine).2.owners) := by
  induction program with
  | done result =>
      intro machine ledger holds accounts
      exact ⟨ledger, holds, accounts⟩
  | call effect next ih =>
      intro machine ledger holds accounts
      have goesOn := invariant _ _ (.called machine.time machine.world) _ _ holds rfl
      exact ih _ _ ledger goesOn accounts
  | clock next ih =>
      intro machine ledger holds accounts
      have goesOn := invariant _ _ (.read (clock machine.asked)) _ _ holds rfl
      exact ih _ _ ledger goesOn accounts
  | sleep millis next ih =>
      intro machine ledger holds accounts
      have goesOn := invariant _ _ .woken _ _ holds rfl
      simp only [advance]
      split
      · exact ih () machine ledger goesOn accounts
      · exact ⟨ledger, goesOn, accounts⟩
  | launch names branch next _ ih =>
      intro machine ledger holds accounts
      have goesOn := invariant _ _ (.launched machine.mailboxes.length) _ _ holds rfl
      exact ih _ _ _ goesOn (accounts_launched (accounts.launch_own names names.length))
  | receive channel interval next ih =>
      intro machine ledger holds accounts
      simp only [advance]
      split
      · rename_i taken
        rcases take?_cases taken with ⟨rfl, rfl⟩ | ⟨branch, result, _, senders, waiting, rfl, rfl⟩
        · have goesOn := invariant _ _ (.delivered .closed) _ _ holds rfl
          exact ih _ _ ledger goesOn accounts
        · obtain ⟨may, later⟩ := accounts.take_own waiting senders
          have fits : (Program.receive channel interval next).answer ledger
              (.delivered (.report branch result)) =
              some (ledger.reported channel branch, next (.report branch result)) := by
            simp only [Program.answer, may, ↓reduceIte]
          exact ih _ _ _ (invariant _ _ _ _ _ holds fits) later
      · exact ⟨ledger, ⟨interval, holds⟩, accounts⟩
  | broken panic =>
      intro machine ledger holds accounts
      exact ⟨ledger, holds, accounts⟩
  | never =>
      intro machine ledger _ accounts
      exact ⟨ledger, trivial, accounts⟩
  | exhausted =>
      intro machine ledger _ accounts
      exact ⟨ledger, trivial, accounts⟩

theorem resume_keeps (invariant : Program.Invariant kept) {owner : Owner} (clock : Nat → Readings)
    {wait : Wait W R} {machine : Machine W R} {ledger : Ledger} (holds : wait.Keeps kept ledger)
    (accounts : Accounts ledger machine.mailboxes (owner :: machine.owners)) :
    ∃ later, (resume clock wait machine).1.Keeps kept later ∧
      Accounts later (resume clock wait machine).2.mailboxes
        (owner :: (resume clock wait machine).2.owners) := by
  cases wait with
  | resting next => exact advance_keeps invariant owner clock _ machine ledger holds accounts
  | listening channel next =>
      obtain ⟨interval, waiting⟩ := holds
      simp only [resume]
      split
      · rename_i delivery after taken
        have whole := advance_keeps invariant owner clock (.receive channel interval next)
          machine ledger waiting accounts
        simpa only [advance, taken] using whole
      · have goesOn := invariant _ _ (.delivered .quiet) _ _ waiting rfl
        exact advance_keeps invariant owner clock _ machine ledger goesOn accounts

theorem resume_accounts {ledger : Ledger} {owner : Owner} (clock : Nat → Readings) (wait : Wait W R)
    {machine : Machine W R} (accounts : Accounts ledger machine.mailboxes (owner :: machine.owners)) :
    Accounts ledger (resume clock wait machine).2.mailboxes
      (owner :: (resume clock wait machine).2.owners) := by
  cases wait with
  | resting next => exact advance_accounts clock _ machine accounts
  | listening channel next =>
      simp only [resume]
      split
      · rename_i taken
        rcases take?_cases taken with ⟨_, rfl⟩ | ⟨_, _, _, senders, waiting, _, rfl⟩
        · exact advance_accounts clock _ _ accounts
        · exact advance_accounts clock _ _ (accounts.take waiting senders)
      · exact advance_accounts clock _ machine accounts

theorem mem_strands_resume (clock : Nat → Readings) (wait : Wait W R) (machine : Machine W R)
    {strand : Strand W R} (member : strand ∈ (resume clock wait machine).2.strands)
    (main : isMain strand = true) : strand ∈ machine.strands := by
  cases wait with
  | resting next => exact mem_strands_advance clock _ machine strand member main
  | listening channel next =>
      simp only [resume] at member
      split at member
      · rename_i taken
        have before := mem_strands_advance clock _ _ strand member main
        rcases take?_cases taken with ⟨_, rfl⟩ | ⟨_, _, _, _, _, _, rfl⟩
        · exact before
        · exact before
      · exact mem_strands_advance clock _ machine strand member main

theorem owners_subperm {machine after : Machine W R} (fewer : after.strands.Subperm machine.strands) :
    after.owners.Subperm machine.owners := by
  obtain ⟨middle, same, sublist⟩ := fewer
  exact ⟨middle.map Strand.owner, same.map Strand.owner, sublist.map Strand.owner⟩

theorem awaken_strands (attached : Bool) (machine : Machine W R) (woken : Strand W R) :
    (machine.awaken attached woken).strands.Subperm (woken :: machine.strands) ∧
      (machine.awaken attached woken).mailboxes = machine.mailboxes := by
  unfold awaken
  split
  · refine ⟨?_, rfl⟩
    have moved : (machine.ready ++ machine.parked.map Parked.strand ++ [woken]).Perm
        (woken :: (machine.ready ++ machine.parked.map Parked.strand)) := List.perm_append_singleton _ _
    exact moved.subperm.trans ((List.sublist_append_left _ _).cons_cons woken).subperm
  · refine ⟨?_, rfl⟩
    simp only [strands, List.append_assoc, List.singleton_append]
    exact List.perm_middle.subperm

theorem foldl_awaken_strands (attached : Bool) (woken : List (Parked W R)) :
    ∀ machine : Machine W R,
      let after := woken.foldl (fun machine parked => machine.awaken attached parked.strand) machine
      after.strands.Subperm (woken.map Parked.strand ++ machine.strands) ∧
        after.mailboxes = machine.mailboxes := by
  induction woken with
  | nil =>
      intro machine
      exact ⟨List.Subperm.refl _, rfl⟩
  | cons parked rest ih =>
      intro machine
      obtain ⟨first, same⟩ := awaken_strands attached machine parked.strand
      obtain ⟨others, mailboxes⟩ := ih (machine.awaken attached parked.strand)
      refine ⟨others.trans ?_, mailboxes.trans same⟩
      have grown := (List.subperm_append_left (rest.map Parked.strand)).mpr first
      exact grown.trans List.perm_middle.subperm

theorem awakenListeners_strands (attached : Bool) (channel : Nat) (machine : Machine W R) :
    (machine.awakenListeners attached channel).strands.Subperm machine.strands ∧
      (machine.awakenListeners attached channel).mailboxes = machine.mailboxes := by
  simp only [awakenListeners, List.partition_eq_filter_filter]
  obtain ⟨woken, mailboxes⟩ := foldl_awaken_strands attached
    (machine.parked.filter (listensTo channel))
    { machine with parked := machine.parked.filter (not ∘ listensTo channel) }
  refine ⟨woken.trans (List.Perm.subperm ?_), mailboxes⟩
  have split := (List.filter_append_perm (listensTo channel) machine.parked).map Parked.strand
  rw [List.map_append] at split
  simp only [strands, List.append_assoc]
  refine (List.perm_append_comm_assoc _ _ _).trans (List.Perm.append_left machine.ready ?_)
  rw [← List.append_assoc]
  exact split.append_right machine.held.toList

theorem ended_strands (attached : Bool) (machine : Machine W R) (channel : Nat)
    (report : Option (NodeId × R)) :
    (machine.ended attached channel report).strands.Subperm machine.strands ∧
      ∃ senders, (machine.ended attached channel report).mailboxes = machine.mailboxes.set channel
        ⟨(machine.mailboxes[channel]?.getD ⟨[], 0⟩).reports ++ report.toList, senders⟩ := by
  simp only [ended]
  split
  · obtain ⟨fewer, same⟩ := awakenListeners_strands attached channel
      (machine.setMailbox channel ⟨(machine.mailbox channel).reports ++ report.toList,
        (machine.mailbox channel).senders - 1⟩)
    exact ⟨fewer, _, same⟩
  · exact ⟨List.Subperm.refl _, _, rfl⟩

theorem jump_world {attached : Bool} {machine after : Machine W R} (jumped : machine.jump attached = some after) :
    after.world = machine.world := by
  simp only [jump, Option.map_eq_some_iff] at jumped
  obtain ⟨time, _, rfl⟩ := jumped
  rfl

theorem jump_strands {attached : Bool} {machine after : Machine W R}
    (jumped : machine.jump attached = some after) :
    after.strands.Perm machine.strands ∧ after.mailboxes = machine.mailboxes := by
  simp only [jump, List.partition_eq_filter_filter, Option.map_eq_some_iff] at jumped
  obtain ⟨time, _, rfl⟩ := jumped
  refine ⟨?_, rfl⟩
  have split := (List.filter_append_perm (fun parked => decide (parked.deadline ≤ time))
    machine.parked).map Parked.strand
  rw [List.map_append] at split
  generalize (machine.parked.filter fun parked => decide (parked.deadline ≤ time)).map
    Parked.strand = due at split
  have ordered : (if attached = true then due.filter isMain ++ due.filter fun strand => !isMain strand
      else due).Perm due := by
    cases attached with
    | true => exact List.filter_append_perm isMain due
    | false => exact List.Perm.refl due
  simp only [strands, List.append_assoc]
  refine List.Perm.append_left machine.ready ?_
  rw [← List.append_assoc]
  exact ((ordered.append_right _).trans split).append_right machine.held.toList

namespace Keeps
variable {atHand : List Owner} {machine after : Machine W R}

theorem rearrange (keeps : machine.Keeps kept atHand) (fewer : after.strands.Subperm machine.strands)
    (same : after.mailboxes = machine.mailboxes) : after.Keeps kept atHand := by
  intro strand member main
  obtain ⟨ledger, holds, accounts⟩ := keeps strand (fewer.subset member) main
  refine ⟨ledger, holds, ?_⟩
  rw [same]
  exact accounts.subperm ((List.subperm_append_left atHand).mpr (owners_subperm fewer))

theorem drop {owner : Owner} (keeps : machine.Keeps kept [owner]) : machine.Keeps kept [] := by
  intro strand member main
  obtain ⟨ledger, holds, accounts⟩ := keeps strand member main
  exact ⟨ledger, holds, accounts.subperm (List.sublist_cons_self owner _).subperm⟩

theorem ended {channel : Nat} {name : NodeId} (keeps : machine.Keeps kept [.branch channel name])
    (attached : Bool) (result : Option R) :
    (machine.ended attached channel (result.map (name, ·))).Keeps kept [] := by
  obtain ⟨fewer, senders, mailboxes⟩ := ended_strands attached machine channel (result.map (name, ·))
  intro strand member main
  obtain ⟨ledger, holds, accounts⟩ := keeps strand (fewer.subset member) main
  refine ⟨ledger, holds, ?_⟩
  rw [mailboxes]
  exact (Accounts.arrive accounts rfl result senders).subperm (owners_subperm fewer)

theorem park (strand : Strand W R) (keeps : machine.Keeps kept [strand.owner])
    (waits : isMain strand = true → ∃ ledger, strand.wait.Keeps kept ledger ∧
      Accounts ledger machine.mailboxes (strand.owner :: machine.owners)) (deadline : Nat) :
    Keeps kept [] { machine with parked := machine.parked ++ [⟨strand, deadline⟩] } := by
  have moved : Machine.strands { machine with parked := machine.parked ++ [⟨strand, deadline⟩] } |>.Perm
      (strand :: machine.strands) := by
    simp only [strands, List.map_append, List.map_cons, List.map_nil, List.append_assoc,
      List.singleton_append]
    rw [← List.append_assoc, ← List.append_assoc]
    exact List.perm_middle
  have owners := (moved.map Strand.owner).subperm
  intro other member main
  rcases List.mem_cons.mp (moved.subset member) with rfl | old
  · obtain ⟨ledger, holds, accounts⟩ := waits main
    exact ⟨ledger, holds, accounts.subperm owners⟩
  · obtain ⟨ledger, holds, accounts⟩ := keeps other old main
    exact ⟨ledger, holds, accounts.subperm owners⟩

theorem turn (invariant : Program.Invariant kept) (clock : Nat → Readings) {strand : Strand W R}
    {ready : List (Strand W R)} (queue : machine.ready = strand :: ready)
    (keeps : machine.Keeps kept []) :
    (resume clock strand.wait { machine with ready }).2.Keeps kept [strand.owner] ∧
      (isMain strand = true → ∃ ledger,
        (resume clock strand.wait { machine with ready }).1.Keeps kept ledger ∧
        Accounts ledger (resume clock strand.wait { machine with ready }).2.mailboxes
          (strand.owner :: (resume clock strand.wait { machine with ready }).2.owners)) := by
  have all : machine.strands = strand :: Machine.strands { machine with ready } := by
    simp only [strands, queue, List.cons_append]
  have allOwners : machine.owners = strand.owner :: Machine.owners { machine with ready } := by
    simp only [owners, all, List.map_cons]
  constructor
  · intro other member main
    have before := mem_strands_resume clock strand.wait _ member main
    obtain ⟨ledger, holds, accounts⟩ := keeps other (all ▸ List.mem_cons_of_mem strand before) main
    rw [List.nil_append, allOwners] at accounts
    exact ⟨ledger, holds, resume_accounts clock strand.wait accounts⟩
  · intro main
    obtain ⟨ledger, holds, accounts⟩ := keeps strand (all ▸ List.mem_cons_self) main
    rw [List.nil_append, allOwners] at accounts
    exact resume_keeps invariant clock holds accounts

theorem release {strand : Strand W R} (empty : machine.ready = []) (back : machine.held = some strand)
    (keeps : machine.Keeps kept []) : Keeps kept [] { machine with ready := [strand], held := none } := by
  refine keeps.rearrange (List.Perm.subperm ?_) rfl
  simp only [strands, empty, back, Option.toList_some, Option.toList_none, List.append_nil,
    List.nil_append, List.singleton_append]
  exact (List.perm_append_singleton strand _).symm

theorem start (world : W) {program : Program W R} (holds : kept Ledger.blank program) :
    (Machine.start world program).Keeps kept [] := by
  intro strand member main
  cases List.mem_singleton.mp member
  refine ⟨Ledger.blank, holds, Accounts.blank _ ?_⟩
  intro channel name owner
  cases List.mem_singleton.mp owner

end Keeps

end Machine
end

namespace Machine
variable {W R ρ : Type}

/-- The verdict stands for an end of the main program that keeps the property. -/
def Reflects (kept : Ledger → Program W R → Prop) (close : R → Effect W ρ) : Verdict ρ → Prop
  | .settled result => ∃ ledger outcome time world,
      kept ledger (.done outcome) ∧ (close outcome time world).1 = result
  | .broken panic => ∃ ledger, kept ledger (.broken panic)

theorem closed_reflects {kept : Ledger → Program W R → Prop} {close : R → Effect W ρ} {halt : Halt W R}
    {machine after : Machine W R} {verdict : Verdict ρ} {ledger : Ledger} (keeps : halt.Keeps kept ledger)
    (ending : closed close halt machine = some (verdict, after)) :
    Reflects kept close verdict ∧ after.strands = machine.strands ∧
      after.mailboxes = machine.mailboxes := by
  cases halt with
  | settled result =>
      cases ending
      exact ⟨⟨ledger, result, machine.time, machine.world, keeps, rfl⟩, rfl, rfl⟩
  | broken panic =>
      cases ending
      exact ⟨⟨ledger, keeps⟩, rfl, rfl⟩
  | parked wait deadline => cases ending
  | gone => cases ending
  | exhausted => cases ending

/-- However strands take turns, the verdict of a run reflects an invariant of the main program. -/
theorem run_reflects {kept : Ledger → Program W R → Prop} (invariant : Program.Invariant kept)
    (attached : Bool) (clock : Nat → Readings) (close : R → Effect W ρ) (allowance : Nat) :
    ∀ (known : Option (Verdict ρ)) (machine : Machine W R), machine.Keeps kept [] →
      (∀ verdict, known = some verdict → Reflects kept close verdict) →
      ∀ verdict after, run attached clock close allowance known machine = some (verdict, after) →
        Reflects kept close verdict := by
  induction allowance with
  | zero =>
      intro known machine _ _ verdict after finished
      cases finished
  | succ allowance ih =>
      intro known machine keeps reflected verdict after finished
      unfold run at finished
      split at finished
      · rename_i strand ready queue
        obtain ⟨others, own⟩ := keeps.turn invariant clock queue
        generalize resume clock strand.wait { machine with ready } = resumed at finished others own
        obtain ⟨halt, next⟩ := resumed
        obtain ⟨owner, wait⟩ := strand
        simp only at finished others own
        split at finished
        · cases finished
        · exact ih known next others.drop reflected verdict after finished
        · rename_i wait deadline
          have parked := Keeps.park ⟨owner, wait⟩ others own deadline
          exact ih known _ parked reflected verdict after finished
        · rename_i result channel name
          exact ih known _ (others.ended attached (some result)) reflected verdict after finished
        · exact ih known _ (others.ended attached none) reflected verdict after finished
        · split at finished
          · cases finished
          · rename_i found last ending
            obtain ⟨ledger, holds, _⟩ := own rfl
            obtain ⟨good, strands, mailboxes⟩ := closed_reflects holds ending
            split at finished
            · cases finished
              exact good
            · refine ih _ _ (others.drop.rearrange (strands ▸ List.Subperm.refl _) mailboxes) ?_ verdict
                after finished
              rintro other sameVerdict
              cases sameVerdict
              exact good
      · rename_i empty
        split at finished
        · rename_i found
          cases finished
          exact reflected verdict rfl
        · rename_i strand back
          exact ih none _ (keeps.release empty back) (by simp) verdict after finished
        · split at finished
          · rename_i next jumped
            obtain ⟨moved, same⟩ := jump_strands jumped
            exact ih none next (keeps.rearrange moved.subperm same) (by simp) verdict after finished
          · cases finished

/-- The program of a run gets to its end along a transcript in which every branch that it launched has
reported at most once. -/
theorem run_follows (attached : Bool) (clock : Nat → Readings) (close : R → Effect W ρ)
    (allowance : Nat) (world : W) (program : Program W R) (verdict : Verdict ρ) (last : Machine W R)
    (finished : run attached clock close allowance none (start world program) = some (verdict, last)) :
    Reflects (fun ledger reached => ∃ history, program.after Ledger.blank history = some (ledger, reached))
      close verdict := by
  refine run_reflects ?_ attached clock close allowance none _ (Keeps.start world ⟨[], rfl⟩) (by simp)
    verdict last finished
  rintro ledger reached answer later next ⟨history, followed⟩ taken
  refine ⟨history ++ [answer], ?_⟩
  rw [Program.after_append, followed]
  simp only [Option.bind_some, Program.after, taken]

end Machine

end FlowGraph
