import Mathlib.Algebra.GroupWithZero.Nat
import Mathlib.Data.List.Forall2
import Mathlib.Data.Option.Basic
import FlowGraph.Proofs.Program.Follows
import FlowGraph.Proofs.Program.Rounds

/-!
Machines whose strands follow each other, strand by strand. They go through the same rounds: the same strands
take turns, the same reports arrive, and the worlds stay related. In each round a strand may hear one time more
that there is no report yet, so the strands have to follow each other for as many answers as there are rounds
to go and reports to be read.
-/

namespace FlowGraph

def Owner.Below (channel : Nat) : Owner → Prop
  | .main => True
  | .branch own _ => own < channel

section
variable {W V R : Type}

def Owner.Ends (whole : Protocol R) (ends : Attempt R → Prop) : Owner → (Attempt R → Prop) → Prop
  | .main, own => own = ends
  | .branch channel name, own => ∃ good, whole channel = some good ∧ own = Attempt.Sends good name

structure Owner.Keeps (whole : Protocol R) (ends : Attempt R → Prop) (owner : Owner)
    (protocol : Protocol R) (own : Attempt R → Prop) : Prop where
  widens : whole.Widens protocol
  below : ∀ channel good, protocol channel = some good → owner.Below channel
  ends : owner.Ends whole ends own

theorem Owner.Ends.widen {whole wide : Protocol R} {ends own : Attempt R → Prop} {owner : Owner}
    (ending : owner.Ends whole ends own) (wider : wide.Widens whole) : owner.Ends wide ends own := by
  cases owner with
  | main => exact ending
  | branch channel name =>
      obtain ⟨good, known, same⟩ := ending
      exact ⟨good, wider channel good known, same⟩

theorem Owner.Keeps.widen {whole wide protocol : Protocol R} {ends own : Attempt R → Prop} {owner : Owner}
    (keeps : owner.Keeps whole ends protocol own) (wider : wide.Widens whole) :
    owner.Keeps wide ends protocol own :=
  ⟨wider.trans keeps.widens, keeps.below, keeps.ends.widen wider⟩

variable (patience : Option Nat) (worlds : W → V → Prop)

/-- The strands wait for the same thing and go on alike. -/
inductive Wait.Follows (count : Nat) (protocol : Protocol R) (ends : Attempt R → Prop) :
    Wait W R → Wait V R → Prop where
  | resting {next : Unit → Program W R} {otherNext : Unit → Program V R}
      (rest : Program.Follows patience worlds count protocol ends (next ()) (otherNext ())) :
      Follows count protocol ends (.resting next) (.resting otherNext)
  | listening {channel interval : Nat} {next : Delivery R → Program W R} {otherNext : Delivery R → Program V R}
      (rest : Program.Follows patience worlds count protocol ends (.receive channel interval next)
        (.receive channel interval otherNext)) :
      Follows count protocol ends (.listening channel next) (.listening channel otherNext)

structure Strand.Follows (whole : Protocol R) (ends : Attempt R → Prop) (count : Nat)
    (strand : Strand W R) (other : Strand V R) : Prop where
  owner : other.owner = strand.owner
  waits : ∃ protocol own, strand.owner.Keeps whole ends protocol own ∧
    strand.wait.Follows patience worlds count protocol own other.wait

structure Parked.Follows (whole : Protocol R) (ends : Attempt R → Prop) (count time : Nat)
    (parked : Parked W R) (other : Parked V R) : Prop where
  strand : parked.strand.Follows patience worlds whole ends count other.strand
  deadline : other.deadline = parked.deadline
  later : patience ≠ none → time < parked.deadline

inductive Halt.Follows (whole : Protocol R) (ends : Attempt R → Prop) (count time : Nat) (owner : Owner) :
    Halt W R → Halt V R → Prop where
  | settled {own : Attempt R → Prop} {result : R} (keeps : owner.Ends whole ends own)
      (holds : own (.ok result)) : Follows whole ends count time owner (.settled result) (.settled result)
  | broken {own : Attempt R → Prop} {panic : Panic} (keeps : owner.Ends whole ends own)
      (holds : own (.error panic)) : Follows whole ends count time owner (.broken panic) (.broken panic)
  | parked {wait : Wait W R} {otherWait : Wait V R} {deadline : Nat}
      (strand : Strand.Follows patience worlds whole ends count ⟨owner, wait⟩ ⟨owner, otherWait⟩)
      (later : patience ≠ none → time < deadline) :
      Follows whole ends count time owner (.parked wait deadline) (.parked otherWait deadline)
  | gone (impatient : patience = none) : Follows whole ends count time owner .gone .gone
  | exhausted (impatient : patience = none) : Follows whole ends count time owner .exhausted .exhausted

end

def backlog {R : Type} (mailboxes : List (Mailbox R)) : Nat :=
  (mailboxes.map fun mailbox => mailbox.reports.length).sum

namespace Machine

section
variable {W V R : Type} (patience : Option Nat) (worlds : W → V → Prop)

/-- Strand by strand, the second machine does what the first one does for `count` rounds. -/
structure Follows (whole : Protocol R) (ends : Attempt R → Prop) (count : Nat) (machine : Machine W R)
    (other : Machine V R) : Prop where
  related : worlds machine.world other.world
  time : other.time = machine.time
  asked : other.asked = machine.asked
  mailboxes : other.mailboxes = machine.mailboxes
  known : ∀ channel good, whole channel = some good → channel < machine.mailboxes.length
  honest : ∀ channel good, whole channel = some good →
    ∀ report ∈ (machine.mailbox channel).reports, good report.1 report.2
  ready : List.Forall₂ (Strand.Follows patience worlds whole ends (count + backlog machine.mailboxes))
    machine.ready other.ready
  parked : List.Forall₂
    (Parked.Follows patience worlds whole ends (count + backlog machine.mailboxes) machine.time)
    machine.parked other.parked
  held : Option.Rel (Strand.Follows patience worlds whole ends (count + backlog machine.mailboxes)) machine.held
    other.held

end
end Machine

section
variable {W V R : Type} {patience : Option Nat} {worlds : W → V → Prop} {whole wide : Protocol R}
  {ends : Attempt R → Prop} {count less : Nat}

theorem Wait.Follows.fewer {protocol : Protocol R} {wait : Wait W R} {other : Wait V R}
    (follows : wait.Follows patience worlds count protocol ends other) (smaller : less ≤ count) :
    wait.Follows patience worlds less protocol ends other := by
  cases follows with
  | resting rest => exact .resting (rest.fewer smaller)
  | listening rest => exact .listening (rest.fewer smaller)

theorem Strand.Follows.weaken {strand : Strand W R} {other : Strand V R}
    (follows : strand.Follows patience worlds whole ends count other) (wider : wide.Widens whole)
    (smaller : less ≤ count) : strand.Follows patience worlds wide ends less other := by
  obtain ⟨protocol, own, keeps, waits⟩ := follows.waits
  exact ⟨follows.owner, protocol, own, keeps.widen wider, waits.fewer smaller⟩

theorem Parked.Follows.weaken {time : Nat} {parked : Parked W R} {other : Parked V R}
    (follows : parked.Follows patience worlds whole ends count time other) (wider : wide.Widens whole)
    (smaller : less ≤ count) : parked.Follows patience worlds wide ends less time other :=
  ⟨follows.strand.weaken wider smaller, follows.deadline, follows.later⟩

theorem rel_mono {α β : Type 1} {rel more : α → β → Prop} {first : Option α} {second : Option β}
    (holds : Option.Rel rel first second) (implies : ∀ a b, rel a b → more a b) :
    Option.Rel more first second := by
  cases holds with
  | some both => exact .some (implies _ _ both)
  | none => exact .none

namespace Machine

def delivery? (mailboxes : List (Mailbox R)) (channel : Nat) :
    Option (Delivery R × List (Mailbox R)) :=
  let mailbox := mailboxes[channel]?.getD ⟨[], 0⟩
  match mailbox.reports with
  | (branch, result) :: rest =>
    some (.report branch result, mailboxes.set channel { mailbox with reports := rest })
  | [] => if mailbox.senders = 0 then some (.closed, mailboxes) else none

theorem take?_eq (machine : Machine W R) (channel : Nat) :
    machine.take? channel = (delivery? machine.mailboxes channel).map
      fun found => (found.1, { machine with mailboxes := found.2 }) := by
  have same : machine.mailboxes[channel]?.getD ⟨[], 0⟩ = machine.mailbox channel := rfl
  simp only [take?, delivery?, same]
  cases (machine.mailbox channel).reports with
  | cons report rest => rfl
  | nil =>
      by_cases nobody : (machine.mailbox channel).senders = 0
      · simp only [nobody, ↓reduceIte, Option.map_some]
      · simp only [nobody, ↓reduceIte, Option.map_none]

theorem delivery?_cases {mailboxes after : List (Mailbox R)} {channel : Nat} {delivery : Delivery R}
    (found : delivery? mailboxes channel = some (delivery, after)) :
    (delivery = .closed ∧ after = mailboxes) ∨
      ∃ branch result rest senders, delivery = .report branch result ∧ channel < mailboxes.length ∧
        (mailboxes[channel]?.getD ⟨[], 0⟩).reports = (branch, result) :: rest ∧
        after = mailboxes.set channel ⟨rest, senders⟩ := by
  simp only [delivery?] at found
  split at found
  · rename_i branch result rest waiting
    have known : channel < mailboxes.length := by
      by_contra beyond
      rw [List.getElem?_eq_none (by omega)] at waiting
      cases waiting
    cases found
    exact .inr ⟨branch, result, rest, _, rfl, known, waiting, rfl⟩
  · split at found
    · cases found
      exact .inl ⟨rfl, rfl⟩
    · cases found

theorem backlog_set {mailboxes : List (Mailbox R)} {channel : Nat} (known : channel < mailboxes.length)
    (mailbox : Mailbox R) :
    backlog (mailboxes.set channel mailbox) + (mailboxes[channel]?.getD ⟨[], 0⟩).reports.length =
      backlog mailboxes + mailbox.reports.length := by
  unfold backlog
  induction mailboxes generalizing channel with
  | nil => cases known
  | cons first rest ih =>
      cases channel with
      | zero =>
          simp only [List.set_cons_zero, List.map_cons, List.sum_cons, List.getElem?_cons_zero,
            Option.getD_some]
          omega
      | succ channel =>
          have others := ih (Nat.lt_of_succ_lt_succ known)
          simp only [List.set_cons_succ, List.map_cons, List.sum_cons, List.getElem?_cons_succ]
          omega

theorem backlog_launched (machine : Machine W R) (names : List NodeId)
    (branch : Nat → NodeId → Program W R) :
    backlog (machine.launched names branch).mailboxes = backlog machine.mailboxes := by
  simp [Machine.launched, backlog]

namespace Follows
variable {machine : Machine W R} {other : Machine V R}

theorem weaken (follows : machine.Follows patience worlds whole ends count other) (smaller : less ≤ count) :
    machine.Follows patience worlds whole ends less other := by
  have refl := Protocol.Widens.refl whole
  refine { follows with ready := ?_, parked := ?_, held := ?_ }
  · exact follows.ready.imp fun _ _ strand => strand.weaken refl (by omega)
  · exact follows.parked.imp fun _ _ parked => parked.weaken refl (by omega)
  · exact rel_mono follows.held fun _ _ strand => strand.weaken refl (by omega)

theorem rebox (follows : machine.Follows patience worlds whole ends count other)
    (wider : wide.Widens whole) {mailboxes : List (Mailbox R)}
    (known : ∀ channel good, wide channel = some good → channel < mailboxes.length)
    (honest : ∀ channel good, wide channel = some good →
      ∀ report ∈ (mailboxes[channel]?.getD ⟨[], 0⟩).reports, good report.1 report.2)
    (fewer : less + backlog mailboxes ≤ count + backlog machine.mailboxes) :
    Machine.Follows patience worlds wide ends less { machine with mailboxes }
      { other with mailboxes } where
  related := follows.related
  time := follows.time
  asked := follows.asked
  mailboxes := rfl
  known := known
  honest := honest
  ready := follows.ready.imp fun _ _ strand => strand.weaken wider fewer
  parked := follows.parked.imp fun _ _ parked => parked.weaken wider fewer
  held := rel_mono follows.held fun _ _ strand => strand.weaken wider fewer

theorem fresh (follows : machine.Follows patience worlds whole ends count other) :
    whole machine.mailboxes.length = none := by
  cases found : whole machine.mailboxes.length with
  | none => rfl
  | some old => exact absurd (follows.known _ old found) (Nat.lt_irrefl _)

theorem opened_cases {channel other : Nat} {good found : NodeId → R → Prop}
    (known : whole.opened channel good other = some found) :
    (other = channel ∧ found = good) ∨ whole other = some found := by
  unfold Protocol.opened at known
  split at known
  · rename_i same
    cases known
    exact .inl ⟨same, rfl⟩
  · exact .inr known

theorem branchStrands_follow {channel fuel : Nat} {good : NodeId → R → Prop}
    (known : whole channel = some good) {branch : Nat → NodeId → Program W R}
    {otherBranch : Nat → NodeId → Program V R} (names : List NodeId) : ∀ place,
      (∀ place, ∀ name ∈ names, Program.Follows patience worlds fuel .closed
        (Attempt.Sends good name) (branch place name) (otherBranch place name)) →
      List.Forall₂ (Strand.Follows patience worlds whole ends fuel)
        (branchStrands channel branch place names) (branchStrands channel otherBranch place names) := by
  induction names with
  | nil =>
      intro place _
      exact .nil
  | cons name rest ih =>
      intro place branches
      refine .cons ?_ (ih _ fun place name member => branches place name (List.mem_cons_of_mem _ member))
      refine ⟨rfl, .closed, Attempt.Sends good name, ⟨Protocol.widens_closed whole, ?_, good, known, rfl⟩,
        .resting (branches place name List.mem_cons_self)⟩
      rintro other found ⟨⟩

theorem launched {names : List NodeId} {branch : Nat → NodeId → Program W R}
    {otherBranch : Nat → NodeId → Program V R} {good : NodeId → R → Prop}
    (follows : machine.Follows patience worlds whole ends count other)
    (branches : ∀ place, ∀ name ∈ names, Program.Follows patience worlds (count + backlog machine.mailboxes)
      .closed (Attempt.Sends good name) (branch place name) (otherBranch place name)) :
    (machine.launched names branch).Follows patience worlds (whole.opened machine.mailboxes.length good) ends
      count (other.launched names otherBranch) := by
  have unread : backlog (machine.mailboxes ++ [⟨[], names.length⟩]) = backlog machine.mailboxes :=
    backlog_launched machine names branch
  have base : Machine.Follows patience worlds (whole.opened machine.mailboxes.length good) ends count
      { machine with mailboxes := machine.mailboxes ++ [⟨[], names.length⟩] }
      { other with mailboxes := machine.mailboxes ++ [⟨[], names.length⟩] } := by
    refine follows.rebox (Protocol.opened_widens follows.fresh good) ?_ ?_ (Nat.le_of_eq (by rw [unread]))
    · intro channel found opened
      rw [List.length_append, List.length_singleton]
      rcases opened_cases opened with ⟨rfl, rfl⟩ | old
      · exact Nat.lt_succ_self _
      · exact Nat.lt_succ_of_lt (follows.known channel found old)
    · intro channel found opened report member
      rcases opened_cases opened with ⟨rfl, rfl⟩ | old
      · rw [List.getElem?_append_right (Nat.le_refl _), Nat.sub_self] at member
        cases member
      · rw [List.getElem?_append_left (follows.known channel found old)] at member
        exact follows.honest channel found old report member
  simp only [Machine.launched, follows.mailboxes]
  refine { base with ready := List.rel_append base.ready ?_ }
  simp only [unread]
  exact branchStrands_follow (Protocol.opened_same _ _ _) names 0 branches

theorem received {channel : Nat} {branch : NodeId} {result : R} {rest : List (NodeId × R)}
    (follows : machine.Follows patience worlds whole ends count other)
    (opened : channel < machine.mailboxes.length)
    (waiting : (machine.mailboxes[channel]?.getD ⟨[], 0⟩).reports = (branch, result) :: rest)
    (senders : Nat) :
    Machine.Follows patience worlds whole ends count
        { machine with mailboxes := machine.mailboxes.set channel ⟨rest, senders⟩ }
        { other with mailboxes := machine.mailboxes.set channel ⟨rest, senders⟩ } ∧
      backlog (machine.mailboxes.set channel ⟨rest, senders⟩) + 1 = backlog machine.mailboxes := by
  have fewer := backlog_set opened ⟨rest, senders⟩
  simp only [waiting, List.length_cons] at fewer
  refine ⟨follows.rebox (Protocol.Widens.refl whole) ?_ ?_ (by omega), by omega⟩
  · intro known good found
    rw [List.length_set]
    exact follows.known known good found
  · intro known good found report member
    rw [List.getElem?_set] at member
    split at member
    · rename_i same
      subst same
      refine follows.honest channel good found report ?_
      rw [mailbox, waiting]
      exact List.mem_cons_of_mem _ member
    · exact follows.honest known good found report member

end Follows
end Machine

/-- Two strands come to the same halt, and their machines follow each other from there. -/
def HaltAlike (patience : Option Nat) (worlds : W → V → Prop) (whole : Protocol R) (ends : Attempt R → Prop)
    (count : Nat) (owner : Owner) (first : Halt W R × Machine W R) (second : Halt V R × Machine V R) : Prop :=
  ∃ wide, wide.Widens whole ∧ first.2.Follows patience worlds wide ends count second.2 ∧
    Halt.Follows patience worlds wide ends (count + backlog first.2.mailboxes) first.2.time owner first.1
      second.1

theorem HaltAlike.widen {owner : Owner} {first : Halt W R × Machine W R} {second : Halt V R × Machine V R}
    (alike : HaltAlike patience worlds wide ends count owner first second) (wider : wide.Widens whole) :
    HaltAlike patience worlds whole ends count owner first second := by
  obtain ⟨widest, widens, machines, halts⟩ := alike
  exact ⟨widest, widens.trans wider, machines, halts⟩

theorem receive_alike (clock : Nat → Readings) {machine : Machine W R} {other : Machine V R}
    (machines : machine.Follows patience worlds whole ends count other) {owner : Owner}
    {protocol : Protocol R} {own : Attempt R → Prop} (keeps : owner.Keeps whole ends protocol own)
    {channel interval : Nat} {next : Delivery R → Program W R} {otherNext : Delivery R → Program V R}
    (waits : Program.Follows patience worlds (count + backlog machine.mailboxes) protocol own
      (.receive channel interval next) (.receive channel interval otherNext))
    {good : NodeId → R → Prop} (known : protocol channel = some good)
    (timely : patience ≠ none → 0 < interval)
    (closed : HaltAlike patience worlds whole ends count owner (machine.advance clock (next .closed))
      (other.advance clock (otherNext .closed)))
    (report : ∀ branch result, good branch result → ∀ (later : Machine W R) (otherLater : Machine V R),
      later.Follows patience worlds whole ends count otherLater →
        backlog later.mailboxes < backlog machine.mailboxes →
          HaltAlike patience worlds whole ends count owner
            (later.advance clock (next (.report branch result)))
            (otherLater.advance clock (otherNext (.report branch result)))) :
    HaltAlike patience worlds whole ends count owner
      (machine.advance clock (.receive channel interval next))
      (other.advance clock (.receive channel interval otherNext)) := by
  simp only [Machine.advance, Machine.take?_eq, machines.mailboxes]
  cases found : Machine.delivery? machine.mailboxes channel with
  | none =>
      simp only [Option.map_none, machines.time]
      refine ⟨whole, Protocol.Widens.refl whole, machines, .parked ?_ fun calm => ?_⟩
      · exact ⟨rfl, protocol, own, keeps, .listening waits⟩
      · exact Nat.lt_add_of_pos_right (timely calm)
  | some taken =>
      obtain ⟨delivery, mailboxes⟩ := taken
      simp only [Option.map_some]
      rcases Machine.delivery?_cases found with ⟨rfl, rfl⟩ |
        ⟨branch, result, rest, senders, rfl, opened, waiting, rfl⟩
      · have same : { other with mailboxes := machine.mailboxes } = other := by
          rw [← machines.mailboxes]
        rw [same]
        exact closed
      · obtain ⟨later, fewer⟩ := machines.received opened waiting senders
        have fits : good branch result := by
          refine machines.honest channel good (keeps.widens channel good known) (branch, result) ?_
          rw [Machine.mailbox, waiting]
          exact List.mem_cons_self
        exact report branch result fits _ _ later (by simp only; omega)

/-- Programs that follow each other run in step until they halt. -/
theorem Program.Follows.advance (clock : Nat → Readings) {total : Nat} {protocol : Protocol R}
    {own : Attempt R → Prop} {program : Program W R} {view : Program V R}
    (follows : Program.Follows patience worlds total protocol own program view) :
    ∀ {whole : Protocol R} {owner : Owner} {machine : Machine W R} {other : Machine V R},
      total = count + backlog machine.mailboxes → owner.Keeps whole ends protocol own →
        machine.Follows patience worlds whole ends count other →
          HaltAlike patience worlds whole ends count owner (Machine.advance clock program machine)
            (Machine.advance clock view other) := by
  induction follows with
  | done holds =>
      intro whole owner machine other _ keeps machines
      exact ⟨whole, Protocol.Widens.refl whole, machines, .settled keeps.ends holds⟩
  | @call _ _ _ _ effect view next otherNext alike rest ih =>
      intro whole owner machine other enough keeps machines
      obtain ⟨same, related⟩ := alike machine.time machine.world other.world machines.related
      simp only [Machine.advance, machines.time, same]
      exact ih _ ⟨_, _, rfl⟩ enough keeps { machines with related, time := rfl }
  | clock _ ih =>
      intro whole owner machine other enough keeps machines
      simp only [Machine.advance, machines.asked]
      exact ih _ enough keeps { machines with asked := rfl }
  | @sleep count protocol own millis next otherNext rest ih =>
      intro whole owner machine other enough keeps machines
      simp only [Machine.advance, machines.time]
      split
      · exact ih enough keeps machines
      · rename_i lasting
        refine ⟨whole, Protocol.Widens.refl whole, machines, .parked ?_ fun _ => ?_⟩
        · exact ⟨rfl, protocol, own, keeps, .resting (enough ▸ rest)⟩
        · exact Nat.lt_add_of_pos_right (Nat.pos_of_ne_zero lasting)
  | launch good branches _ _ ih =>
      intro whole owner machine other enough keeps machines
      subst enough
      have fresh := keeps.widens.unknown machines.fresh
      have launched := machines.launched branches
      simp only [Machine.advance, machines.mailboxes]
      refine (ih machine.mailboxes.length fresh (by rw [Machine.backlog_launched]) ?_ launched).widen
        (Protocol.opened_widens machines.fresh good)
      refine ⟨keeps.widens.opened _ good, ?_, keeps.ends.widen (Protocol.opened_widens machines.fresh good)⟩
      intro channel found opened
      rcases Machine.Follows.opened_cases opened with ⟨rfl, rfl⟩ | old
      · cases owner with
        | main => trivial
        | branch channel name =>
            obtain ⟨own, known, _⟩ := keeps.ends
            exact machines.known channel own known
      · exact keeps.below channel found old
  | receive impatient known closed report quiet closedIh reportIh _ =>
      intro whole owner machine other enough keeps machines
      subst enough
      refine receive_alike clock machines keeps (.receive impatient known closed report quiet) known ?_
        (closedIh rfl keeps machines) ?_
      · intro calm
        exact (calm impatient).elim
      · intro branch result fits later otherLater after fewer
        exact reportIh (count + backlog later.mailboxes) (by omega) branch result fits rfl keeps after
  | await calm timely known closed report otherQuiet quiet closedIh reportIh _ =>
      intro whole owner machine other enough keeps machines
      subst enough
      refine receive_alike clock machines keeps
        (.await calm timely known closed report otherQuiet quiet) known (fun _ => timely)
        (closedIh rfl keeps machines) ?_
      intro branch result fits later otherLater after fewer
      exact reportIh (count + backlog later.mailboxes) (by omega) branch result fits rfl keeps after
  | broken holds =>
      intro whole owner machine other _ keeps machines
      exact ⟨whole, Protocol.Widens.refl whole, machines, .broken keeps.ends holds⟩
  | never impatient =>
      intro whole owner machine other _ _ machines
      exact ⟨whole, Protocol.Widens.refl whole, machines, .gone impatient⟩
  | exhausted impatient =>
      intro whole owner machine other _ _ machines
      exact ⟨whole, Protocol.Widens.refl whole, machines, .exhausted impatient⟩

end
end FlowGraph
