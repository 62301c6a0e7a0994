import FlowGraph.Proofs.Program.Rest
import FlowGraph.Proofs.Program.Solo
import FlowGraph.Proofs.Program.Twins
import FlowGraph.Proofs.Program.Woven

/-!
Strands that nobody notices. Such a strand belongs to a branch whose channel nobody hears, its calls are hidden,
and it only listens on channels that others do not hear either. When it has its turn, all that comes of it are
strands of the same kind and reports that nobody reads.
-/

namespace FlowGraph
variable {W R ρ : Type}

/-- The strand is that of a branch, and nobody notices it as long as nobody hears the `quiet` channels. -/
structure Strand.Aside (same : W → W → Prop) (tired : Prop) (quiet : Nat → Prop) (strand : Strand W R) : Prop where
  owner : ∃ channel name, strand.owner = .branch channel name ∧ quiet channel
  wait : strand.wait.Aside same tired quiet

def Parked.Aside (same : W → W → Prop) (tired : Prop) (quiet : Nat → Prop) (parked : Parked W R) : Prop :=
  parked.strand.Aside same tired quiet

def Halt.Aside (same : W → W → Prop) (tired : Prop) (quiet : Nat → Prop) : Halt W R → Prop
  | .settled _ => True
  | .broken _ => True
  | .parked wait _ => wait.Aside same tired quiet
  | .gone => True
  | .exhausted => tired

namespace Machine

/-- The channel is open, and it is none of those that are heard. -/
def Quiet (heard : Nat → Prop) (machine : Machine W R) (channel : Nat) : Prop :=
  channel < machine.mailboxes.length ∧ ¬heard channel

/-- Only what nobody notices has happened in between. Unless all others slept, no time has passed. -/
structure Strays (same : W → W → Prop) (tired : Prop) (heard : Nat → Prop) (awake : Prop)
    (before after : Machine W R) : Prop where
  world : same before.world after.world
  time : awake → after.time = before.time
  opened : before.mailboxes.length ≤ after.mailboxes.length
  mailboxes : ∀ channel, heard channel → after.mailbox channel = before.mailbox channel
  ready : Woven Eq (Strand.Aside same tired (after.Quiet heard)) (Strand.Aside same tired (after.Quiet heard))
    before.ready after.ready
  parked : Woven Eq (Parked.Aside same tired (after.Quiet heard)) (Parked.Aside same tired (after.Quiet heard))
    before.parked after.parked
  held : after.held = before.held

inductive StraysNext (same : W → W → Prop) (tired : Prop) (heard : Nat → Prop) (known : Option (Verdict ρ))
    (machine : Machine W R) : Prop where
  | turn {strand : Strand W R} {ready : List (Strand W R)} (queue : machine.ready = strand :: ready)
      (aside : strand.Aside same tired (machine.Quiet heard))
  | jump {time : Nat} (unknown : known = none) (idle : machine.ready = []) (nobody : machine.held = none)
      (soonest : earliest machine.parked = some time)
      (due : ∀ parked ∈ machine.parked, parked.deadline ≤ time → parked.Aside same tired (machine.Quiet heard))

end Machine

section
variable {same : W → W → Prop} {tired : Prop} {quiet more : Nat → Prop} {strand : Strand W R}

theorem Strand.Aside.mono (aside : strand.Aside same tired quiet)
    (grows : ∀ channel, quiet channel → more channel) : strand.Aside same tired more := by
  obtain ⟨channel, name, owner, silent⟩ := aside.owner
  exact ⟨⟨channel, name, owner, grows _ silent⟩, aside.wait.mono grows⟩

theorem Strand.Aside.not_main (aside : strand.Aside same tired quiet) : Machine.isMain strand = false := by
  obtain ⟨channel, name, owner, _⟩ := aside.owner
  rw [Machine.isMain, owner]

end

namespace Machine
variable {same : W → W → Prop} {tired : Prop} {heard : Nat → Prop} {awake : Prop}
  {machine before middle after : Machine W R}

theorem Quiet.later {channel : Nat} (quiet : machine.Quiet heard channel)
    (opened : machine.mailboxes.length ≤ after.mailboxes.length) : after.Quiet heard channel :=
  ⟨Nat.lt_of_lt_of_le quiet.1 opened, quiet.2⟩

theorem mailbox_setMailbox_of_ne {channel other : Nat} (differs : other ≠ channel) (mailbox : Mailbox R) :
    (machine.setMailbox channel mailbox).mailbox other = machine.mailbox other := by
  simp only [Machine.mailbox, setMailbox, List.getElem?_set_ne (Ne.symm differs)]

theorem foldl_awaken_branches (attached : Bool) (woken : List (Parked W R)) : ∀ machine : Machine W R,
    (∀ parked ∈ woken, isMain parked.strand = false) →
      woken.foldl (fun machine parked => machine.awaken attached parked.strand) machine =
        { machine with ready := machine.ready ++ woken.map Parked.strand } := by
  induction woken with
  | nil => simp
  | cons first rest ih =>
      intro machine branches
      rw [List.foldl_cons, awaken, branches first List.mem_cons_self, Bool.and_false, if_neg Bool.false_ne_true,
        ih _ fun parked member => branches parked (List.mem_cons_of_mem _ member)]
      simp only [List.append_assoc, List.singleton_append, List.map_cons]

namespace Strays

theorem trans (equivalence : Equivalence same) (first : before.Strays same tired heard awake middle)
    (second : middle.Strays same tired heard awake after) : before.Strays same tired heard awake after where
  world := equivalence.trans first.world second.world
  time now := (second.time now).trans (first.time now)
  opened := Nat.le_trans first.opened second.opened
  mailboxes channel known := (second.mailboxes channel known).trans (first.mailboxes channel known)
  ready := by
    have widen (strand : Strand W R) (aside : strand.Aside same tired (middle.Quiet heard)) :
        strand.Aside same tired (after.Quiet heard) := aside.mono fun _ quiet => quiet.later second.opened
    exact (first.ready.mono (fun _ _ pair => pair) widen widen).trans second.ready
  parked := by
    have widen (parked : Parked W R) (aside : parked.Aside same tired (middle.Quiet heard)) :
        parked.Aside same tired (after.Quiet heard) :=
      Strand.Aside.mono aside fun _ quiet => quiet.later second.opened
    exact (first.parked.mono (fun _ _ pair => pair) widen widen).trans second.parked
  held := second.held.trans first.held

theorem unnoticed {world : W} {asked : Nat} (looks : same machine.world world) :
    machine.Strays same tired heard awake { machine with world, asked } where
  world := looks
  time _ := rfl
  opened := Nat.le_refl _
  mailboxes _ _ := rfl
  ready := .refl _
  parked := .refl _
  held := rfl

theorem refl (equivalence : Equivalence same) (machine : Machine W R) :
    machine.Strays same tired heard awake machine :=
  unnoticed (equivalence.refl _)

theorem setMailbox (equivalence : Equivalence same) {channel : Nat} (unheard : ¬heard channel)
    (mailbox : Mailbox R) : machine.Strays same tired heard awake (machine.setMailbox channel mailbox) where
  world := equivalence.refl _
  time _ := rfl
  opened := Nat.le_of_eq List.length_set.symm
  mailboxes other known := mailbox_setMailbox_of_ne (by rintro rfl; exact unheard known) mailbox
  ready := .refl _
  parked := .refl _
  held := rfl

theorem taken (equivalence : Equivalence same) {channel : Nat} (unheard : ¬heard channel) {delivery : Delivery R}
    (takes : machine.take? channel = some (delivery, after)) : machine.Strays same tired heard awake after := by
  rcases take?_cases takes with ⟨_, rfl⟩ | ⟨_, _, rest, senders, _, _, rfl⟩
  · exact refl equivalence _
  · exact setMailbox equivalence unheard ⟨rest, senders⟩

theorem launched (equivalence : Equivalence same)
    (opened : ∀ channel, heard channel → channel < machine.mailboxes.length)
    {names : List NodeId} {branch : Nat → NodeId → Program W R}
    (branches : ∀ place, ∀ name ∈ names, (branch place name).Aside same tired none) :
    machine.Strays same tired heard awake (machine.launched names branch) where
  world := equivalence.refl _
  time _ := rfl
  opened := by simp [Machine.launched]
  mailboxes channel known := mailbox_launched names branch (opened channel known)
  ready := by
    have fresh : (machine.launched names branch).Quiet heard machine.mailboxes.length :=
      ⟨by simp [Machine.launched], fun known => Nat.lt_irrefl _ (opened _ known)⟩
    refine .grown _ fun strand member => ?_
    obtain ⟨place, name, among, rfl⟩ := eq_of_mem_branchStrands names 0 strand member
    exact ⟨⟨_, name, rfl, fresh⟩, branches place name among⟩
  parked := .refl _
  held := rfl

theorem advance (equivalence : Equivalence same) (clock : Nat → Readings) (program : Program W R) :
    ∀ {own : Option Nat} (machine : Machine W R), (∀ channel, heard channel → channel < machine.mailboxes.length) →
      (∀ channel, own = some channel → machine.Quiet heard channel) → program.Aside same tired own →
        machine.Strays same tired heard awake (advance clock program machine).2 ∧
          (Machine.advance clock program machine).1.Aside same tired
            ((Machine.advance clock program machine).2.Quiet heard) := by
  induction program with
  | done result => exact fun _ _ _ _ => ⟨refl equivalence _, trivial⟩
  | call effect next ih =>
      intro own machine opened mine aside
      obtain ⟨strays, halts⟩ := ih (effect machine.time machine.world).1
        { machine with world := (effect machine.time machine.world).2 } opened mine (aside.2 _ ⟨_, _, rfl⟩)
      exact ⟨(unnoticed (aside.1 machine.time machine.world)).trans equivalence strays, halts⟩
  | clock next ih =>
      intro own machine opened mine aside
      obtain ⟨strays, halts⟩ := ih (clock machine.asked) { machine with asked := machine.asked + 1 } opened mine
        (aside _)
      exact ⟨(unnoticed (equivalence.refl machine.world)).trans equivalence strays, halts⟩
  | sleep millis next ih =>
      intro own machine opened mine aside
      simp only [Machine.advance]
      split
      · exact ih () machine opened (by rintro channel ⟨⟩) aside
      · exact ⟨refl equivalence machine, aside⟩
  | launch names branch next _ ih =>
      intro own machine opened mine aside
      have launches : machine.Strays same tired heard awake (machine.launched names branch) :=
        launched equivalence opened aside.1
      have longer : machine.mailboxes.length < (machine.launched names branch).mailboxes.length := by
        simp [Machine.launched]
      obtain ⟨strays, halts⟩ := ih machine.mailboxes.length (machine.launched names branch)
        (fun channel known => Nat.lt_trans (opened channel known) longer)
        (by
          rintro channel ⟨⟩
          exact ⟨longer, fun known => Nat.lt_irrefl _ (opened _ known)⟩)
        (aside.2 _)
      exact ⟨launches.trans equivalence strays, halts⟩
  | receive channel interval next ih =>
      rintro own machine opened mine ⟨rfl, aside⟩
      have quiet := mine channel rfl
      simp only [Machine.advance]
      split
      · rename_i delivery after takes
        have took : machine.Strays same tired heard awake after := taken equivalence quiet.2 takes
        obtain ⟨strays, halts⟩ := ih delivery after
          (fun channel known => Nat.lt_of_lt_of_le (opened channel known) took.opened)
          (fun channel same => (mine channel same).later took.opened) (aside delivery)
        exact ⟨took.trans equivalence strays, halts⟩
      · exact ⟨refl equivalence machine, quiet, aside⟩
  | broken panic => exact fun _ _ _ _ => ⟨refl equivalence _, trivial⟩
  | never => exact fun _ _ _ _ => ⟨refl equivalence _, trivial⟩
  | exhausted => exact fun _ _ _ aside => ⟨refl equivalence _, aside⟩

theorem resume (awake : Prop) (equivalence : Equivalence same) (machine : Machine W R)
    (opened : ∀ channel, heard channel → channel < machine.mailboxes.length) (clock : Nat → Readings)
    {wait : Wait W R} (aside : wait.Aside same tired (machine.Quiet heard)) :
    machine.Strays same tired heard awake (resume clock wait machine).2 ∧
      (Machine.resume clock wait machine).1.Aside same tired
        ((Machine.resume clock wait machine).2.Quiet heard) := by
  cases wait with
  | resting next => exact advance equivalence clock (next ()) machine opened (by rintro channel ⟨⟩) aside
  | listening channel next =>
      obtain ⟨quiet, rest⟩ := aside
      have mine : ∀ other, some channel = some other → machine.Quiet heard other := by
        rintro _ ⟨⟩
        exact quiet
      simp only [Machine.resume]
      split
      · rename_i delivery after takes
        have took : machine.Strays same tired heard awake after := taken equivalence quiet.2 takes
        obtain ⟨strays, halts⟩ := advance equivalence clock (next delivery) after
          (fun channel known => Nat.lt_of_lt_of_le (opened channel known) took.opened)
          (fun other same => (mine other same).later took.opened) (rest delivery)
        exact ⟨took.trans equivalence strays, halts⟩
      · exact advance equivalence clock (next .quiet) machine opened mine (rest .quiet)

theorem park (equivalence : Equivalence same) {strand : Strand W R}
    (aside : strand.Aside same tired (machine.Quiet heard)) (deadline : Nat) :
    machine.Strays same tired heard awake { machine with parked := machine.parked ++ [⟨strand, deadline⟩] } where
  world := equivalence.refl _
  time _ := rfl
  opened := Nat.le_refl _
  mailboxes _ _ := rfl
  ready := .refl _
  parked := by
    refine .grown _ fun parked member => ?_
    cases List.mem_singleton.mp member
    exact aside
  held := rfl

theorem awakenListeners (equivalence : Equivalence same) (attached : Bool) (channel : Nat)
    (listeners : ∀ parked ∈ machine.parked, listensTo channel parked = true →
      parked.Aside same tired (machine.Quiet heard)) :
    machine.Strays same tired heard awake (machine.awakenListeners attached channel) := by
  have woken (parked : Parked W R) (member : parked ∈ machine.parked.filter (listensTo channel)) :
      parked.Aside same tired (machine.Quiet heard) := by
    obtain ⟨there, listens⟩ := List.mem_filter.mp member
    exact listeners parked there listens
  simp only [Machine.awakenListeners, List.partition_eq_filter_filter]
  rw [foldl_awaken_branches attached _ _ fun parked member => (woken parked member).not_main]
  refine ⟨equivalence.refl _, fun _ => rfl, Nat.le_refl _, fun _ _ => rfl, .grown _ ?_, .dropped _ ?_, rfl⟩
  · intro strand member
    obtain ⟨parked, there, rfl⟩ := List.mem_map.mp member
    exact woken parked there
  · intro parked member drops
    exact listeners parked member (by simpa using drops)

theorem ended (equivalence : Equivalence same) (attached : Bool) {channel : Nat} (unheard : ¬heard channel)
    (report : Option (NodeId × R)) (listeners : ∀ parked ∈ machine.parked, listensTo channel parked = true →
      parked.Aside same tired (machine.Quiet heard)) :
    machine.Strays same tired heard awake (machine.ended attached channel report) := by
  have boxed (mailbox : Mailbox R) : machine.Strays same tired heard awake (machine.setMailbox channel mailbox) :=
    setMailbox equivalence unheard mailbox
  simp only [Machine.ended]
  split
  · refine (boxed _).trans equivalence (awakenListeners equivalence attached channel ?_)
    intro parked member listens
    exact Strand.Aside.mono (listeners parked member listens) fun _ quiet => quiet.later (boxed _).opened
  · exact boxed _

theorem placed (equivalence : Equivalence same) (attached : Bool) (close : R → Effect W ρ) {owner : Owner}
    {channel : Nat} {name : NodeId} (owned : owner = .branch channel name) (quiet : machine.Quiet heard channel)
    {halt : Halt W R} (halts : halt.Aside same tired (machine.Quiet heard))
    (listeners : ∀ parked ∈ machine.parked, listensTo channel parked = true →
      parked.Aside same tired (machine.Quiet heard)) :
    machine.Strays same tired heard awake (machine.placed attached close owner halt) := by
  subst owned
  cases halt with
  | settled result => exact ended equivalence attached quiet.2 (some (name, result)) listeners
  | broken panic => exact ended equivalence attached quiet.2 none listeners
  | parked wait deadline =>
      have aside : Strand.Aside same tired (machine.Quiet heard) ⟨.branch channel name, wait⟩ :=
        ⟨⟨channel, name, rfl, quiet⟩, halts⟩
      exact park equivalence aside deadline
  | gone => exact refl equivalence machine
  | exhausted => exact refl equivalence machine

end Strays

/-- Those who listen on channels that are not heard are strands that nobody notices. -/
def Apart (same : W → W → Prop) (tired : Prop) (heard : Nat → Prop) (machine : Machine W R) : Prop :=
  ∀ parked ∈ machine.parked, ∀ channel, ¬heard channel → listensTo channel parked = true →
    parked.Aside same tired (machine.Quiet heard)

theorem strays_turn (equivalence : Equivalence same)
    (opened : ∀ channel, heard channel → channel < machine.mailboxes.length)
    (apart : machine.Apart same tired heard) {strand : Strand W R} {ready : List (Strand W R)}
    (queue : machine.ready = strand :: ready) (aside : strand.Aside same tired (machine.Quiet heard))
    (attached : Bool) (clock : Nat → Readings) (close : R → Effect W ρ) :
    machine.Strays same tired heard awake (machine.round attached clock close) := by
  obtain ⟨channel, name, owned, quiet⟩ := aside.owner
  have popped : machine.Strays same tired heard awake { machine with ready } :=
    ⟨equivalence.refl _, fun _ => rfl, Nat.le_refl _, fun _ _ => rfl,
      queue ▸ .left aside (.refl ready), .refl _, rfl⟩
  obtain ⟨runs, halts⟩ := Strays.resume awake equivalence { machine with ready } opened clock aside.wait
  have ran := resume_ran clock strand.wait { machine with ready }
  rw [round_ready attached clock close queue]
  refine (popped.trans equivalence runs).trans equivalence ?_
  refine Strays.placed equivalence attached close owned (quiet.later runs.opened) halts ?_
  intro parked member listens
  rw [ran.parked] at member
  exact Strand.Aside.mono (apart parked member channel quiet.2 listens) fun _ quiet => quiet.later runs.opened

theorem strays_jump (equivalence : Equivalence same) {time : Nat} (soonest : earliest machine.parked = some time)
    (due : ∀ parked ∈ machine.parked, parked.deadline ≤ time → parked.Aside same tired (machine.Quiet heard))
    {attached : Bool} (jumped : machine.jump attached = some after) :
    machine.Strays same tired heard False after := by
  simp only [jump, soonest, Option.map_some, Option.some.injEq, List.partition_eq_filter_filter] at jumped
  subst jumped
  refine ⟨equivalence.refl _, False.elim, Nat.le_refl _, fun _ _ => rfl, .grown _ fun strand member => ?_,
    .dropped _ fun parked member drops => due parked member ?_, rfl⟩
  · have among : strand ∈ (machine.parked.filter fun parked => parked.deadline ≤ time).map Parked.strand := by
      split at member
      · exact (List.filter_append_perm isMain _).subset member
      · exact member
    obtain ⟨parked, there, rfl⟩ := List.mem_map.mp among
    obtain ⟨member, fires⟩ := List.mem_filter.mp there
    exact due parked member (by simpa using fires)
  · simpa using drops

/-- It is the turn of a strand, and its allowance is used up. -/
def Tires (clock : Nat → Readings) (machine : Machine W R) : Prop :=
  ∃ strand ready, machine.ready = strand :: ready ∧
    (resume clock strand.wait { machine with ready }).1 = .exhausted

theorem Tires.run {clock : Nat → Readings} (tires : machine.Tires clock) (attached : Bool) (close : R → Effect W ρ)
    (allowance : Nat) (known : Option (Verdict ρ)) :
    Machine.run attached clock close (allowance + 1) known machine = none := by
  obtain ⟨strand, ready, queue, exhausted⟩ := tires
  simp only [Machine.run, queue, exhausted]

theorem run_turn {strand : Strand W R} {ready : List (Strand W R)} (queue : machine.ready = strand :: ready)
    {clock : Nat → Readings} (lively : ¬machine.Tires clock) {close : R → Effect W ρ}
    (stays : isMain strand = true → closed close (resume clock strand.wait { machine with ready }).1
      (resume clock strand.wait { machine with ready }).2 = none)
    (attached : Bool) (allowance : Nat) (known : Option (Verdict ρ)) :
    run attached clock close (allowance + 1) known machine =
      run attached clock close allowance known (machine.round attached clock close) := by
  have awake : (resume clock strand.wait { machine with ready }).1 ≠ .exhausted :=
    fun exhausted => lively ⟨strand, ready, queue, exhausted⟩
  rw [round_ready attached clock close queue]
  simp only [run, queue]
  generalize resume clock strand.wait { machine with ready } = resumed at awake stays ⊢
  obtain ⟨owner, wait⟩ := strand
  obtain ⟨halt, after⟩ := resumed
  cases halt with
  | exhausted => exact absurd rfl awake
  | parked wait deadline => rfl
  | gone => rfl
  | settled result =>
      cases owner with
      | main => cases stays rfl
      | branch channel name => rfl
  | broken panic =>
      cases owner with
      | main => cases stays rfl
      | branch channel name => rfl

theorem round_jump {time : Nat} (idle : machine.ready = []) (nobody : machine.held = none)
    (soonest : earliest machine.parked = some time) (attached : Bool) (clock : Nat → Readings)
    (close : R → Effect W ρ) : machine.jump attached = some (machine.round attached clock close) := by
  simp only [round, idle, nobody, jump, soonest, Option.map_some, Option.getD_some]

theorem run_idle (idle : machine.ready = []) {attached : Bool}
    (moves : machine.held = none → machine.jump attached ≠ none) (clock : Nat → Readings)
    (close : R → Effect W ρ) (allowance : Nat) :
    run attached clock close (allowance + 1) none machine =
      run attached clock close allowance none (machine.round attached clock close) := by
  simp only [run, round, idle]
  cases back : machine.held with
  | some strand => rfl
  | none =>
      obtain ⟨after, jumped⟩ := Option.ne_none_iff_exists'.mp (moves back)
      simp only [jumped, Option.getD_some]

namespace StraysNext
variable {known : Option (Verdict ρ)}

theorem of_tires (equivalence : Equivalence same)
    (opened : ∀ channel, heard channel → channel < machine.mailboxes.length)
    (next : machine.StraysNext same tired heard known)
    {clock : Nat → Readings} (tires : machine.Tires clock) : tired := by
  obtain ⟨strand, ready, queue, exhausted⟩ := tires
  cases next with
  | jump unknown idle nobody soonest due =>
      rw [idle] at queue
      cases queue
  | turn again aside =>
      obtain ⟨rfl, rfl⟩ := List.cons.inj (queue.symm.trans again)
      have halts := (Strays.resume True equivalence { machine with ready } opened clock aside.wait).2
      rw [exhausted] at halts
      exact halts

theorem run (next : machine.StraysNext same tired heard known) {clock : Nat → Readings}
    (lively : ¬machine.Tires clock) (attached : Bool) (close : R → Effect W ρ) (allowance : Nat) :
    Machine.run attached clock close (allowance + 1) known machine =
      Machine.run attached clock close allowance known (machine.round attached clock close) := by
  cases next with
  | turn queue aside =>
      refine run_turn queue lively ?_ attached allowance known
      intro main
      rw [aside.not_main] at main
      cases main
  | jump unknown idle nobody soonest due =>
      subst unknown
      have jumped := round_jump idle nobody soonest attached clock close
      exact run_idle idle (fun _ => jumped ▸ Option.some_ne_none _) clock close allowance

theorem nearer (next : machine.StraysNext same tired heard known) (one : machine.OneMain) (attached : Bool)
    (clock : Nat → Readings) (close : R → Effect W ρ) :
    Prod.Lex (Relation.CutExpand Wait.After) (· < ·)
      ((machine.round attached clock close).pending, (machine.round attached clock close).parked.length)
      (machine.pending, machine.parked.length) := by
  cases next with
  | turn queue aside => exact .left _ _ (one.pending_turn queue attached clock close)
  | @jump time unknown idle nobody soonest due =>
      rw [pending_eq (round_idle attached clock close idle).2.2]
      refine .right _ ?_
      have jumped := round_jump idle nobody soonest attached clock close
      generalize machine.round attached clock close = after at jumped ⊢
      simp only [Machine.jump, soonest, Option.map_some, Option.some.injEq,
        List.partition_eq_filter_filter] at jumped
      subst jumped
      obtain ⟨⟨first, member, fires⟩, _⟩ := earliest_spec soonest
      refine List.length_filter_lt_length_iff_exists.mpr ⟨first, member, ?_⟩
      simp [fires]

end StraysNext

end Machine
end FlowGraph
