import Mathlib.Algebra.Order.BigOperators.Group.List
import Mathlib.Logic.Hydra
import Mathlib.Tactic.Abel
import FlowGraph.Proofs.Program.Lockstep.Round

/-!
Why patient programs come to rest. A strand that is taken up is replaced by strands that are further down its
tree, unless it has only listened in vain. While all that happens is listening in vain, time moves on, and
somebody whom the listeners wait for sleeps until some time.
-/

namespace FlowGraph
variable {W R ρ : Type}

def Parked.delay (time : Nat) (parked : Parked W R) : Nat :=
  match parked.strand.wait with
  | .resting _ => parked.deadline - time
  | .listening .. => 0

namespace Machine

def pending (machine : Machine W R) : Multiset (Wait W R) := ↑(machine.strands.map Strand.wait)

def delay (machine : Machine W R) : Nat := (machine.parked.map (Parked.delay machine.time)).sum

def awake (machine : Machine W R) : Nat := machine.ready.length + 2 * machine.held.toList.length

/-- There is less to come for the first machine than for the second one. -/
def Nearer (later machine : Machine W R) : Prop :=
  Prod.Lex (Relation.CutExpand Wait.After) (Prod.Lex (· < ·) (· < ·))
    (later.pending, later.delay, later.awake) (machine.pending, machine.delay, machine.awake)

theorem wellFounded_nearer : WellFounded (Nearer (W := W) (R := R)) :=
  InvImage.wf (fun machine : Machine W R => (machine.pending, machine.delay, machine.awake))
    (Wait.wellFounded_after.cutExpand.prod_lex (Nat.lt_wfRel.wf.prod_lex Nat.lt_wfRel.wf))

variable {machine after : Machine W R}

theorem pending_eq (moved : after.strands.Perm machine.strands) : after.pending = machine.pending :=
  Multiset.coe_eq_coe.mpr (moved.map Strand.wait)

theorem nearer_of_delay (moved : after.strands.Perm machine.strands) (sooner : after.delay < machine.delay) :
    after.Nearer machine := by
  rw [Nearer, pending_eq moved]
  exact .right _ (.left _ _ sooner)

theorem nearer_of_awake (moved : after.strands.Perm machine.strands) (same : after.delay = machine.delay)
    (fewer : after.awake < machine.awake) : after.Nearer machine := by
  rw [Nearer, pending_eq moved, same]
  exact .right _ (.right _ fewer)

theorem left_after {halt : Halt W R} {leads : Wait W R → Prop} {before : Machine W R}
    (ran : Ran leads before halt after) (owner : Owner) : ∀ strand ∈ halt.left owner, leads strand.wait := by
  intro strand member
  cases halt with
  | parked wait deadline =>
      cases List.mem_singleton.mp member
      exact ran.waits wait deadline rfl
  | settled result => cases member
  | broken panic => cases member
  | gone => cases member
  | exhausted => cases member

theorem OneMain.pending_turn (one : machine.OneMain) {strand : Strand W R} {ready : List (Strand W R)}
    (queue : machine.ready = strand :: ready) (attached : Bool) (clock : Nat → Readings)
    (close : R → Effect W ρ) :
    Relation.CutExpand Wait.After (machine.round attached clock close).pending machine.pending := by
  have ran := resume_ran clock strand.wait { machine with ready }
  obtain ⟨added, grown, branches, _⟩ := ran.strands
  have moved := (one.turn queue attached clock close).1.trans (grown.append_left _)
  refine ⟨↑(((resume clock strand.wait { machine with ready }).1.left strand.owner ++ added).map
    Strand.wait), strand.wait, ?_, ?_⟩
  · intro wait member
    obtain ⟨new, found, rfl⟩ := List.mem_map.mp (Multiset.mem_coe.mp member)
    rcases List.mem_append.mp found with left | branch
    · exact left_after ran strand.owner new left
    · exact (branches new branch).2
  · have before : machine.pending = {strand.wait} + pending { machine with ready } := by
      simp only [pending, strands_ready queue, List.map_cons]
      rfl
    have later : (machine.round attached clock close).pending =
        ↑(((resume clock strand.wait { machine with ready }).1.left strand.owner ++ added).map Strand.wait) +
          pending { machine with ready } := by
      have same := Multiset.coe_eq_coe.mpr (moved.map Strand.wait)
      rw [← List.append_assoc, List.map_append, ← Multiset.coe_add] at same
      exact same
    rw [before, later]
    abel

theorem OneMain.nearer_turn (one : machine.OneMain) {strand : Strand W R} {ready : List (Strand W R)}
    (queue : machine.ready = strand :: ready) (attached : Bool) (clock : Nat → Readings)
    (close : R → Effect W ρ) : (machine.round attached clock close).Nearer machine :=
  .left _ _ (one.pending_turn queue attached clock close)

theorem nearer_release {strand : Strand W R} (empty : machine.ready = [])
    (back : machine.held = some strand) :
    Nearer { machine with ready := [strand], held := none } machine := by
  refine nearer_of_awake (strands_release empty back) rfl ?_
  simp only [awake, empty, back, Option.toList_some, Option.toList_none, List.length_singleton,
    List.length_nil]
  omega

theorem relistens_strands {interval : Nat} (still : machine.Relistens interval after) :
    after.strands.Perm machine.strands := by
  obtain ⟨owner, channel, next, ready, queue, _, rfl⟩ := still
  simp only [strands, queue, List.map_append, List.map_cons, List.map_nil, List.append_assoc,
    List.cons_append]
  rw [← List.append_assoc, ← List.append_assoc]
  exact List.perm_middle

theorem nearer_relistens {interval : Nat} (still : machine.Relistens interval after) :
    after.Nearer machine := by
  have moved := relistens_strands still
  obtain ⟨owner, channel, next, ready, queue, _, rfl⟩ := still
  refine nearer_of_awake moved ?_ ?_
  · simp only [delay, List.map_append, List.map_cons, List.map_nil, List.sum_append, List.sum_cons,
      List.sum_nil, Parked.delay, Nat.add_zero]
  · simp only [awake, queue, List.length_cons]
    omega

def Timely (machine : Machine W R) : Prop := ∀ parked ∈ machine.parked, machine.time < parked.deadline

theorem lt_of_earliest {parked : List (Parked W R)} {time : Nat}
    (later : ∀ strand ∈ parked, time < strand.deadline) : ∀ now, earliest parked = some now → time < now := by
  induction parked with
  | nil =>
      rintro now ⟨⟩
  | cons first rest ih =>
      intro now found
      have others := ih fun strand member => later strand (List.mem_cons_of_mem _ member)
      have here := later first List.mem_cons_self
      simp only [earliest] at found
      split at found
      · rename_i soonest known
        cases found
        have further := others soonest known
        omega
      · cases found
        exact here

def delayFrom (now : Nat) (parked : Parked W R) : Nat :=
  if parked.deadline ≤ now then 0 else parked.delay now

theorem sum_notDue (now : Nat) (parked : List (Parked W R)) :
    ((parked.filter (not ∘ fun parked => decide (parked.deadline ≤ now))).map (Parked.delay now)).sum =
      (parked.map (delayFrom now)).sum := by
  induction parked with
  | nil => rfl
  | cons first rest ih =>
      by_cases due : first.deadline ≤ now
      · simpa [List.filter_cons, due, delayFrom] using ih
      · simpa [List.filter_cons, due, delayFrom] using ih

theorem delayFrom_le {time now : Nat} (moved : time < now) (parked : Parked W R) :
    delayFrom now parked ≤ parked.delay time := by
  unfold delayFrom Parked.delay
  cases parked.strand.wait with
  | resting next =>
      simp only
      split <;> omega
  | listening channel next => simp

theorem delayFrom_lt {time now : Nat} (moved : time < now) {parked : Parked W R}
    (later : time < parked.deadline) {next : Unit → Program W R}
    (sleeps : parked.strand.wait = .resting next) : delayFrom now parked < parked.delay time := by
  simp only [delayFrom, Parked.delay, sleeps]
  split <;> omega

theorem nearer_jump {attached : Bool} (timely : machine.Timely)
    (sleeper : ∃ parked ∈ machine.parked, ∃ next, parked.strand.wait = .resting next)
    (jumped : machine.jump attached = some after) : after.Nearer machine := by
  refine nearer_of_delay (jump_strands jumped).1 ?_
  simp only [jump, List.partition_eq_filter_filter, Option.map_eq_some_iff] at jumped
  obtain ⟨now, soonest, rfl⟩ := jumped
  have moved := lt_of_earliest timely now soonest
  obtain ⟨parked, member, next, sleeps⟩ := sleeper
  simp only [delay, sum_notDue]
  refine List.sum_lt_sum _ _ (fun other _ => delayFrom_le moved other) ⟨parked, member, ?_⟩
  exact delayFrom_lt moved (timely parked member) sleeps

/-- What keeps listeners from waiting for nobody: each of them can still get a report, and for each report that
may still come there is a branch that has not ended. -/
structure Orderly (machine : Machine W R) : Prop where
  one : machine.OneMain
  awaited : ∀ parked ∈ machine.parked, ∀ channel next, parked.strand.wait = .listening channel next →
    machine.Awaited channel
  senders : ∀ channel, (machine.mailbox channel).senders ≤ machine.strands.countP (Strand.sendsTo channel)

/-- A strand only listens on channels that were opened after its own. -/
def Descending (machine : Machine W R) : Prop :=
  ∀ parked ∈ machine.parked, ∀ channel next, parked.strand.wait = .listening channel next →
    parked.strand.owner.Below channel

theorem below_of_sendsTo {strand : Strand W R} {channel later : Nat}
    (sends : strand.sendsTo channel = true) (below : strand.owner.Below later) : channel < later := by
  obtain ⟨owner, wait⟩ := strand
  cases owner with
  | main => cases sends
  | branch own name =>
      simp only [Strand.sendsTo, decide_eq_true_eq] at sends
      exact sends ▸ below

theorem Orderly.sleeper (orderly : machine.Orderly) (descending : machine.Descending)
    (empty : machine.ready = []) (nobody : machine.held = none) (somebody : machine.strands ≠ []) :
    ∃ parked ∈ machine.parked, ∃ next, parked.strand.wait = .resting next := by
  have strands : machine.strands = machine.parked.map Parked.strand := by
    simp only [Machine.strands, empty, nobody, Option.toList_none, List.append_nil, List.nil_append]
  by_contra none_
  have listens : ∀ parked ∈ machine.parked, ∃ channel next, parked.strand.wait = .listening channel next := by
    intro parked member
    cases wait : parked.strand.wait with
    | resting next => exact (none_ ⟨parked, member, next, wait⟩).elim
    | listening channel next => exact ⟨channel, next, rfl⟩
  have never (room : Nat) : ∀ parked ∈ machine.parked, ∀ channel next,
      parked.strand.wait = .listening channel next → machine.mailboxes.length ≤ channel + room → False := by
    induction room with
    | zero =>
        intro parked member channel next wait beyond
        have opened := (orderly.awaited parked member channel next wait).opened
        omega
    | succ room ih =>
        intro parked member channel next wait beyond
        have waiting := (orderly.awaited parked member channel next wait).2
        have sender : 0 < machine.strands.countP (Strand.sendsTo channel) :=
          Nat.lt_of_lt_of_le (Nat.pos_of_ne_zero waiting) (orderly.senders channel)
        obtain ⟨strand, found, sends⟩ := List.countP_pos_iff.mp sender
        rw [strands] at found
        obtain ⟨other, among, rfl⟩ := List.mem_map.mp found
        obtain ⟨later, again, listening⟩ := listens other among
        have above := below_of_sendsTo sends (descending other among later again listening)
        exact ih other among later again listening (by omega)
  cases parked : machine.parked with
  | nil =>
      rw [parked, List.map_nil] at strands
      exact somebody strands
  | cons first rest =>
      have member : first ∈ machine.parked := parked ▸ List.mem_cons_self
      obtain ⟨channel, next, wait⟩ := listens first member
      exact never machine.mailboxes.length first member channel next wait (Nat.le_add_left _ _)

theorem Orderly.rearrange (orderly : machine.Orderly) (moved : after.strands.Perm machine.strands)
    (mail : after.mailboxes = machine.mailboxes)
    (held : ∀ strand, after.held = some strand → isMain strand = true)
    (awaited : ∀ parked ∈ after.parked, ∀ channel next, parked.strand.wait = .listening channel next →
      machine.Awaited channel) : after.Orderly := by
  have same (channel : Nat) : after.mailbox channel = machine.mailbox channel := by
    simp only [mailbox, mail]
  refine ⟨⟨?_, held⟩, ?_, ?_⟩
  · rw [moved.countP_eq]
    exact orderly.one.mains
  · intro parked member channel next wait
    rw [Awaited, same]
    exact awaited parked member channel next wait
  · intro channel
    rw [same, moved.countP_eq]
    exact orderly.senders channel

theorem Orderly.relistens (orderly : machine.Orderly) {interval : Nat}
    (still : machine.Relistens interval after) : after.Orderly := by
  have moved := relistens_strands still
  obtain ⟨owner, channel, next, ready, queue, awaited, rfl⟩ := still
  refine orderly.rearrange moved rfl orderly.one.held fun parked member known after wait => ?_
  rcases List.mem_append.mp member with old | new
  · exact orderly.awaited parked old known after wait
  · cases List.mem_singleton.mp new
    cases wait
    exact awaited

theorem foldl_awaken_parked (attached : Bool) (woken : List (Parked W R)) : ∀ machine : Machine W R,
    (woken.foldl (fun machine parked => machine.awaken attached parked.strand) machine).parked =
      machine.parked := by
  induction woken with
  | nil =>
      intro machine
      rfl
  | cons parked rest ih =>
      intro machine
      rw [List.foldl_cons, ih]
      unfold awaken
      split <;> rfl

theorem awakenListeners_parked (attached : Bool) (channel : Nat) (machine : Machine W R) :
    (machine.awakenListeners attached channel).parked =
      machine.parked.filter (not ∘ listensTo channel) := by
  simp only [awakenListeners, List.partition_eq_filter_filter, foldl_awaken_parked]

structure OrderlyWith (strand : Strand W R) (machine : Machine W R) : Prop where
  one : machine.OneMain
  awaited : ∀ parked ∈ machine.parked, ∀ channel next, parked.strand.wait = .listening channel next →
    machine.Awaited channel
  senders : ∀ channel, (machine.mailbox channel).senders ≤
    (strand :: machine.strands).countP (Strand.sendsTo channel)

theorem mailbox_ended (attached : Bool) (channel other : Nat) (report : Option (NodeId × R)) :
    (machine.ended attached channel report).mailbox other =
      if other = channel ∧ channel < machine.mailboxes.length then
        ⟨(machine.mailbox channel).reports ++ report.toList, (machine.mailbox channel).senders - 1⟩
      else machine.mailbox other := by
  have boxed : (machine.ended attached channel report).mailboxes =
      (machine.setMailbox channel ⟨(machine.mailbox channel).reports ++ report.toList,
        (machine.mailbox channel).senders - 1⟩).mailboxes := by
    simp only [ended]
    split
    · exact (awakenListeners_strands attached channel _).2
    · rfl
  have same : (machine.ended attached channel report).mailbox other =
      (machine.setMailbox channel ⟨(machine.mailbox channel).reports ++ report.toList,
        (machine.mailbox channel).senders - 1⟩).mailbox other := by
    rw [mailbox, boxed]
    rfl
  rw [same]
  by_cases known : channel < machine.mailboxes.length
  · simp only [mailbox_setMailbox other _ known, known, and_true]
  · simp only [known, and_false, ↓reduceIte, mailbox, setMailbox,
      List.set_eq_of_length_le (Nat.le_of_not_lt known)]

theorem mem_parked_ended {attached : Bool} {channel : Nat} {report : Option (NodeId × R)}
    {parked : Parked W R} (member : parked ∈ (machine.ended attached channel report).parked) :
    parked ∈ machine.parked ∧ (listensTo channel parked = true →
      report = none ∧ (machine.mailbox channel).senders - 1 ≠ 0) := by
  simp only [ended] at member
  split at member
  · rw [awakenListeners_parked] at member
    obtain ⟨before, silent⟩ := List.mem_filter.mp member
    refine ⟨before, fun listens => ?_⟩
    simp [listens] at silent
  · rename_i nothing
    refine ⟨member, fun _ => ?_⟩
    simpa only [Bool.or_eq_true, decide_eq_true_eq, not_or, Option.not_isSome_iff_eq_none] using nothing

theorem OrderlyWith.ended {strand : Strand W R} {channel : Nat} {name : NodeId}
    (orderly : machine.OrderlyWith strand) (owner : strand.owner = .branch channel name)
    (attached : Bool) (report : Option (NodeId × R)) (one : (machine.ended attached channel report).OneMain) :
    (machine.ended attached channel report).Orderly := by
  refine ⟨one, ?_, ?_⟩
  · intro parked member other next wait
    obtain ⟨before, unheard⟩ := mem_parked_ended member
    have awaited := orderly.awaited parked before other next wait
    rw [Awaited, mailbox_ended]
    split
    · rename_i same
      obtain ⟨rfl, _⟩ := same
      obtain ⟨rfl, somebody⟩ := unheard (by simp only [listensTo, wait, decide_true])
      exact ⟨by simp only [awaited.1, Option.toList_none, List.append_nil], somebody⟩
    · exact awaited
  · intro other
    have before := orderly.senders other
    have sends : strand.sendsTo other = decide (channel = other) := by
      simp only [Strand.sendsTo, owner]
    rw [List.countP_cons, sends] at before
    rw [mailbox_ended, ((orderly.one.ended attached channel report).1).countP_eq]
    split
    · rename_i same
      obtain ⟨rfl, _⟩ := same
      simp only [decide_true, ↓reduceIte] at before ⊢
      omega
    · rename_i differs
      by_cases same : other = channel
      · subst same
        have unknown : machine.mailbox other = ⟨[], 0⟩ := by
          rw [mailbox, List.getElem?_eq_none (by omega)]
          rfl
        rw [unknown]
        exact Nat.zero_le _
      · simpa [Ne.symm same] using before

theorem OrderlyWith.placed {strand : Strand W R} (orderly : machine.OrderlyWith strand) (attached : Bool)
    (close : R → Effect W ρ) {halt : Halt W R} (free : ¬halt.Stuck)
    (listens : ∀ channel next deadline, halt = .parked (.listening channel next) deadline →
      machine.Awaited channel)
    (one : (machine.placed attached close strand.owner halt).OneMain) :
    (machine.placed attached close strand.owner halt).Orderly := by
  have moved := (orderly.one.placed attached close strand.owner halt).1
  obtain ⟨owner, wait⟩ := strand
  have main (same : owner = .main) : machine.Orderly := by
    subst same
    refine ⟨orderly.one, orderly.awaited, fun channel => ?_⟩
    simpa [Strand.sendsTo] using orderly.senders channel
  cases halt with
  | parked wait deadline =>
      refine ⟨one, ?_, ?_⟩
      · intro parked member channel next listening
        rcases List.mem_append.mp member with old | new
        · exact orderly.awaited parked old channel next listening
        · cases List.mem_singleton.mp new
          cases listening
          exact listens channel next deadline rfl
      · intro channel
        rw [moved.countP_eq]
        exact orderly.senders channel
  | settled result =>
      cases ownerIs : owner with
      | main =>
          have same := main ownerIs
          exact ⟨⟨same.one.mains, same.one.held⟩, same.awaited, same.senders⟩
      | branch channel name =>
          subst ownerIs
          exact orderly.ended rfl attached (some (name, result)) one
  | broken panic =>
      cases ownerIs : owner with
      | main => exact main ownerIs
      | branch channel name =>
          subst ownerIs
          exact orderly.ended rfl attached none one
  | gone => exact (free trivial).elim
  | exhausted => exact (free trivial).elim

theorem Orderly.round (orderly : machine.Orderly) (attached : Bool) {clock : Nat → Readings}
    (close : R → Effect W ρ) (lively : machine.Lively clock) : (machine.round attached clock close).Orderly := by
  cases queue : machine.ready with
  | cons strand ready =>
      have one := orderly.one.round attached clock close
      have ran := resume_ran clock strand.wait { machine with ready }
      obtain ⟨added, grown, _, senders⟩ := ran.strands
      rw [round_ready attached clock close queue] at one ⊢
      refine OrderlyWith.placed ⟨orderly.one.resumed queue clock, ?_, ?_⟩ attached close
        (lively strand ready queue) ran.listens one
      · intro parked member channel next wait
        rw [ran.parked] at member
        exact ran.awaited channel (orderly.awaited parked member channel next wait)
      · intro channel
        have now := senders channel
        have before : (machine.mailbox channel).senders ≤ _ := orderly.senders channel
        have same : mailbox { machine with ready } channel = machine.mailbox channel := rfl
        rw [strands_ready queue, List.countP_cons] at before
        rw [List.countP_cons, grown.countP_eq, List.countP_append]
        rw [same] at now
        omega
  | nil =>
      simp only [Machine.round, queue]
      cases back : machine.held with
      | some strand =>
          exact orderly.rearrange (strands_release queue back) rfl (by simp) orderly.awaited
      | none =>
          cases jumped : machine.jump attached with
          | none => simpa only [Option.getD_none] using orderly
          | some after =>
              obtain ⟨moved, mail⟩ := jump_strands jumped
              refine orderly.rearrange moved mail ?_ ?_
              · simp only [jump, Option.map_eq_some_iff] at jumped
                obtain ⟨time, _, rfl⟩ := jumped
                exact orderly.one.held
              · simp only [jump, List.partition_eq_filter_filter, Option.map_eq_some_iff] at jumped
                obtain ⟨time, _, rfl⟩ := jumped
                intro parked member
                exact orderly.awaited parked (List.mem_filter.mp member).1

theorem forall_of_forall₂ {α β : Type 1} {rel : α → β → Prop} {good : β → Prop} {first : List α}
    {second : List β} (both : List.Forall₂ rel first second) (implies : ∀ a b, rel a b → good b) :
    ∀ b ∈ second, good b := by
  induction both with
  | nil => simp
  | cons head _ ih =>
      intro b member
      rcases List.mem_cons.mp member with rfl | later
      · exact implies _ _ head
      · exact ih b later

namespace Follows
variable {patience : Option Nat} {whole : Protocol R} {ends : Attempt R → Prop} {count : Nat}
  {machine other : Machine W R}

theorem timely (follows : machine.Follows patience Eq whole ends count other) (calm : patience ≠ none) :
    other.Timely := by
  refine forall_of_forall₂ follows.parked fun parked otherParked both => ?_
  rw [follows.time, both.deadline]
  exact both.later calm

theorem descending (follows : machine.Follows patience Eq whole ends count other) : other.Descending := by
  refine forall_of_forall₂ follows.parked fun parked otherParked both => ?_
  intro channel next wait
  obtain ⟨protocol, own, keeps, waits⟩ := both.strand.waits
  rw [both.strand.owner]
  rw [wait] at waits
  generalize parked.strand.wait = first at waits
  cases waits with
  | listening rest =>
      cases rest with
      | receive _ known _ _ _ => exact keeps.below channel _ known
      | await _ _ known _ _ _ _ => exact keeps.below channel _ known

theorem strands_nil (follows : machine.Follows patience Eq whole ends count other)
    (nobody : other.strands = []) : machine.strands = [] := by
  simp only [strands, List.append_eq_nil_iff, List.map_eq_nil_iff, Option.toList_eq_nil_iff] at nobody ⊢
  obtain ⟨⟨ready, parked⟩, held⟩ := nobody
  have readyAlike := follows.ready
  have parkedAlike := follows.parked
  have heldAlike := follows.held
  rw [ready] at readyAlike
  rw [parked] at parkedAlike
  rw [held] at heldAlike
  refine ⟨⟨List.forall₂_nil_right_iff.mp readyAlike, List.forall₂_nil_right_iff.mp parkedAlike⟩, ?_⟩
  generalize machine.held = back at heldAlike
  cases heldAlike
  rfl

end Follows

theorem Orderly.nearer_round (orderly : machine.Orderly) (timely : machine.Timely)
    (descending : machine.Descending) (somebody : machine.strands ≠ []) (attached : Bool)
    (clock : Nat → Readings) (close : R → Effect W ρ) :
    (machine.round attached clock close).Nearer machine := by
  cases queue : machine.ready with
  | cons strand ready => exact orderly.one.nearer_turn queue attached clock close
  | nil =>
      simp only [Machine.round, queue]
      cases back : machine.held with
      | some strand => exact nearer_release queue back
      | none =>
          cases jumped : machine.jump attached with
          | none => exact (somebody (strands_of_jump queue back jumped)).elim
          | some after =>
              have sleeper := orderly.sleeper descending queue back somebody
              exact nearer_jump timely sleeper jumped

theorem Relistens.unique {interval : Nat} {other : Machine W R} (still : machine.Relistens interval after)
    (too : machine.Relistens interval other) : other = after := by
  obtain ⟨_, _, _, _, queue, _, rfl⟩ := still
  obtain ⟨_, _, _, _, same, _, rfl⟩ := too
  rw [queue] at same
  cases same
  rfl

/-- A patient machine comes to rest if it follows an orderly one for long enough. How long that is depends on
the orderly machine alone. -/
theorem Orderly.comes_to_rest (interval : Nat) (attached : Bool) (clock : Nat → Readings)
    (close : R → Effect W ρ) (ends : Attempt R → Prop) (other : Machine W R) : other.Orderly →
      ∃ count rounds seen, ∀ (machine : Machine W R) (whole : Protocol R),
        machine.Follows (some interval) Eq whole ends count other →
          machine.ComesToRest attached clock close seen rounds := by
  induction other using wellFounded_nearer.induction with
  | _ other ih =>
      intro orderly
      have calm : some interval ≠ none := Option.some_ne_none interval
      by_cases anybody : ∃ machine : Machine W R, ∃ whole,
          machine.Follows (some interval) Eq whole ends 2 other
      · obtain ⟨first, whole, follows⟩ := anybody
        by_cases nobody : other.strands = []
        · refine ⟨0, 0, [other.world], fun machine whole follows => .rest ?_ (follows.strands_nil nobody)⟩
          exact List.mem_singleton.mpr follows.related
        · obtain ⟨count, rounds, seen, onward⟩ : ∃ count rounds seen, ∀ (machine : Machine W R) whole,
              other.Lively clock →
                machine.Follows (some interval) Eq whole ends count (other.round attached clock close) →
                  machine.ComesToRest attached clock close seen rounds := by
            by_cases lively : other.Lively clock
            · obtain ⟨count, rounds, seen, rests⟩ := ih _
                (orderly.nearer_round (follows.timely calm) follows.descending nobody attached clock
                  close)
                (orderly.round attached close lively)
              exact ⟨count, rounds, seen, fun machine whole _ => rests machine whole⟩
            · exact ⟨0, 0, [], fun _ _ free => (lively free).elim⟩
          obtain ⟨count', rounds', seen', again⟩ : ∃ count rounds seen, ∀ (machine after : Machine W R) whole,
              other.Relistens interval after →
                machine.Follows (some interval) Eq whole ends count after →
                  machine.ComesToRest attached clock close seen rounds := by
            by_cases relistens : ∃ after, other.Relistens interval after
            · obtain ⟨after, still⟩ := relistens
              obtain ⟨count, rounds, seen, rests⟩ := ih after (nearer_relistens still) (orderly.relistens still)
              refine ⟨count, rounds, seen, fun machine other whole too => ?_⟩
              rw [still.unique too]
              exact rests machine whole
            · exact ⟨0, 0, [], fun _ after _ still => (relistens ⟨after, still⟩).elim⟩
          refine ⟨max count count' + 2, max rounds rounds' + 1, other.world :: (seen ++ seen'),
            fun machine whole follows => ?_⟩
          obtain ⟨wide, after, _, later, which⟩ := follows.round attached clock fun result => .refl (close result)
          refine .round ?_ (follows.lively calm clock) ?_
          · rw [follows.related]
            exact List.mem_cons_self
          · rcases which with ⟨rfl, lively⟩ | ⟨_, ⟨⟩, still⟩
            · have rests := onward _ wide (lively calm) (later.weaken (Nat.le_max_left _ _))
              exact rests.mono (fun _ member => by simp [member]) (Nat.le_max_left _ _)
            · have rests := again _ after wide still (later.weaken (Nat.le_max_right _ _))
              exact rests.mono (fun _ member => by simp [member]) (Nat.le_max_right _ _)
      · exact ⟨2, 0, [], fun machine whole follows => (anybody ⟨machine, whole, follows⟩).elim⟩

end Machine
end FlowGraph
