import Mathlib.Logic.Function.Iterate
import FlowGraph.Proofs.Program.Lockstep.Advance

/-!
One round of two machines in lockstep. Either both go through the same round, or a patient strand has heard
once more that there is no report yet, and the strand of the other machine still listens.
-/

namespace FlowGraph
variable {W V R : Type} {patience : Option Nat} {worlds : W → V → Prop} {whole wide : Protocol R}
  {ends : Attempt R → Prop} {count less : Nat}

theorem Strand.Follows.isMain {strand : Strand W R} {other : Strand V R}
    (follows : strand.Follows patience worlds whole ends count other) :
    Machine.isMain other = Machine.isMain strand := by
  simp only [Machine.isMain, follows.owner]

theorem Parked.Follows.listensTo {time : Nat} {parked : Parked W R} {other : Parked V R}
    (follows : parked.Follows patience worlds whole ends count time other) (channel : Nat) :
    Machine.listensTo channel other = Machine.listensTo channel parked := by
  obtain ⟨_, _, _, waits⟩ := follows.strand.waits
  unfold Machine.listensTo
  generalize parked.strand.wait = wait, other.strand.wait = otherWait at waits
  cases waits with
  | resting rest => rfl
  | listening rest => rfl

theorem HaltAlike.fewer {owner : Owner} {first : Halt W R × Machine W R} {second : Halt V R × Machine V R}
    (alike : HaltAlike patience worlds whole ends count owner first second) (smaller : less ≤ count) :
    HaltAlike patience worlds whole ends less owner first second := by
  obtain ⟨wide, wider, machines, halts⟩ := alike
  refine ⟨wide, wider, machines.weaken smaller, ?_⟩
  generalize first.1 = halt, second.1 = otherHalt at halts
  cases halts with
  | settled keeps holds => exact .settled keeps holds
  | broken keeps holds => exact .broken keeps holds
  | parked strand later => exact .parked (strand.weaken (Protocol.Widens.refl wide) (by omega)) later
  | gone impatient => exact .gone impatient
  | exhausted impatient => exact .exhausted impatient

namespace Halt.Follows
variable {time : Nat} {owner : Owner} {halt : Halt W R} {other : Halt V R}

theorem lively (halts : halt.Follows patience worlds whole ends count time owner other)
    (calm : patience ≠ none) : ¬other.Stuck := by
  cases halts with
  | settled keeps holds => exact id
  | broken keeps holds => exact id
  | parked strand later => exact id
  | gone impatient => exact (calm impatient).elim
  | exhausted impatient => exact (calm impatient).elim

theorem stuck (halts : halt.Follows patience worlds whole ends count time owner other) :
    halt.Stuck ↔ other.Stuck := by
  cases halts <;> rfl

end Halt.Follows

namespace Machine

/-- The first strand that is ready listens on, as if its timer had not woken it. -/
def Relistens (interval : Nat) (machine after : Machine V R) : Prop :=
  ∃ owner channel next ready,
    machine.ready = ⟨owner, .listening channel next⟩ :: ready ∧ machine.Awaited channel ∧
    after = { machine with
      ready, parked := machine.parked ++ [⟨⟨owner, .listening channel next⟩, machine.time + interval⟩] }

/-- A listener that finds nothing goes on listening. -/
def Still (interval : Nat) (other : Machine V R) (wait : Wait V R) (halted : Halt V R × Machine V R) :
    Prop :=
  ∃ channel next, wait = .listening channel next ∧ other.Awaited channel ∧
    halted = (.parked wait (other.time + interval), other)

namespace Follows
variable {machine : Machine W R} {other : Machine V R}

theorem resume (machines : machine.Follows patience worlds whole ends (count + 1) other)
    (clock : Nat → Readings) {owner : Owner} {protocol : Protocol R} {own : Attempt R → Prop}
    {wait : Wait W R} {otherWait : Wait V R}
    (waits : wait.Follows patience worlds (count + 1 + backlog machine.mailboxes) protocol own otherWait)
    (keeps : owner.Keeps whole ends protocol own) :
    ∃ halted, HaltAlike patience worlds whole ends count owner (Machine.resume clock wait machine) halted ∧
      (halted = Machine.resume clock otherWait other ∨
        ∃ interval, patience = some interval ∧ other.Still interval otherWait halted) := by
  cases waits with
  | resting rest =>
      exact ⟨_, (rest.advance clock rfl keeps machines).fewer (Nat.le_succ count), .inl rfl⟩
  | @listening channel interval next otherNext rest =>
      have together := rest.advance clock rfl keeps machines
      have sameMail : other.take? channel = (delivery? machine.mailboxes channel).map
          fun found => (found.1, { other with mailboxes := found.2 }) := by
        rw [take?_eq, machines.mailboxes]
      cases found : delivery? machine.mailboxes channel with
      | some taken =>
          have first : machine.take? channel = some (taken.1, { machine with mailboxes := taken.2 }) := by
            rw [take?_eq, found, Option.map_some]
          have second : other.take? channel = some (taken.1, { other with mailboxes := taken.2 }) := by
            rw [sameMail, found, Option.map_some]
          simp only [Machine.advance, first, second] at together
          simp only [Machine.resume, first, second]
          exact ⟨_, together.fewer (Nat.le_succ count), .inl rfl⟩
      | none =>
          have first : machine.take? channel = none := by rw [take?_eq, found, Option.map_none]
          have second : other.take? channel = none := by rw [sameMail, found, Option.map_none]
          simp only [Machine.resume, first, second]
          have enough : count + backlog machine.mailboxes < count + 1 + backlog machine.mailboxes := by
            omega
          cases rest with
          | receive impatient known closed report quiet =>
              have on := (quiet _ enough).advance clock rfl keeps (machines.weaken (Nat.le_succ count))
              exact ⟨_, on, .inl rfl⟩
          | @await _ _ _ _ _ _ _ _ late looks calm timely known closed report otherQuiet quiet =>
              have on := (quiet _ enough).advance clock rfl keeps (machines.weaken (Nat.le_succ count))
              simp only [Program.time, Machine.advance] at on
              cases after : late other.time with
              | true =>
                  simp only [after, ↓reduceIte] at on
                  refine ⟨_, on, .inl ?_⟩
                  rw [otherQuiet]
                  rfl
              | false =>
                  simp only [after, Bool.false_eq_true, ↓reduceIte, Machine.advance, second] at on
                  exact ⟨_, on, .inr ⟨interval, calm, channel, otherNext, rfl,
                    awaited_of_take? second, rfl⟩⟩

theorem awaken (follows : machine.Follows patience worlds whole ends count other) (attached : Bool)
    {strand : Strand W R} {otherStrand : Strand V R}
    (strands : strand.Follows patience worlds whole ends (count + backlog machine.mailboxes) otherStrand) :
    (machine.awaken attached strand).Follows patience worlds whole ends count
      (other.awaken attached otherStrand) := by
  simp only [Machine.awaken, strands.isMain]
  split
  · exact { follows with held := .some strands }
  · exact { follows with ready := List.rel_append follows.ready (.cons strands .nil) }

theorem foldl_awaken (attached : Bool) {woken : List (Parked W R)} {otherWoken : List (Parked V R)}
    {fuel time : Nat}
    (parked : List.Forall₂ (Parked.Follows patience worlds whole ends fuel time) woken otherWoken) :
    ∀ {machine : Machine W R} {other : Machine V R}, fuel = count + backlog machine.mailboxes →
      machine.Follows patience worlds whole ends count other →
        (woken.foldl (fun machine parked => machine.awaken attached parked.strand) machine).Follows patience
          worlds whole ends count
          (otherWoken.foldl (fun machine parked => machine.awaken attached parked.strand) other) := by
  induction parked with
  | nil =>
      intro machine other _ follows
      exact follows
  | @cons first second _ _ both _ ih =>
      intro machine other enough follows
      subst enough
      have same := (awaken_strands attached machine first.strand).2
      exact ih (by rw [same]) (follows.awaken attached both.strand)

theorem awakenListeners (follows : machine.Follows patience worlds whole ends count other)
    (attached : Bool) (channel : Nat) :
    (machine.awakenListeners attached channel).Follows patience worlds whole ends count
      (other.awakenListeners attached channel) := by
  simp only [Machine.awakenListeners, List.partition_eq_filter_filter]
  have kept (keep : Bool → Bool) : List.Forall₂ _
      (machine.parked.filter fun parked => keep (listensTo channel parked))
      (other.parked.filter fun parked => keep (listensTo channel parked)) :=
    List.rel_filter (by
      intro parked otherParked both
      simp only [both.listensTo channel]) follows.parked
  exact foldl_awaken attached (kept id) rfl { follows with parked := kept not }

theorem ended (follows : machine.Follows patience worlds whole ends (count + 1) other) (attached : Bool)
    (channel : Nat) (report : Option (NodeId × R))
    (fits : ∀ good, whole channel = some good → ∀ pair ∈ report, good pair.1 pair.2) :
    (machine.ended attached channel report).Follows patience worlds whole ends count
      (other.ended attached channel report) := by
  have sameMail : other.mailbox channel = machine.mailbox channel := by
    simp only [mailbox, follows.mailboxes]
  simp only [Machine.ended, sameMail]
  have boxed : Machine.Follows patience worlds whole ends count
      (machine.setMailbox channel ⟨(machine.mailbox channel).reports ++ report.toList,
        (machine.mailbox channel).senders - 1⟩)
      (other.setMailbox channel ⟨(machine.mailbox channel).reports ++ report.toList,
        (machine.mailbox channel).senders - 1⟩) := by
    simp only [setMailbox, follows.mailboxes]
    refine follows.rebox (Protocol.Widens.refl whole) ?_ ?_ ?_
    · intro known good found
      rw [List.length_set]
      exact follows.known known good found
    · intro known good found pair member
      rw [List.getElem?_set] at member
      split at member
      · rename_i same
        subst same
        have opened := follows.known channel good found
        simp only [opened, ↓reduceIte, Option.getD_some, List.mem_append, Option.mem_toList] at member
        rcases member with old | new
        · exact follows.honest channel good found pair old
        · exact fits good found pair new
      · exact follows.honest known good found pair member
    · by_cases opened : channel < machine.mailboxes.length
      · have grown := backlog_set opened ⟨(machine.mailbox channel).reports ++ report.toList,
          (machine.mailbox channel).senders - 1⟩
        have one : report.toList.length ≤ 1 := by cases report <;> simp
        simp only [mailbox, List.length_append] at grown ⊢
        omega
      · rw [List.set_eq_of_length_le (by omega)]
        omega
  split
  · exact boxed.awakenListeners attached channel
  · exact boxed

theorem placed {ρ : Type} {close : R → Effect W ρ} {otherClose : R → Effect V ρ}
    (follows : machine.Follows patience worlds whole ends (count + 1) other) (attached : Bool)
    (closes : ∀ result, (close result).Alike worlds (otherClose result)) {owner : Owner}
    {halt : Halt W R} {otherHalt : Halt V R}
    (halts : halt.Follows patience worlds whole ends (count + 1 + backlog machine.mailboxes) machine.time
      owner otherHalt) :
    (machine.placed attached close owner halt).Follows patience worlds whole ends count
      (other.placed attached otherClose owner otherHalt) := by
  cases halts with
  | @settled own result keeps holds =>
      cases owner with
      | main =>
          have closed : worlds (close result machine.time machine.world).2
              (otherClose result other.time other.world).2 := by
            rw [follows.time]
            exact (closes result machine.time _ _ follows.related).2
          exact { follows.weaken (Nat.le_succ count) with related := closed }
      | branch channel name =>
          obtain ⟨good, known, rfl⟩ := keeps
          refine follows.ended attached channel (some _) fun other found pair member => ?_
          rw [known] at found
          cases found
          cases member
          exact holds
  | broken keeps holds =>
      cases owner with
      | main => exact follows.weaken (Nat.le_succ count)
      | branch channel name => exact follows.ended attached channel none (by rintro _ _ _ ⟨⟩)
  | parked strand later =>
      have machines := follows.weaken (Nat.le_succ count)
      refine { machines with parked := List.rel_append machines.parked (.cons ?_ .nil) }
      exact ⟨strand.weaken (Protocol.Widens.refl whole) (Nat.add_le_add_right (Nat.le_succ count) _), rfl, later⟩
  | gone impatient => exact follows.weaken (Nat.le_succ count)
  | exhausted impatient => exact follows.weaken (Nat.le_succ count)

theorem start {world : W} {view : V} {program : Program W R} {other : Program V R}
    (related : worlds world view) (asked : Nat)
    (follows : Program.Follows patience worlds count .closed ends program other) :
    Machine.Follows patience worlds .closed ends count { Machine.start world program with asked }
      { Machine.start view other with asked } where
  related := related
  time := rfl
  asked := rfl
  mailboxes := rfl
  known := by rintro channel good ⟨⟩
  honest := by rintro channel good ⟨⟩
  ready := by
    refine .cons ⟨rfl, .closed, ends, ⟨Protocol.Widens.refl _, ?_, rfl⟩, .resting follows⟩ .nil
    rintro channel good ⟨⟩
  parked := .nil
  held := .none

theorem earliest_eq {fuel time : Nat} {parked : List (Parked W R)} {otherParked : List (Parked V R)}
    (follows : List.Forall₂ (Parked.Follows patience worlds whole ends fuel time) parked otherParked) :
    earliest otherParked = earliest parked := by
  induction follows with
  | nil => rfl
  | cons both _ ih => simp only [earliest, ih, both.deadline]

theorem notDue {fuel time now : Nat} {parked : List (Parked W R)} {otherParked : List (Parked V R)}
    (follows : List.Forall₂ (Parked.Follows patience worlds whole ends fuel time) parked otherParked) :
    List.Forall₂ (Parked.Follows patience worlds whole ends fuel now)
      (parked.filter (not ∘ fun parked => decide (parked.deadline ≤ now)))
      (otherParked.filter (not ∘ fun parked => decide (parked.deadline ≤ now))) := by
  induction follows with
  | nil => exact .nil
  | @cons first second _ _ both _ ih =>
      by_cases due : first.deadline ≤ now
      · simpa only [List.filter_cons, Function.comp_apply, both.deadline, due, decide_true, Bool.not_true,
          Bool.false_eq_true, ↓reduceIte] using ih
      · simp only [List.filter_cons, Function.comp_apply, both.deadline, due, decide_false, Bool.not_false,
          ↓reduceIte]
        exact .cons ⟨both.strand, both.deadline, fun _ => Nat.lt_of_not_le due⟩ ih

theorem filter_isMain {fuel : Nat} {strands : List (Strand W R)} {others : List (Strand V R)}
    (keep : Bool → Bool)
    (follows : List.Forall₂ (Strand.Follows patience worlds whole ends fuel) strands others) :
    List.Forall₂ (Strand.Follows patience worlds whole ends fuel)
      (strands.filter fun strand => keep (isMain strand))
      (others.filter fun strand => keep (isMain strand)) :=
  List.rel_filter (by
    intro strand other both
    simp only [both.isMain]) follows

theorem jump (follows : machine.Follows patience worlds whole ends count other) (attached : Bool) :
    Option.Rel (fun machine other => machine.Follows patience worlds whole ends count other)
      (machine.jump attached) (other.jump attached) := by
  simp only [Machine.jump, List.partition_eq_filter_filter, earliest_eq follows.parked]
  cases earliest machine.parked with
  | none => exact .none
  | some now =>
      have due : List.Forall₂ (Strand.Follows patience worlds whole ends
          (count + backlog machine.mailboxes))
          ((machine.parked.filter fun parked => decide (parked.deadline ≤ now)).map Parked.strand)
          ((other.parked.filter fun parked => decide (parked.deadline ≤ now)).map Parked.strand) := by
        refine List.rel_map (fun _ _ both => both.strand) (List.rel_filter ?_ follows.parked)
        intro parked otherParked both
        simp only [both.deadline]
      refine .some { follows with time := rfl, parked := notDue follows.parked, ready := ?_ }
      refine List.rel_append follows.ready ?_
      cases attached with
      | true => exact List.rel_append (filter_isMain id due) (filter_isMain not due)
      | false => exact due

theorem turn (follows : machine.Follows patience worlds whole ends (count + 2) other)
    (clock : Nat → Readings) {strand : Strand W R} {ready : List (Strand W R)}
    (queue : machine.ready = strand :: ready) :
    ∃ otherWait otherReady halted, other.ready = ⟨strand.owner, otherWait⟩ :: otherReady ∧
      HaltAlike patience worlds whole ends (count + 1) strand.owner
        (Machine.resume clock strand.wait { machine with ready }) halted ∧
      (halted = Machine.resume clock otherWait { other with ready := otherReady } ∨
        ∃ interval, patience = some interval ∧
          Still interval { other with ready := otherReady } otherWait halted) := by
  have first := follows.ready
  rw [queue] at first
  generalize otherQueue : other.ready = otherStrands at first
  cases first with
  | @cons _ otherStrand _ otherReady both rest =>
      obtain ⟨otherOwner, otherWait⟩ := otherStrand
      obtain rfl : otherOwner = strand.owner := both.owner
      obtain ⟨protocol, own, keeps, waits⟩ := both.waits
      have others : Machine.Follows patience worlds whole ends (count + 2) { machine with ready }
          { other with ready := otherReady } := { follows with ready := rest }
      obtain ⟨halted, alike, which⟩ := others.resume clock waits keeps
      exact ⟨otherWait, otherReady, halted, rfl, alike, which⟩

theorem round {ρ : Type} {close : R → Effect W ρ} {otherClose : R → Effect V ρ}
    (follows : machine.Follows patience worlds whole ends (count + 2) other) (attached : Bool)
    (clock : Nat → Readings) (closes : ∀ result, (close result).Alike worlds (otherClose result)) :
    ∃ wide after, wide.Widens whole ∧
      (machine.round attached clock close).Follows patience worlds wide ends count after ∧
      ((after = other.round attached clock otherClose ∧ (patience ≠ none → other.Lively clock)) ∨
        ∃ interval, patience = some interval ∧ other.Relistens interval after) := by
  cases queue : machine.ready with
  | cons strand ready =>
      obtain ⟨otherWait, otherReady, halted, otherQueue, ⟨wide, wider, machines, halts⟩, which⟩ :=
        follows.turn clock queue
      rw [round_ready attached clock close queue]
      refine ⟨wide, halted.2.placed attached otherClose strand.owner halted.1, wider,
        machines.placed attached closes halts, ?_⟩
      rcases which with rfl | ⟨interval, calm, channel, next, rfl, awaited, still⟩
      · refine .inl ⟨(round_ready attached clock otherClose otherQueue).symm, fun calm => ?_⟩
        intro other ready same
        rw [otherQueue] at same
        cases same
        exact halts.lively calm
      · refine .inr ⟨interval, calm, strand.owner, channel, next, otherReady, otherQueue, awaited, ?_⟩
        rw [still]
        rfl
  | nil =>
      have first := follows.ready
      rw [queue] at first
      have otherQueue := List.forall₂_nil_left_iff.mp first
      have machines := follows.weaken (Nat.le_add_right count 2)
      have back := machines.held
      have idle : other.Lively clock := by
        intro strand ready same
        rw [otherQueue] at same
        cases same
      simp only [Machine.round, queue, otherQueue]
      generalize machine.held = held, other.held = otherHeld at back
      cases back with
      | some both =>
          simp only
          refine ⟨whole, _, Protocol.Widens.refl whole, ?_, .inl ⟨rfl, fun _ => idle⟩⟩
          exact { machines with ready := .cons both .nil, held := .none }
      | none =>
          have jumped := machines.jump attached
          generalize machine.jump attached = after, other.jump attached = otherAfter at jumped
          cases jumped with
          | some both => exact ⟨whole, _, Protocol.Widens.refl whole, both, .inl ⟨rfl, fun _ => idle⟩⟩
          | none => exact ⟨whole, _, Protocol.Widens.refl whole, machines, .inl ⟨rfl, fun _ => idle⟩⟩

theorem rounds {ρ : Type} {close : R → Effect W ρ} {otherClose : R → Effect V ρ} (attached : Bool)
    (clock : Nat → Readings) (closes : ∀ result, (close result).Alike worlds (otherClose result))
    (number : Nat) : ∀ {whole : Protocol R} {machine : Machine W R} {other : Machine V R},
      machine.Follows none worlds whole ends (2 * number) other →
        ∃ wide, ((Machine.round attached clock close)^[number] machine).Follows none worlds wide ends 0
          ((Machine.round attached clock otherClose)^[number] other) := by
  induction number with
  | zero =>
      intro whole machine other follows
      exact ⟨whole, follows⟩
  | succ number ih =>
      intro whole machine other follows
      have twoMore : machine.Follows none worlds whole ends (2 * number + 2) other := follows
      obtain ⟨wide, after, _, later, which⟩ := twoMore.round attached clock closes
      rcases which with ⟨rfl, _⟩ | ⟨interval, impossible, _⟩
      · exact ih later
      · cases impossible

theorem lively (follows : machine.Follows patience worlds whole ends (count + 2) other)
    (calm : patience ≠ none) (clock : Nat → Readings) : machine.Lively clock := by
  intro strand ready queue
  obtain ⟨_, _, halted, _, ⟨wide, _, _, halts⟩, _⟩ := follows.turn clock queue
  exact fun stuck => halts.lively calm (halts.stuck.mp stuck)

end Follows
end Machine

def Verdict.Comes {ρ : Type} (ends : Attempt R → Prop) (close : R → Effect W ρ) : Verdict ρ → Prop
  | .settled result => ∃ outcome time world, ends (.ok outcome) ∧ (close outcome time world).1 = result
  | .broken panic => ends (.error panic)

namespace Machine

theorem comes_of_closed {ρ : Type} {worlds : W → W → Prop} {whole : Protocol R} {count : Nat}
    {machine other : Machine W R} (follows : machine.Follows none worlds whole ends (count + 2) other)
    {clock : Nat → Readings} {close : R → Effect W ρ} {wait : Wait W R} {ready : List (Strand W R)}
    (queue : machine.ready = ⟨.main, wait⟩ :: ready) {verdict : Verdict ρ} {after : Machine W R}
    (closes : closed close (resume clock wait { machine with ready }).1
      (resume clock wait { machine with ready }).2 = some (verdict, after)) : verdict.Comes ends close := by
  obtain ⟨_, _, halted, _, ⟨_, _, _, halts⟩, _⟩ := follows.turn clock queue
  generalize resume clock wait { machine with ready } = resumed at closes halts
  obtain ⟨halt, next⟩ := resumed
  generalize halted.1 = otherHalt at halts
  cases halts with
  | settled keeps holds =>
      cases keeps
      cases closes
      exact ⟨_, _, _, holds, rfl⟩
  | broken keeps holds =>
      cases keeps
      cases closes
      exact holds
  | parked strand later => cases closes
  | gone impatient => cases closes
  | exhausted impatient => cases closes

/-- However strands take turns, the verdict of a run is one of the ends of its main program. -/
theorem run_comes {ρ : Type} (attached : Bool) (clock : Nat → Readings) (close : R → Effect W ρ)
    (allowance : Nat) :
    ∀ (known : Option (Verdict ρ)) (whole : Protocol R) (machine other : Machine W R),
      machine.Follows none Eq whole ends (2 * allowance) other →
      (∀ verdict, known = some verdict → verdict.Comes ends close) →
        ∀ verdict after, run attached clock close allowance known machine = some (verdict, after) →
          verdict.Comes ends close := by
  induction allowance with
  | zero =>
      intro known whole machine other _ _ verdict after finished
      cases finished
  | succ allowance ih =>
      intro known whole machine other follows comes verdict after finished
      have twoMore : machine.Follows none Eq whole ends (2 * allowance + 2) other := follows
      obtain ⟨wide, next, _, later, _⟩ := twoMore.round attached clock fun result => .refl (close result)
      have goesOn (found : Option (Verdict ρ)) (good : ∀ verdict, found = some verdict →
          verdict.Comes ends close) := ih found wide _ next later good verdict after
      have onward := runsOn attached clock close allowance known machine
      rw [finished] at onward
      generalize same : some (verdict, after) = result at onward
      cases onward with
      | round _ => exact goesOn known comes same.symm
      | @closed _ wait ready found _ queue closes =>
          have good : found.Comes ends close := comes_of_closed twoMore queue closes
          split at same
          · cases same
            exact good
          · refine goesOn (some found) ?_ same.symm
            rintro _ ⟨⟩
            exact good
      | exhausted _ _ => cases same
      | decided =>
          cases same
          exact comes _ rfl
      | nobody _ => cases same

end Machine
end FlowGraph
