import FlowGraph.Proofs.Program.Clock
import FlowGraph.Proofs.Program.Lockstep.Run
import FlowGraph.Proofs.Program.Weaves

/-!
Machines that agree up to strands that nobody notices come to the same verdict. Each takes the turns of its own such
strands by itself, and the turns of all others in step with the other machine.
-/

namespace FlowGraph
variable {W R ρ : Type}

/-- A clock that shows the readings of another one in a new order, and those of a third one in between. -/
def relaid (clock fill : Nat → Readings) (seen : Nat → Option Nat) (index : Nat) : Readings :=
  (seen index).elim (fill index) clock

namespace Machine

/-- With some order of the readings, every run of the machine that is long enough comes to the same good end, unless
a strand is tired and may be. -/
def ComesTo (tired : Prop) (attached : Bool) (clock fill : Nat → Readings) (close : R → Effect W ρ)
    (known : Option (Verdict ρ)) (machine : Machine W R) (good : Verdict ρ × Machine W R → Prop) : Prop :=
  ∃ seen enough ending, good ending ∧ ∀ room, enough ≤ room →
    run attached (relaid clock fill seen) close room known machine = some ending ∨
      tired ∧ run attached (relaid clock fill seen) close room known machine = none

variable {tired : Prop} {attached : Bool} {clock fill : Nat → Readings} {close : R → Effect W ρ}
  {known later : Option (Verdict ρ)} {machine other : Machine W R} {good : Verdict ρ × Machine W R → Prop}

theorem ComesTo.of_round {first : Nat → Option Nat}
    (comes : (machine.round attached (relaid clock fill first) close).ComesTo tired attached clock fill close later
      good)
    (goesOn : ∀ view : Nat → Readings,
      (∀ index, index < (machine.round attached (relaid clock fill first) close).asked →
        view index = relaid clock fill first index) →
      ∀ room, run attached view close (room + 1) known machine =
        run attached view close room later (machine.round attached view close)) :
    machine.ComesTo tired attached clock fill close known good := by
  obtain ⟨seen, enough, ending, holds, runs⟩ := comes
  generalize turned : machine.round attached (relaid clock fill first) close = after at goesOn runs
  let both (index : Nat) : Option Nat := if index < after.asked then first index else seen index
  have before (index : Nat) (passed : index < after.asked) :
      relaid clock fill both index = relaid clock fill first index := by
    simp only [relaid, both, if_pos passed]
  have onward (index : Nat) (later : after.asked ≤ index) :
      relaid clock fill both index = relaid clock fill seen index := by
    simp only [relaid, both, if_neg (Nat.not_lt.mpr later)]
  have rounds : machine.round attached (relaid clock fill both) close = after := by
    rw [← turned]
    exact round_clock fun index passed => before index (turned ▸ passed)
  refine ⟨both, enough + 1, ending, holds, fun room long => ?_⟩
  obtain ⟨room, rfl⟩ := Nat.exists_eq_add_of_le' (Nat.lt_of_lt_of_le (Nat.zero_lt_succ _) long)
  rw [goesOn _ before, rounds, run_clock attached close room onward]
  exact runs room (Nat.le_of_succ_le_succ long)

theorem ComesTo.now (first : Nat → Option Nat) {ending : Verdict ρ × Machine W R} (holds : good ending)
    (ends : ∀ room, run attached (relaid clock fill first) close (room + 1) known machine = some ending) :
    machine.ComesTo tired attached clock fill close known good := by
  refine ⟨first, 1, ending, holds, fun room long => ?_⟩
  obtain ⟨room, rfl⟩ := Nat.exists_eq_add_of_le' long
  exact .inl (ends room)

theorem ComesTo.tires {first : Nat → Option Nat} {ending : Verdict ρ × Machine W R} (holds : good ending)
    (may : tired) (tires : machine.Tires (relaid clock fill first)) :
    machine.ComesTo tired attached clock fill close known good := by
  refine ⟨first, 1, ending, holds, fun room long => ?_⟩
  obtain ⟨room, rfl⟩ := Nat.exists_eq_add_of_le' long
  exact .inr ⟨may, tires.run attached close room known⟩

theorem run_closing {wait : Wait W R} {ready : List (Strand W R)} (queue : machine.ready = ⟨.main, wait⟩ :: ready)
    {verdict : Verdict ρ} {last : Machine W R}
    (ends : closed close (resume clock wait { machine with ready }).1
      (resume clock wait { machine with ready }).2 = some (verdict, last)) (allowance : Nat)
    (known : Option (Verdict ρ)) :
    last = machine.round attached clock close ∧ run attached clock close (allowance + 1) known machine =
      if attached then some (verdict, last)
      else run attached clock close allowance (some verdict) (machine.round attached clock close) := by
  have ended := closed_eq_placed attached ends
  rw [round_ready attached clock close queue, ← ended]
  refine ⟨rfl, ?_⟩
  simp only [run, queue]
  generalize resume clock wait { machine with ready } = resumed at ends ⊢
  obtain ⟨halt, after⟩ := resumed
  cases halt with
  | settled result =>
      simp only [ends]
  | broken panic =>
      simp only [ends]
  | parked wait deadline => cases ends
  | gone => cases ends
  | exhausted => cases ends

theorem OneMain.mains_rounds_le (attached : Bool) (clock : Nat → Readings) (close : R → Effect W ρ) (rounds : Nat) :
    ∀ {machine : Machine W R}, machine.OneMain →
      ((Machine.round attached clock close)^[rounds] machine).strands.countP isMain ≤
        machine.strands.countP isMain := by
  induction rounds with
  | zero => exact fun _ => Nat.le_refl _
  | succ rounds ih =>
      intro machine one
      exact Nat.le_trans (ih (one.round attached clock close)) (one.mains_le attached clock close)

theorem OneMain.run_at_round (attached : Bool) (clock : Nat → Readings) (close : R → Effect W ρ) (rounds : Nat) :
    ∀ {machine : Machine W R} {allowance : Nat} {ending : Verdict ρ × Machine W R}, machine.OneMain →
      run attached clock close allowance none machine = some ending →
      0 < ((Machine.round attached clock close)^[rounds] machine).strands.countP isMain →
        ∃ room, run attached clock close allowance none machine =
          run attached clock close room none ((Machine.round attached clock close)^[rounds] machine) := by
  induction rounds with
  | zero => exact fun _ _ _ => ⟨_, rfl⟩
  | succ rounds ih =>
      intro machine allowance ending one ends there
      cases allowance with
      | zero => cases ends
      | succ allowance =>
          rw [Function.iterate_succ_apply] at there ⊢
          have next := runsOn attached clock close allowance none machine
          generalize run attached clock close (allowance + 1) none machine = finished at ends next ⊢
          cases next with
          | round stays => exact ih (one.round attached clock close) ends there
          | exhausted => cases ends
          | nobody => cases ends
          | @closed _ wait ready _ last queue closing =>
              have fewer := mains_rounds_le attached clock close rounds (one.round attached clock close)
              have ended : last = machine.round attached clock close := (run_closing queue closing 0 none).1
              have left := congrArg (List.countP isMain) (closed_strands closing)
              rw [ended, (resume_ran clock wait { machine with ready }).mains] at left
              have mains := one.mains
              rw [strands_ready queue, List.countP_cons_of_pos rfl] at mains
              omega

variable {same : W → W → Prop} {mates : Nat → Nat → Prop} {awake : Prop}

/-- Whatever a run comes to within the allowance, every machine that agrees with it comes to as well. -/
def Carries (same : W → W → Prop) (tired : Prop) (attached : Bool) (clock fill : Nat → Readings)
    (close : R → Effect W ρ) (allowance : Nat) : Prop :=
  ∀ {known : Option (Verdict ρ)} {mates : Nat → Nat → Prop} {awake : Prop} {machine other : Machine W R}
    {ending : Verdict ρ × Machine W R}, run attached clock close allowance known machine = some ending →
      (known ≠ none → awake) → other.OneMain → machine.Weaves same True tired mates awake other →
        other.ComesTo tired attached clock fill close known (EndsAlike same ending)

theorem closed_twins (closes : ∀ result, (close result).Respects same) {halt haltToo : Halt W R}
    (halts : halt.Twins same mates haltToo) (weaves : machine.Weaves same True tired mates True other) :
    Option.Rel (EndsAlike same) (closed close halt machine) (closed close haltToo other) := by
  cases halts with
  | settled result =>
      obtain ⟨value, looks⟩ : (close result machine.time machine.world).1 = (close result other.time other.world).1 ∧
          same (close result machine.time machine.world).2 (close result other.time other.world).2 := by
        rw [weaves.time trivial]
        exact closes result machine.time _ _ weaves.world
      exact .some ⟨congrArg Verdict.settled value.symm, weaves.time trivial, looks⟩
  | broken panic => exact .some ⟨rfl, weaves.time trivial, weaves.world⟩
  | parked waits => exact .none
  | gone => exact .none
  | exhausted => exact .none

def abreast (machine other : Machine W R) (index : Nat) : Option Nat :=
  if index < other.asked then none else some (machine.asked + (index - other.asked))

theorem relaid_abreast (clock fill : Nat → Readings) (machine other : Machine W R) (index : Nat) :
    relaid clock fill (abreast machine other) (other.asked + index) = clock (machine.asked + index) := by
  rw [relaid, abreast, if_neg (Nat.not_lt.mpr (Nat.le_add_right _ _)), Nat.add_sub_cancel_left, Option.elim_some]

theorem not_tires {allowance : Nat} {ending : Verdict ρ × Machine W R}
    (ends : run attached clock close (allowance + 1) known machine = some ending) : ¬machine.Tires clock := by
  intro tires
  rw [tires.run] at ends
  cases ends

section
variable {strand twin : Strand W R} {ready readyToo : List (Strand W R)}

theorem Weaves.turn (closes : ∀ result, (close result).Respects same) (queue : machine.ready = strand :: ready)
    (queueToo : other.ready = twin :: readyToo) (twins : strand.Twins same mates twin)
    (weaves : Weaves same True tired mates True { machine with ready } { other with ready := readyToo })
    {clockToo : Nat → Readings} (clocks : ∀ index, clockToo (other.asked + index) = clock (machine.asked + index)) :
    ∃ more, (machine.round attached clock close).Weaves same True tired more True
        (other.round attached clockToo close) ∧
      (Machine.resume clock strand.wait { machine with ready }).1.Twins same more
        (Machine.resume clockToo twin.wait { other with ready := readyToo }).1 ∧
      Option.Rel (EndsAlike same)
        (closed close (Machine.resume clock strand.wait { machine with ready }).1
          (Machine.resume clock strand.wait { machine with ready }).2)
        (closed close (Machine.resume clockToo twin.wait { other with ready := readyToo }).1
          (Machine.resume clockToo twin.wait { other with ready := readyToo }).2) := by
  obtain ⟨more, grows, later, halts⟩ := weaves.resume twins.wait clocks
  rw [round_ready attached clock close queue, round_ready attached clockToo close queueToo]
  exact ⟨more, later.placed attached closes (twins.owner.mono grows) halts, halts, closed_twins closes halts later⟩

theorem resume_view (queue : machine.ready = strand :: ready) {view : Nat → Readings}
    (agree : ∀ index, index < (machine.round attached clock close).asked → view index = clock index) :
    Machine.resume view strand.wait { machine with ready } =
      Machine.resume clock strand.wait { machine with ready } :=
  resume_clock fun index _ passed => agree index (by rwa [round_ready attached _ close queue, asked_placed])

theorem Tires.view {view : Nat → Readings} (tires : machine.Tires view)
    (agree : ∀ index, index < (machine.round attached clock close).asked → view index = clock index) :
    machine.Tires clock := by
  obtain ⟨strand, ready, queue, exhausted⟩ := tires
  rw [resume_view queue agree] at exhausted
  exact ⟨strand, ready, queue, exhausted⟩

theorem Carries.turn {allowance : Nat} (carries : Carries (R := R) same tired attached clock fill close allowance)
    (closes : ∀ result, (close result).Respects same)
    {ending : Verdict ρ × Machine W R} (ends : run attached clock close (allowance + 1) known machine = some ending)
    (one : other.OneMain) (queue : machine.ready = strand :: ready) (queueToo : other.ready = twin :: readyToo)
    (twins : strand.Twins same mates twin)
    (weaves : Weaves same True tired mates True { machine with ready } { other with ready := readyToo }) :
    other.ComesTo tired attached clock fill close known (EndsAlike same ending) := by
  let clockToo := relaid clock fill (abreast machine other)
  obtain ⟨more, rounds, halts, closing⟩ := weaves.turn closes queue queueToo twins
    (relaid_abreast clock fill machine other)
  have onward {next : Option (Verdict ρ)}
      (goesOn : run attached clock close allowance next (machine.round attached clock close) = some ending) :
      (other.round attached clockToo close).ComesTo tired attached clock fill close next (EndsAlike same ending) :=
    carries goesOn (fun _ => trivial) (one.round attached clockToo close) rounds
  have lively := not_tires ends
  have livelyToo : ¬other.Tires clockToo := by
    rintro ⟨_, _, again, exhausted⟩
    obtain ⟨rfl, rfl⟩ := List.cons.inj (queueToo.symm.trans again)
    exact lively ⟨strand, ready, queue, halts.exhausted_iff.mp exhausted⟩
  by_cases stays : isMain strand = true →
      closed close (Machine.resume clock strand.wait { machine with ready }).1
        (Machine.resume clock strand.wait { machine with ready }).2 = none
  · rw [run_turn queue lively stays attached allowance known] at ends
    refine (onward ends).of_round fun view agree room => ?_
    refine run_turn queueToo (fun tires => livelyToo (tires.view agree)) (fun main => ?_) attached room known
    rw [resume_view queueToo agree]
    rw [stays (twins.isMain.trans main)] at closing
    generalize closed close _ _ = closedToo at closing ⊢
    cases closing
    rfl
  · obtain ⟨main, ended⟩ := Classical.not_imp.mp stays
    obtain ⟨owner, wait⟩ := strand
    obtain ⟨ownerToo, again⟩ := twin
    cases twins.owner with
    | branch heard => cases main
    | main =>
        obtain ⟨⟨verdict, last⟩, found⟩ := Option.ne_none_iff_exists'.mp ended
        rw [found] at closing
        rw [(run_closing queue found allowance known).2] at ends
        generalize foundToo : closed close (Machine.resume _ again { other with ready := readyToo }).1 _ = closedToo
          at closing
        cases closing with
        | @some _ lastToo alike =>
            obtain ⟨verdictToo, lastToo⟩ := lastToo
            obtain rfl : verdictToo = verdict := alike.verdict
            cases attached with
            | true =>
                cases ends
                exact .now _ alike fun room => (run_closing queueToo foundToo room known).2
            | false =>
                refine (onward ends).of_round fun view agree room => ?_
                exact (run_closing queueToo ((resume_view queueToo agree).symm ▸ foundToo) room known).2

end

theorem exists_earliest {parked : Parked W R} {list : List (Parked W R)} (member : parked ∈ list) :
    ∃ time, earliest list = some time := by
  cases list with
  | nil => cases member
  | cons first rest =>
      simp only [earliest]
      split
      · exact ⟨_, rfl⟩
      · exact ⟨_, rfl⟩

section
variable {tiredToo : Prop}

theorem Weaves.sooner (weaves : machine.Weaves same tired tiredToo mates awake other) (unknown : known = none)
    (idle : machine.ready = []) (nobody : machine.held = none)
    (next : ¬machine.StraysNext same tired (Shared mates) known) {time : Nat}
    (soonest : earliest machine.parked = some time) : ∃ sooner ≤ time, earliest other.parked = some sooner := by
  have counts : ¬∀ parked ∈ machine.parked, parked.deadline ≤ time →
      parked.Aside same tired (machine.Quiet (Shared mates)) :=
    fun due => next (.jump unknown idle nobody soonest due)
  push Not at counts
  obtain ⟨parked, member, fires, counts⟩ := counts
  obtain ⟨twin, there, pair⟩ := (weaves.parked.left_of_mem parked member).resolve_left counts
  obtain ⟨sooner, found⟩ := exists_earliest there
  have first := (earliest_spec found).2 twin there
  rw [← pair.deadline] at first
  exact ⟨sooner, Nat.le_trans first fires, found⟩

theorem Weaves.idle (weaves : machine.Weaves same tired tiredToo mates awake other) (idle : machine.ready = [])
    (nextToo : ¬other.StraysNext same tiredToo (Shared (flip mates)) known) : other.ready = [] := by
  cases queueToo : other.ready with
  | nil => rfl
  | cons twin readyToo =>
      have aside := weaves.ready.symm.left_of_mem twin (by simp [queueToo])
      refine absurd (.turn queueToo (aside.resolve_right ?_)) nextToo
      simp [idle]

theorem Weaves.heads (weaves : machine.Weaves same tired tiredToo mates awake other) {strand : Strand W R}
    {ready : List (Strand W R)} (queue : machine.ready = strand :: ready)
    (next : ¬machine.StraysNext same tired (Shared mates) known)
    (nextToo : ¬other.StraysNext same tiredToo (Shared (flip mates)) known) :
    ∃ twin readyToo, other.ready = twin :: readyToo ∧ strand.Twins same mates twin ∧
      Weaves same tired tiredToo mates True { machine with ready } { other with ready := readyToo } := by
  have woven := weaves.ready
  rw [queue] at woven
  obtain ⟨others, rest, queueToo, asides, found⟩ := woven.uncons
  cases others with
  | cons other _ => exact absurd (.turn queueToo (asides other List.mem_cons_self)) nextToo
  | nil =>
      rcases found with ⟨aside, _⟩ | ⟨twin, readyToo, rfl, ⟨now, twins⟩, later⟩
      · exact absurd (.turn queue aside) next
      · obtain rfl : awake = True := eq_true now
        exact ⟨twin, readyToo, queueToo, twins, { weaves with ready := later }⟩

/-- Where nobody is ready and nothing unnoticed comes next, both machines go on to the same strand or timer. -/
theorem Weaves.waiting (equivalence : Equivalence same)
    (weaves : machine.Weaves same tired tiredToo mates awake other) (unknown : known = none)
    (idle : machine.ready = []) (idleToo : other.ready = [])
    (next : ¬machine.StraysNext same tired (Shared mates) known)
    (nextToo : ¬other.StraysNext same tiredToo (Shared (flip mates)) known)
    (moves : machine.held = none → machine.jump attached ≠ none) (clock clockToo : Nat → Readings)
    (close : R → Effect W ρ) :
    (other.held = none → other.jump attached ≠ none) ∧ ∃ still,
      (machine.round attached clock close).Weaves same tired tiredToo mates still
        (other.round attached clockToo close) := by
  have back := weaves.held
  cases nobody : machine.held with
  | some strand =>
      rw [nobody] at back
      generalize nobodyToo : other.held = held at back
      cases back with
      | @some _ twin pair =>
          refine ⟨by rintro ⟨⟩, awake, ?_⟩
          simp only [round, idle, idleToo, nobody, nobodyToo]
          exact weaves.release pair
  | none =>
      rw [nobody] at back
      generalize nobodyToo : other.held = held at back
      cases back
      cases soonest : earliest machine.parked with
      | none =>
          have still : machine.jump attached = none := by simp only [Machine.jump, soonest, Option.map_none]
          exact absurd still (moves nobody)
      | some time =>
          obtain ⟨sooner, before, soonestToo⟩ := weaves.sooner unknown idle nobody next soonest
          obtain ⟨again, after, same⟩ :=
            (weaves.symm equivalence).sooner unknown idleToo nobodyToo nextToo soonestToo
          obtain rfl : time = again := Option.some.inj (soonest.symm.trans same)
          obtain rfl : sooner = time := Nat.le_antisymm before after
          have jumped := round_jump idle nobody soonest attached clock close
          have jumpedToo := round_jump idleToo nobodyToo soonestToo attached clockToo close
          exact ⟨fun _ => jumpedToo ▸ Option.some_ne_none _, True,
            weaves.jump idle idleToo nobody nobodyToo soonest soonestToo jumped jumpedToo⟩

end

theorem moves_of_run (idle : machine.ready = []) {allowance : Nat}
    (ends : run attached clock close (allowance + 1) none machine ≠ none) (nobody : machine.held = none) :
    machine.jump attached ≠ none := by
  intro still
  exact ends (by simp only [run, idle, nobody, still])

theorem Carries.wait (equivalence : Equivalence same) {allowance : Nat}
    (carries : Carries (R := R) same tired attached clock fill close allowance) {ending : Verdict ρ × Machine W R}
    (ends : run attached clock close (allowance + 1) known machine = some ending) (alert : known ≠ none → awake)
    (one : other.OneMain) (weaves : machine.Weaves same True tired mates awake other) (idle : machine.ready = [])
    (next : ¬machine.StraysNext same True (Shared mates) known)
    (nextToo : ¬other.StraysNext same tired (Shared (flip mates)) known) :
    other.ComesTo tired attached clock fill close known (EndsAlike same ending) := by
  have idleToo := weaves.idle idle nextToo
  cases known with
  | some verdict =>
      simp only [run, idle, Option.some.injEq] at ends
      subst ends
      have alike : EndsAlike same (verdict, machine) (verdict, other) :=
        ⟨rfl, weaves.time (alert (Option.some_ne_none verdict)), weaves.world⟩
      exact .now (fun _ => none) alike fun room => by simp only [run, idleToo]
  | none =>
      have moves := moves_of_run idle (ends ▸ Option.some_ne_none ending)
      obtain ⟨movesToo, still, rounds⟩ := weaves.waiting equivalence rfl idle idleToo next nextToo moves clock
        (relaid clock fill fun _ => none) close
      rw [run_idle idle moves] at ends
      have later := carries ends (fun unknown => absurd rfl unknown) (one.round attached _ close) rounds
      exact later.of_round fun view _ room => run_idle idleToo movesToo view close room

/-- By induction on the allowance, and within it on what is still to come in the other machine. The latter goes down
in turns that nobody notices there, which the first machine does not take. -/
theorem carries (equivalence : Equivalence same) (attached : Bool) (clock fill : Nat → Readings)
    {close : R → Effect W ρ} (closes : ∀ result, (close result).Respects same) (allowance : Nat) :
    Carries same tired attached clock fill close allowance := by
  induction allowance with
  | zero =>
      intro known mates awake machine other ending ends
      cases ends
  | succ allowance ih =>
      intro known mates awake machine other ending ends
      induction other using (InvImage.wf (fun machine : Machine W R => (machine.pending, machine.parked.length))
        (Wait.wellFounded_after.cutExpand.prod_lex Nat.lt_wfRel.wf)).induction generalizing awake with
      | _ other nearer =>
      intro alert one weaves
      by_cases nextToo : other.StraysNext same tired (Shared (flip mates)) known
      · have back := weaves.symm equivalence
        obtain ⟨still, alert, strays⟩ := back.round_stray equivalence nextToo alert attached
          (relaid clock fill fun _ => none) close
        by_cases tires : other.Tires (relaid clock fill fun _ => none)
        · exact .tires ⟨rfl, rfl, equivalence.refl _⟩ (nextToo.of_tires equivalence back.heard tires) tires
        have later := nearer _ (nextToo.nearer one attached _ close) alert (one.round attached _ close)
          (strays.symm equivalence)
        exact later.of_round fun view agree room =>
          nextToo.run (fun still => tires (still.view agree)) attached close room
      by_cases next : machine.StraysNext same True (Shared mates) known
      · obtain ⟨still, alert, strays⟩ := weaves.round_stray equivalence next alert attached clock close
        rw [next.run (not_tires ends) attached close allowance] at ends
        exact ih ends alert one strays
      · cases queue : machine.ready with
        | nil => exact Carries.wait equivalence ih ends alert one weaves queue next nextToo
        | cons strand ready =>
            obtain ⟨twin, readyToo, queueToo, twins, popped⟩ := weaves.heads queue next nextToo
            exact Carries.turn ih closes ends one queue queueToo twins popped

end Machine
end FlowGraph
