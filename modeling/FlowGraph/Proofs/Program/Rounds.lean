import FlowGraph.Proofs.Program.Scheduler
import FlowGraph.Proofs.Program.Waits

/-!
A run, one round after the other. Rounds need no allowance and go on for branches after the main strand has
ended. If all strands come to an end after some rounds, the run has a verdict as soon as its allowance is
that large, whether or not its caller waits.
-/

namespace FlowGraph
variable {W R ρ : Type}

def Halt.left (owner : Owner) : Halt W R → List (Strand W R)
  | .parked wait _ => [⟨owner, wait⟩]
  | _ => []

/-- The strand goes on forever, or its allowance is used up. -/
def Halt.Stuck : Halt W R → Prop
  | .gone => True
  | .exhausted => True
  | _ => False

namespace Machine

/-- What comes of a strand that has halted: it waits, or it has ended. A branch reports then, and the result
of the main strand is closed. -/
def placed (attached : Bool) (close : R → Effect W ρ) (owner : Owner) (halt : Halt W R)
    (machine : Machine W R) : Machine W R :=
  match halt, owner with
  | .parked wait deadline, owner =>
    { machine with parked := machine.parked ++ [⟨⟨owner, wait⟩, deadline⟩] }
  | .settled result, .main => { machine with world := (close result machine.time machine.world).2 }
  | .settled result, .branch channel name => machine.ended attached channel (some (name, result))
  | .broken _, .branch channel _ => machine.ended attached channel none
  | _, _ => machine

/-- Takes up the first strand that is ready. If there is none, the one held back becomes ready, or else
time moves on. -/
def round (attached : Bool) (clock : Nat → Readings) (close : R → Effect W ρ) (machine : Machine W R) :
    Machine W R :=
  match machine.ready with
  | strand :: ready =>
    let (halt, after) := resume clock strand.wait { machine with ready }
    after.placed attached close strand.owner halt
  | [] =>
    match machine.held with
    | some strand => { machine with ready := [strand], held := none }
    | none => (machine.jump attached).getD machine

/-- The strand whose turn it is does not get stuck. -/
def Lively (clock : Nat → Readings) (machine : Machine W R) : Prop :=
  ∀ strand ready, machine.ready = strand :: ready →
    ¬(resume clock strand.wait { machine with ready }).1.Stuck

/-- No strand ever gets stuck, and within so many rounds none is left. The world is always one of those
seen. -/
inductive ComesToRest (attached : Bool) (clock : Nat → Readings) (close : R → Effect W ρ) (seen : List W) :
    (rounds : Nat) → Machine W R → Prop where
  | rest {rounds : Nat} {machine : Machine W R} (known : machine.world ∈ seen)
      (nobody : machine.strands = []) : ComesToRest attached clock close seen rounds machine
  | round {rounds : Nat} {machine : Machine W R} (known : machine.world ∈ seen)
      (lively : machine.Lively clock)
      (later : ComesToRest attached clock close seen rounds (machine.round attached clock close)) :
      ComesToRest attached clock close seen (rounds + 1) machine

theorem ComesToRest.mono {attached : Bool} {clock : Nat → Readings} {close : R → Effect W ρ} {seen : List W}
    {rounds : Nat} {machine : Machine W R} (rest : machine.ComesToRest attached clock close seen rounds) :
    ∀ {more : List W} {others : Nat}, seen ⊆ more → rounds ≤ others →
      machine.ComesToRest attached clock close more others := by
  induction rest with
  | rest known nobody =>
      intro more others fewer _
      exact .rest (fewer known) nobody
  | round known lively _ ih =>
      intro more others fewer enough
      obtain ⟨others, rfl⟩ := Nat.exists_eq_add_of_le' (Nat.lt_of_lt_of_le (Nat.zero_lt_succ _) enough)
      exact .round (fewer known) lively (ih fewer (Nat.le_of_succ_le_succ enough))

theorem round_ready (attached : Bool) (clock : Nat → Readings) (close : R → Effect W ρ)
    {machine : Machine W R} {strand : Strand W R} {ready : List (Strand W R)}
    (queue : machine.ready = strand :: ready) :
    machine.round attached clock close =
      (resume clock strand.wait { machine with ready }).2.placed attached close strand.owner
        (resume clock strand.wait { machine with ready }).1 := by
  simp only [round, queue]

theorem earliest_spec {parked : List (Parked W R)} : ∀ {time : Nat}, earliest parked = some time →
    (∃ first ∈ parked, first.deadline = time) ∧ ∀ other ∈ parked, time ≤ other.deadline := by
  induction parked with
  | nil =>
      rintro time ⟨⟩
  | cons first rest ih =>
      intro time soonest
      simp only [earliest] at soonest
      split at soonest
      · rename_i later found
        obtain ⟨⟨other, member, fires⟩, before⟩ := ih found
        cases soonest
        refine ⟨?_, fun parked among => ?_⟩
        · rcases Nat.le_total first.deadline later with sooner | later
          · exact ⟨first, List.mem_cons_self, (Nat.min_eq_left sooner).symm⟩
          · exact ⟨other, List.mem_cons_of_mem _ member, fires.trans (Nat.min_eq_right later).symm⟩
        · rcases List.mem_cons.mp among with rfl | behind
          · exact Nat.min_le_left _ _
          · exact Nat.le_trans (Nat.min_le_right _ _) (before parked behind)
      · rename_i nobody
        cases soonest
        have alone : rest = [] := by
          cases rest with
          | nil => rfl
          | cons other others =>
              simp only [earliest] at nobody
              split at nobody <;> cases nobody
        subst alone
        refine ⟨⟨first, List.mem_cons_self, rfl⟩, fun other among => ?_⟩
        exact Nat.le_of_eq (congrArg Parked.deadline (List.mem_singleton.mp among).symm)

/-- The machine has one main strand at most, and holds back no other one. -/
structure OneMain (machine : Machine W R) : Prop where
  mains : machine.strands.countP isMain ≤ 1
  held : ∀ strand, machine.held = some strand → isMain strand = true

theorem awaken_perm (attached : Bool) {machine : Machine W R} {woken : Strand W R}
    (mains : (woken :: machine.strands).countP isMain ≤ 1)
    (held : ∀ strand, machine.held = some strand → isMain strand = true) :
    (machine.awaken attached woken).strands.Perm (woken :: machine.strands) ∧
      ∀ strand, (machine.awaken attached woken).held = some strand → isMain strand = true := by
  unfold awaken
  split
  · rename_i holds
    have main : isMain woken = true := (Bool.and_eq_true_iff.mp holds).2
    cases nobody : machine.held with
    | none =>
        refine ⟨?_, ?_⟩
        · simp only [strands, nobody, Option.toList_some, Option.toList_none, List.append_nil]
          exact List.perm_append_singleton _ _
        · rintro strand ⟨⟩
          exact main
    | some other =>
        have second : 0 < machine.strands.countP isMain :=
          List.countP_pos_iff.mpr ⟨other, by simp [strands, nobody], held other nobody⟩
        rw [List.countP_cons_of_pos main] at mains
        omega
  · refine ⟨?_, held⟩
    simp only [strands, List.append_assoc, List.singleton_append]
    exact List.perm_middle

theorem foldl_awaken_perm (attached : Bool) (woken : List (Parked W R)) : ∀ machine : Machine W R,
    (woken.map Parked.strand ++ machine.strands).countP isMain ≤ 1 →
      (∀ strand, machine.held = some strand → isMain strand = true) →
        let after := woken.foldl (fun machine parked => machine.awaken attached parked.strand) machine
        after.strands.Perm (woken.map Parked.strand ++ machine.strands) ∧
          ∀ strand, after.held = some strand → isMain strand = true := by
  induction woken with
  | nil =>
      intro machine _ held
      exact ⟨List.Perm.refl _, held⟩
  | cons parked rest ih =>
      intro machine mains held
      have apart : (parked.strand :: (rest.map Parked.strand ++ machine.strands)).countP isMain ≤ 1 := mains
      have first : (parked.strand :: machine.strands).countP isMain ≤ 1 := by
        simp only [List.countP_cons, List.countP_append] at apart ⊢
        omega
      obtain ⟨moved, stillHeld⟩ := awaken_perm attached first held
      have grown := moved.append_left (rest.map Parked.strand)
      have others : (rest.map Parked.strand ++
          (machine.awaken attached parked.strand).strands).countP isMain ≤ 1 := by
        rw [grown.countP_eq, List.perm_middle.countP_eq]
        exact apart
      obtain ⟨all, lastHeld⟩ := ih _ others stillHeld
      exact ⟨all.trans (grown.trans List.perm_middle), lastHeld⟩

theorem OneMain.awakenListeners {machine : Machine W R} (one : machine.OneMain) (attached : Bool)
    (channel : Nat) :
    (machine.awakenListeners attached channel).strands.Perm machine.strands ∧
      ∀ strand, (machine.awakenListeners attached channel).held = some strand →
        isMain strand = true := by
  simp only [Machine.awakenListeners, List.partition_eq_filter_filter]
  have split := (List.filter_append_perm (listensTo channel) machine.parked).map Parked.strand
  rw [List.map_append] at split
  have apart : ((machine.parked.filter (listensTo channel)).map Parked.strand ++
      strands { machine with parked := machine.parked.filter (not ∘ listensTo channel) }).Perm
        machine.strands := by
    simp only [strands, List.append_assoc]
    refine (List.perm_append_comm_assoc _ _ _).trans (List.Perm.append_left machine.ready ?_)
    rw [← List.append_assoc]
    exact split.append_right machine.held.toList
  obtain ⟨moved, held⟩ := foldl_awaken_perm attached (machine.parked.filter (listensTo channel))
    { machine with parked := machine.parked.filter (not ∘ listensTo channel) }
    (by rw [apart.countP_eq]; exact one.mains) one.held
  exact ⟨moved.trans apart, held⟩

theorem OneMain.ended {machine : Machine W R} (one : machine.OneMain) (attached : Bool) (channel : Nat)
    (report : Option (NodeId × R)) :
    (machine.ended attached channel report).strands.Perm machine.strands ∧
      ∀ strand, (machine.ended attached channel report).held = some strand → isMain strand = true := by
  simp only [Machine.ended]
  split
  · have one' : OneMain (machine.setMailbox channel ⟨(machine.mailbox channel).reports ++ report.toList,
        (machine.mailbox channel).senders - 1⟩) := ⟨one.mains, one.held⟩
    exact one'.awakenListeners attached channel
  · exact ⟨List.Perm.refl _, one.held⟩

theorem OneMain.placed {machine : Machine W R} (one : machine.OneMain) (attached : Bool)
    (close : R → Effect W ρ) (owner : Owner) (halt : Halt W R) :
    (machine.placed attached close owner halt).strands.Perm (halt.left owner ++ machine.strands) ∧
      ∀ strand, (machine.placed attached close owner halt).held = some strand → isMain strand = true := by
  cases halt with
  | parked wait deadline =>
      refine ⟨?_, one.held⟩
      simp only [Machine.placed, Halt.left, strands, List.map_append, List.map_cons, List.map_nil,
        List.append_assoc, List.singleton_append]
      rw [← List.append_assoc, ← List.append_assoc]
      exact List.perm_middle
  | settled result =>
      cases owner with
      | main => exact ⟨List.Perm.refl _, one.held⟩
      | branch channel name => exact one.ended attached channel _
  | broken panic =>
      cases owner with
      | main => exact ⟨List.Perm.refl _, one.held⟩
      | branch channel name => exact one.ended attached channel _
  | gone => exact ⟨List.Perm.refl _, one.held⟩
  | exhausted => exact ⟨List.Perm.refl _, one.held⟩

theorem Ran.strands {leads : Wait W R → Prop} {before after : Machine W R} {halt : Halt W R}
    (ran : Ran leads before halt after) :
    ∃ added, after.strands.Perm (added ++ before.strands) ∧
      (∀ strand ∈ added, isMain strand = false ∧ leads strand.wait) ∧
      ∀ channel, (after.mailbox channel).senders ≤
        (before.mailbox channel).senders + added.countP (Strand.sendsTo channel) := by
  obtain ⟨added, ready, branches, senders⟩ := ran.adds
  refine ⟨added, ?_, branches, senders⟩
  simp only [Machine.strands, ready, ran.parked, ran.held, List.append_assoc]
  exact List.perm_append_comm_assoc _ _ _

theorem Ran.mains {leads : Wait W R → Prop} {before after : Machine W R} {halt : Halt W R}
    (ran : Ran leads before halt after) :
    after.strands.countP isMain = before.strands.countP isMain := by
  obtain ⟨added, moved, branches, _⟩ := ran.strands
  have none_ : added.countP isMain = 0 := by
    rw [List.countP_eq_zero]
    intro strand member main
    rw [(branches strand member).1] at main
    cases main
  rw [moved.countP_eq, List.countP_append, none_, Nat.zero_add]

variable {machine : Machine W R} {strand : Strand W R} {ready : List (Strand W R)}

theorem strands_ready (queue : machine.ready = strand :: ready) :
    machine.strands = strand :: strands { machine with ready } := by
  simp only [strands, queue, List.cons_append]

theorem OneMain.resumed (one : machine.OneMain) (queue : machine.ready = strand :: ready)
    (clock : Nat → Readings) : OneMain (resume clock strand.wait { machine with ready }).2 := by
  have ran := resume_ran clock strand.wait { machine with ready }
  constructor
  · have all := one.mains
    rw [strands_ready queue, List.countP_cons] at all
    rw [ran.mains]
    omega
  · rw [ran.held]
    exact one.held

theorem OneMain.turn (one : machine.OneMain) (queue : machine.ready = strand :: ready) (attached : Bool)
    (clock : Nat → Readings) (close : R → Effect W ρ) :
    ((machine.round attached clock close).strands.Perm
        ((resume clock strand.wait { machine with ready }).1.left strand.owner ++
          (resume clock strand.wait { machine with ready }).2.strands)) ∧
      ∀ other, (machine.round attached clock close).held = some other → isMain other = true := by
  rw [round_ready attached clock close queue]
  exact (one.resumed queue clock).placed attached close strand.owner _

theorem strands_release (empty : machine.ready = []) (back : machine.held = some strand) :
    (strands { machine with ready := [strand], held := none }).Perm machine.strands := by
  simp only [strands, empty, back, Option.toList_some, Option.toList_none, List.append_nil,
    List.nil_append, List.singleton_append]
  exact (List.perm_append_singleton strand _).symm

theorem strands_of_jump (empty : machine.ready = []) (nobody : machine.held = none) {attached : Bool}
    (still : machine.jump attached = none) : machine.strands = [] := by
  cases parked : machine.parked with
  | nil => simp only [strands, empty, parked, nobody, List.map_nil, Option.toList_none, List.append_nil]
  | cons first rest =>
      simp only [jump, parked, earliest, Option.map_eq_none_iff] at still
      split at still <;> cases still

theorem countP_left_le (strand : Strand W R) (halt : Halt W R) :
    (halt.left strand.owner).countP isMain ≤ [strand].countP isMain := by
  cases halt with
  | parked wait deadline => exact Nat.le_of_eq rfl
  | settled result => exact Nat.zero_le _
  | broken panic => exact Nat.zero_le _
  | gone => exact Nat.zero_le _
  | exhausted => exact Nat.zero_le _

theorem mains_waiting (empty : machine.ready = []) (attached : Bool) (clock : Nat → Readings)
    (close : R → Effect W ρ) :
    (machine.round attached clock close).strands.countP isMain = machine.strands.countP isMain := by
  simp only [Machine.round, empty]
  cases back : machine.held with
  | some strand => exact (strands_release empty back).countP_eq isMain
  | none =>
      cases jumped : machine.jump attached with
      | none => rfl
      | some after => exact (jump_strands jumped).1.countP_eq isMain

theorem OneMain.mains_le (one : machine.OneMain) (attached : Bool) (clock : Nat → Readings)
    (close : R → Effect W ρ) :
    (machine.round attached clock close).strands.countP isMain ≤ machine.strands.countP isMain := by
  cases queue : machine.ready with
  | nil => exact Nat.le_of_eq (mains_waiting queue attached clock close)
  | cons strand ready =>
      have fewer := countP_left_le strand (resume clock strand.wait { machine with ready }).1
      rw [(one.turn queue attached clock close).1.countP_eq, strands_ready queue, ← List.singleton_append,
        List.countP_append, List.countP_append, (resume_ran clock strand.wait { machine with ready }).mains]
      exact Nat.add_le_add_right fewer _

theorem OneMain.round (one : machine.OneMain) (attached : Bool) (clock : Nat → Readings)
    (close : R → Effect W ρ) :
    OneMain (machine.round attached clock close) := by
  refine ⟨Nat.le_trans (one.mains_le attached clock close) one.mains, ?_⟩
  cases queue : machine.ready with
  | cons strand ready => exact (one.turn queue attached clock close).2
  | nil =>
      simp only [Machine.round, queue]
      cases back : machine.held with
      | some strand => simp
      | none =>
          cases jumped : machine.jump attached with
          | none => simpa only [Option.getD_none] using one.held
          | some after =>
              simp only [jump, Option.map_eq_some_iff] at jumped
              obtain ⟨time, _, rfl⟩ := jumped
              exact one.held

theorem OneMain.mains_turn (one : machine.OneMain) (queue : machine.ready = strand :: ready)
    (attached : Bool) (clock : Nat → Readings) (close : R → Effect W ρ)
    (stays : isMain strand = true → ∃ wait deadline,
      (resume clock strand.wait { machine with ready }).1 = .parked wait deadline) :
    (machine.round attached clock close).strands.countP isMain = machine.strands.countP isMain := by
  rw [(one.turn queue attached clock close).1.countP_eq, List.countP_append,
    (resume_ran clock strand.wait { machine with ready }).mains, strands_ready queue,
    ← List.singleton_append, List.countP_append]
  congr 1
  cases main : isMain strand with
  | true =>
      obtain ⟨wait, deadline, waits⟩ := stays main
      rw [waits]
      rfl
  | false =>
      have nobody : [strand].countP isMain = 0 := by simp [main]
      have fewer := countP_left_le strand (resume clock strand.wait { machine with ready }).1
      omega

/-- The main strand has not ended: if it is its turn, it waits again or gets stuck. -/
def StaysMain (clock : Nat → Readings) (machine : Machine W R) : Prop :=
  ∀ strand ready, machine.ready = strand :: ready → isMain strand = true →
    (resume clock strand.wait { machine with ready }).1.Stuck ∨
      ∃ wait deadline, (resume clock strand.wait { machine with ready }).1 = .parked wait deadline

theorem OneMain.mains_round (one : machine.OneMain) (attached : Bool) {clock : Nat → Readings}
    (close : R → Effect W ρ) (lively : machine.Lively clock) (stays : machine.StaysMain clock) :
    (machine.round attached clock close).strands.countP isMain = machine.strands.countP isMain := by
  cases queue : machine.ready with
  | nil => exact mains_waiting queue attached clock close
  | cons strand ready =>
      refine one.mains_turn queue attached clock close fun main => ?_
      exact (stays strand ready queue main).resolve_left (lively strand ready queue)

inductive RunsOn (attached : Bool) (clock : Nat → Readings) (close : R → Effect W ρ) (allowance : Nat)
    (machine : Machine W R) : Option (Verdict ρ) → Option (Verdict ρ × Machine W R) → Prop where
  | round {known : Option (Verdict ρ)} (stays : machine.StaysMain clock) :
      RunsOn attached clock close allowance machine known
        (run attached clock close allowance known (machine.round attached clock close))
  | closed {known : Option (Verdict ρ)} {wait : Wait W R} {ready : List (Strand W R)} {verdict : Verdict ρ}
      {after : Machine W R} (queue : machine.ready = ⟨.main, wait⟩ :: ready)
      (ends : closed close (resume clock wait { machine with ready }).1
        (resume clock wait { machine with ready }).2 = some (verdict, after)) :
      RunsOn attached clock close allowance machine known
        (if attached then some (verdict, after)
          else run attached clock close allowance (some verdict) (machine.round attached clock close))
  | exhausted {known : Option (Verdict ρ)} {strand : Strand W R} {ready : List (Strand W R)}
      (queue : machine.ready = strand :: ready)
      (stuck : (resume clock strand.wait { machine with ready }).1.Stuck) :
      RunsOn attached clock close allowance machine known none
  | decided {verdict : Verdict ρ} : RunsOn attached clock close allowance machine (some verdict)
      (some (verdict, machine))
  | nobody (left : machine.strands = []) : RunsOn attached clock close allowance machine none none

theorem runsOn_waiting (empty : machine.ready = []) (attached : Bool) (clock : Nat → Readings)
    (close : R → Effect W ρ) (allowance : Nat) (known : Option (Verdict ρ)) :
    RunsOn attached clock close allowance machine known
      (run attached clock close (allowance + 1) known machine) := by
  have stays : machine.StaysMain clock := by
    intro strand ready queue
    rw [empty] at queue
    cases queue
  have goesOn : RunsOn attached clock close allowance machine none
      (run attached clock close allowance none (machine.round attached clock close)) := .round stays
  simp only [Machine.round, empty] at goesOn
  cases known with
  | some verdict =>
      simp only [run, empty]
      exact .decided
  | none =>
      simp only [run, empty]
      cases back : machine.held with
      | some strand =>
          simp only [back] at goesOn
          exact goesOn
      | none =>
          simp only [back] at goesOn
          cases jumped : machine.jump attached with
          | none => exact .nobody (strands_of_jump empty back jumped)
          | some after =>
              simp only [jumped, Option.getD_some] at goesOn
              exact goesOn

theorem runsOn (attached : Bool) (clock : Nat → Readings) (close : R → Effect W ρ) (allowance : Nat)
    (known : Option (Verdict ρ)) (machine : Machine W R) :
    RunsOn attached clock close allowance machine known
      (run attached clock close (allowance + 1) known machine) := by
  cases queue : machine.ready with
  | nil => exact runsOn_waiting queue attached clock close allowance known
  | cons strand ready =>
      obtain ⟨owner, wait⟩ := strand
      have placing := round_ready attached clock close queue
      have goesOn : machine.StaysMain clock → RunsOn attached clock close allowance machine known
          (run attached clock close allowance known (machine.round attached clock close)) := .round
      have closing (verdict : Verdict ρ) (after : Machine W R) : owner = .main →
          closed close (resume clock wait { machine with ready }).1 (resume clock wait { machine with ready }).2 =
            some (verdict, after) →
          RunsOn attached clock close allowance machine known (if attached then some (verdict, after)
            else run attached clock close allowance (some verdict) (machine.round attached clock close)) := by
        rintro rfl ends
        exact .closed queue ends
      have stops : (resume clock wait { machine with ready }).1.Stuck →
          RunsOn attached clock close allowance machine known none := .exhausted queue
      have stays : (owner = .main → (resume clock wait { machine with ready }).1.Stuck ∨
          ∃ later deadline, (resume clock wait { machine with ready }).1 = .parked later deadline) →
            machine.StaysMain clock := by
        intro main other rest again isMain
        rw [queue] at again
        cases again
        cases owner with
        | main => exact main rfl
        | branch channel name => cases isMain
      simp only [run, queue]
      rw [placing] at goesOn closing
      simp only at goesOn closing
      generalize resume clock wait { machine with ready } = resumed at goesOn closing stops stays ⊢
      obtain ⟨halt, after⟩ := resumed
      cases halt with
      | gone => exact goesOn (stays fun _ => .inl trivial)
      | exhausted => exact stops trivial
      | parked later deadline => exact goesOn (stays fun _ => .inr ⟨later, deadline, rfl⟩)
      | settled result =>
          cases owner with
          | main => exact closing _ _ rfl rfl
          | branch channel name => exact goesOn (stays (by rintro ⟨⟩))
      | broken panic =>
          cases owner with
          | main => exact closing _ _ rfl rfl
          | branch channel name => exact goesOn (stays (by rintro ⟨⟩))

/-- A machine that comes to rest has a verdict by then, if it has one already or a main strand. -/
theorem run_of_rest {attached : Bool} {clock : Nat → Readings} {close : R → Effect W ρ} {seen : List W}
    {rounds : Nat} (rest : machine.ComesToRest attached clock close seen rounds) : machine.OneMain →
      ∀ known : Option (Verdict ρ), (known = none → machine.strands.countP isMain = 1) →
        ∀ allowance, rounds < allowance → (run attached clock close allowance known machine).isSome := by
  induction rest with
  | rest _ nobody =>
      intro _ known main allowance enough
      obtain ⟨allowance, rfl⟩ := Nat.exists_eq_add_of_le' (Nat.lt_of_le_of_lt (Nat.zero_le _) enough)
      cases known with
      | none =>
          have one := main rfl
          rw [nobody] at one
          cases one
      | some verdict =>
          simp only [strands, List.append_eq_nil_iff] at nobody
          simp only [run, nobody.1.1, Option.isSome_some]
  | @round rounds machine _ lively _ ih =>
      intro one known main allowance enough
      obtain ⟨allowance, rfl⟩ := Nat.exists_eq_add_of_le' (Nat.lt_of_le_of_lt (Nat.zero_le _) enough)
      have goesOn (found : Option (Verdict ρ)) (stays : found = none →
          (machine.round attached clock close).strands.countP isMain = 1) :
          (run attached clock close allowance found (machine.round attached clock close)).isSome :=
        ih (one.round attached clock close) found stays allowance (by omega)
      have next := runsOn attached clock close allowance known machine
      generalize run attached clock close (allowance + 1) known machine = finished at next ⊢
      cases next with
      | round stays =>
          exact goesOn known fun unknown => (one.mains_round attached close lively stays).trans (main unknown)
      | closed queue ends =>
          split
          · rfl
          · exact goesOn (some _) (by rintro ⟨⟩)
      | exhausted queue stuck => exact (lively _ _ queue stuck).elim
      | decided => rfl
      | nobody left =>
          have one := main rfl
          rw [left] at one
          cases one

end Machine
end FlowGraph
