import Mathlib.Data.List.Forall2
import FlowGraph.Proofs.Program.Prompt
import FlowGraph.Proofs.Program.Rest

/-!
Turns of a run whose branches report on the newest channel. A branch that does not wait has its report in the
mailbox after one turn; the first report wakes the main strand, which comes after all branches either way.
-/

namespace FlowGraph.Machine
variable {W R : Type} {clock : Nat → Readings} {machine : Machine W R}
  {boxes : List (Mailbox R)} {box : Mailbox R}

/-- The main strand is about to do a program, and no other one is ready or held back. -/
def doing (machine : Machine W R) (program : Program W R) : Machine W R :=
  { machine with ready := [⟨.main, .resting fun _ => program⟩], held := none }

theorem run_of_resume {ρ : Type} {other : Machine W R} {owner : Owner} {wait again : Wait W R}
    {ready queue : List (Strand W R)} (first : machine.ready = ⟨owner, wait⟩ :: ready)
    (second : other.ready = ⟨owner, again⟩ :: queue)
    (same : resume clock wait { machine with ready } = resume clock again { other with ready := queue })
    (close : R → Effect W ρ) (attached : Bool) (allowance : Nat) (known : Option (Verdict ρ)) :
    run attached clock close (allowance + 1) known machine =
      run attached clock close (allowance + 1) known other := by
  simp only [run, first, second, same]

theorem run_doing_parks {ρ : Type} {program : Program W R} {after : Machine W R} {again : Wait W R}
    {deadline : Nat}
    (parks : advance clock program { machine with ready := [], held := none } = (.parked again deadline, after))
    (close : R → Effect W ρ) (attached : Bool) (allowance : Nat) (known : Option (Verdict ρ)) :
    run attached clock close (allowance + 1) known (machine.doing program) =
      run attached clock close allowance known
        { after with parked := after.parked ++ [⟨⟨.main, again⟩, deadline⟩] } := by
  have turn : resume clock (.resting fun _ => program) { machine with ready := [], held := none } =
      (.parked again deadline, after) := parks
  simp only [run, doing, turn]

/-- Nobody who waits listens to the channel. -/
def Deaf (channel : Nat) (parked : List (Parked W R)) : Prop :=
  ∀ other ∈ parked, listensTo channel other = false

theorem Orderly.deaf (orderly : machine.Orderly) : Deaf machine.mailboxes.length machine.parked := by
  intro other member
  obtain ⟨⟨owner, wait⟩, deadline⟩ := other
  cases wait with
  | resting next => rfl
  | listening channel next =>
      have opened := (orderly.awaited _ member channel next rfl).opened
      exact decide_eq_false (Nat.ne_of_lt opened)

theorem mailbox_newest (newest : machine.mailboxes = boxes ++ [box]) : machine.mailbox boxes.length = box := by
  simp only [mailbox, newest, List.getElem?_concat_length, Option.getD_some]

theorem setMailbox_newest (newest : machine.mailboxes = boxes ++ [box]) (other : Mailbox R) :
    machine.setMailbox boxes.length other = { machine with mailboxes := boxes ++ [other] } := by
  simp only [setMailbox, newest, List.set_append_right _ _ (Nat.le_refl _), Nat.sub_self, List.set_cons_zero]

theorem take?_newest {report : NodeId × R} {rest : List (NodeId × R)} {senders : Nat}
    (newest : machine.mailboxes = boxes ++ [⟨report :: rest, senders⟩]) :
    machine.take? boxes.length =
      some (.report report.1 report.2, { machine with mailboxes := boxes ++ [⟨rest, senders⟩] }) := by
  simp only [take?, mailbox_newest newest, setMailbox_newest newest]

theorem Deaf.listeners {channel : Nat} {parked : List (Parked W R)} (deaf : Deaf channel parked) :
    parked.filter (listensTo channel) = [] := by
  rw [List.filter_eq_nil_iff]
  intro other member
  simp only [deaf other member, Bool.false_eq_true, not_false_eq_true]

theorem Deaf.others {channel : Nat} {parked : List (Parked W R)} (deaf : Deaf channel parked) :
    parked.filter (not ∘ listensTo channel) = parked := by
  rw [List.filter_eq_self]
  intro other member
  simp only [Function.comp, deaf other member, Bool.not_false]

theorem take?_waiting {senders : Nat} (newest : machine.mailboxes = boxes ++ [⟨[], senders + 1⟩]) :
    machine.take? boxes.length = none := by
  simp only [take?, mailbox_newest newest, Nat.add_eq_zero_iff, Nat.one_ne_zero, and_false, ↓reduceIte]

theorem resume_listening {channel : Nat} {next : Delivery R → Program W R} {found : Delivery R × Machine W R}
    (there : machine.take? channel = some found) (interval : Nat) :
    resume clock (.listening channel next) machine = advance clock (.receive channel interval next) machine := by
  simp only [resume, advance, there]

theorem awakenListeners_deaf {channel : Nat} (deaf : Deaf channel machine.parked) (attached : Bool) :
    machine.awakenListeners attached channel = machine := by
  simp only [awakenListeners, List.partition_eq_filter_filter, deaf.listeners, deaf.others, List.foldl_nil]

theorem awakenListeners_last {channel : Nat} {others : List (Parked W R)} (deaf : Deaf channel others)
    {last : Parked W R} (listens : listensTo channel last = true) (parked : machine.parked = others ++ [last])
    (attached : Bool) :
    machine.awakenListeners attached channel = awaken attached { machine with parked := others } last.strand := by
  simp only [awakenListeners, parked, List.partition_eq_filter_filter, List.filter_append, deaf.listeners,
    deaf.others, List.filter_cons, listens, Function.comp, Bool.not_true, Bool.false_eq_true, ↓reduceIte,
    List.filter_nil, List.nil_append, List.append_nil, List.foldl_cons, List.foldl_nil]

theorem ended_newest (newest : machine.mailboxes = boxes ++ [box]) (attached : Bool) (report : NodeId × R) :
    machine.ended attached boxes.length (some report) =
      awakenListeners attached boxes.length
        { machine with mailboxes := boxes ++ [⟨box.reports ++ [report], box.senders - 1⟩] } := by
  simp only [ended, mailbox_newest newest, setMailbox_newest newest, Option.toList_some, Option.isSome_some,
    Bool.true_or, ↓reduceIte]

theorem ended_deaf (newest : machine.mailboxes = boxes ++ [box]) (deaf : Deaf boxes.length machine.parked)
    (attached : Bool) (report : NodeId × R) :
    machine.ended attached boxes.length (some report) =
      { machine with mailboxes := boxes ++ [⟨box.reports ++ [report], box.senders - 1⟩] } := by
  rw [ended_newest newest, awakenListeners_deaf]
  exact deaf

def Sent (clock : Nat → Readings) (now : Nat) (branch : Nat → NodeId → Program W R) (name : NodeId)
    (report : NodeId × R) : Prop :=
  report.1 = name ∧ ∃ place, (branch place name).MaySettle clock now report.2

theorem run_branch {program : Program W R} {now : Nat} (prompt : program.Prompt clock now) (world : W)
    (asked : Nat) :
    ∃ result view later, program.MaySettle clock now result ∧
      ∀ {ρ : Type} (close : R → Effect W ρ) (machine : Machine W R) channel name ready attached allowance known,
        run attached clock close (allowance + 1) known
            { machine with
              time := now, world, asked, ready := ⟨.branch channel name, .resting fun _ => program⟩ :: ready } =
          run attached clock close allowance known
            (ended attached { machine with time := now, world := view, asked := later, ready } channel
              (some (name, result))) := by
  obtain ⟨result, view, later, settles, runs⟩ := prompt.settles world asked
  refine ⟨result, view, later, settles, ?_⟩
  intro _ close machine channel name ready attached allowance known
  have turn := runs { machine with ready }
  simp only [run, resume]
  rw [turn]

theorem run_branches {branch : Nat → NodeId → Program W R} {now : Nat} (names : List NodeId) :
    ∀ (place : Nat) (box : Mailbox R), (∀ place, ∀ name ∈ names, (branch place name).Prompt clock now) →
      ∀ (world : W) (asked : Nat), ∃ reports view later, List.Forall₂ (Sent clock now branch) names reports ∧
        ∀ {ρ : Type} (close : R → Effect W ρ) (machine : Machine W R) tail attached allowance known,
          Deaf boxes.length machine.parked →
          run attached clock close (allowance + names.length) known
              { machine with
                time := now, world, asked, mailboxes := boxes ++ [box]
                ready := branchStrands boxes.length branch place names ++ tail } =
            run attached clock close allowance known
              { machine with
                time := now, world := view, asked := later, ready := tail
                mailboxes := boxes ++ [⟨box.reports ++ reports, box.senders - names.length⟩] } := by
  induction names with
  | nil =>
      intro _ box _ world asked
      refine ⟨[], world, asked, .nil, fun _ _ _ _ _ _ _ => ?_⟩
      simp only [branchStrands, List.nil_append, List.append_nil, List.length_nil, Nat.sub_zero, Nat.add_zero]
  | cons name rest ih =>
      intro place box prompt world asked
      obtain ⟨result, view, later, settles, turn⟩ :=
        run_branch (prompt place name List.mem_cons_self) world asked
      obtain ⟨reports, last, lastAsked, sent, turns⟩ := ih (place + 1)
        ⟨box.reports ++ [(name, result)], box.senders - 1⟩
        (fun place other member => prompt place other (List.mem_cons_of_mem _ member)) view later
      refine ⟨(name, result) :: reports, last, lastAsked, .cons ⟨rfl, place, settles⟩ sent, ?_⟩
      intro _ close machine tail attached allowance known deaf
      have counted : box.senders - 1 - rest.length = box.senders - (rest.length + 1) := by omega
      let queue := branchStrands boxes.length branch (place + 1) rest ++ tail
      let after : Machine W R := { machine with time := now, world := view, asked := later, ready := queue }
      let heard : Mailbox R := ⟨box.reports ++ [(name, result)], box.senders - 1⟩
      calc
        _ = run attached clock close (allowance + rest.length) known
              (ended attached { after with mailboxes := boxes ++ [box] } boxes.length (some (name, result))) :=
          turn close { machine with mailboxes := boxes ++ [box] } boxes.length name queue attached _ known
        _ = run attached clock close (allowance + rest.length) known
              { after with mailboxes := boxes ++ [heard] } :=
          congrArg (run attached clock close _ known)
            (@ended_deaf W R { after with mailboxes := boxes ++ [box] } boxes box rfl deaf attached _)
        _ = _ := turns close machine tail attached allowance known deaf
        _ = _ := by
          simp only [List.append_assoc, List.singleton_append, counted, List.length_cons]

/-- The main strand listens while its branches have their turns. The first report wakes it, and it has its turn when
all reports are there: it stands behind the branches in the queue, or is held back as long as one is ready. -/
theorem run_launched {branch : Nat → NodeId → Program W R} {now : Nat} (first : NodeId) (rest : List NodeId)
    (prompt : ∀ place, ∀ name ∈ first :: rest, (branch place name).Prompt clock now) (boxes : List (Mailbox R))
    (world : W) (asked : Nat) :
    ∃ reports view later, List.Forall₂ (Sent clock now branch) (first :: rest) reports ∧
      ∀ {ρ : Type} (close : R → Effect W ρ) (machine : Machine W R) next deadline attached allowance,
        Deaf boxes.length machine.parked →
        run attached clock close (allowance + (if attached then 1 else 0) + (rest.length + 1)) none
            { machine with
              time := now, world, asked, mailboxes := boxes ++ [⟨[], rest.length + 1⟩]
              ready := branchStrands boxes.length branch 0 (first :: rest), held := none
              parked := machine.parked ++ [⟨⟨.main, .listening boxes.length next⟩, deadline⟩] } =
          run attached clock close allowance none
            { machine with
              time := now, world := view, asked := later, mailboxes := boxes ++ [⟨reports, 0⟩]
              ready := [⟨.main, .listening boxes.length next⟩], held := none } := by
  obtain ⟨result, view, later, settles, turn⟩ :=
    run_branch (prompt 0 first List.mem_cons_self) world asked
  obtain ⟨reports, last, lastAsked, sent, turns⟩ := @run_branches W R clock boxes branch now rest 1
    ⟨[(first, result)], rest.length⟩ (fun place other member => prompt place other (List.mem_cons_of_mem _ member))
    view later
  refine ⟨(first, result) :: reports, last, lastAsked, .cons ⟨rfl, 0, settles⟩ sent, ?_⟩
  intro _ close machine next deadline attached allowance deaf
  let main : Strand W R := ⟨.main, .listening boxes.length next⟩
  let launched : Machine W R :=
    { machine with
      time := now, world := view, asked := later, mailboxes := boxes ++ [⟨[], rest.length + 1⟩], held := none
      ready := branchStrands boxes.length branch 1 rest, parked := machine.parked ++ [⟨main, deadline⟩] }
  let reported : Machine W R :=
    { launched with parked := machine.parked, mailboxes := boxes ++ [⟨[(first, result)], rest.length⟩] }
  have wakes : launched.ended attached boxes.length (some (first, result)) = reported.awaken attached main := by
    have listens : listensTo boxes.length (⟨main, deadline⟩ : Parked W R) = true := by
      simp only [main, listensTo, decide_true]
    rw [ended_newest rfl, awakenListeners_last deaf listens rfl]
    rfl
  have drained (held : Option (Strand W R)) (tail : List (Strand W R)) (fuel : Nat) :=
    turns close { machine with held } tail attached fuel none deaf
  simp only [Nat.sub_self] at drained
  rw [← Nat.add_assoc]
  refine (turn close { launched with asked := asked } boxes.length first _ attached _ none).trans ?_
  refine (congrArg (run attached clock close _ none) wakes).trans ?_
  cases attached with
  | false => exact drained none [main] allowance
  | true =>
      have ran := drained (some main) [] (allowance + 1)
      rw [List.append_nil] at ran
      exact ran

end FlowGraph.Machine
