import FlowGraph.Program

/-!
Running a program and the branches it launches on one thread, under a virtual clock. A strand runs until
it has to wait. Strands that can run take turns in the order in which they became ready; when none can,
time jumps to the next timer.
-/

namespace FlowGraph

inductive Owner where
  | main
  | branch (channel : Nat) (name : NodeId)

inductive Wait (W R : Type) : Type 1 where
  | resting (next : Unit → Program W R)
  | listening (channel : Nat) (next : Delivery R → Program W R)

structure Strand (W R : Type) : Type 1 where
  owner : Owner
  wait : Wait W R

structure Parked (W R : Type) : Type 1 where
  strand : Strand W R
  deadline : Nat

/-- Results that have arrived, and the number of branches that may still send one. -/
structure Mailbox (R : Type) where
  reports : List (NodeId × R)
  senders : Nat

structure Machine (W R : Type) : Type 1 where
  world : W
  time : Nat
  asked : Nat
  ready : List (Strand W R)
  parked : List (Parked W R)
  mailboxes : List (Mailbox R)
  /-- The main strand once it is awake, if it has to let all others go first. -/
  held : Option (Strand W R)

/-- Where a strand stands when it gives way. -/
inductive Halt (W R : Type) : Type 1 where
  | settled (result : R)
  | broken (panic : Panic)
  | parked (wait : Wait W R) (deadline : Nat)
  | gone
  | exhausted

namespace Machine
variable {W R : Type}

def start (world : W) (program : Program W R) : Machine W R where
  world
  time := 0
  asked := 0
  ready := [⟨.main, .resting fun _ => program⟩]
  parked := []
  mailboxes := []
  held := none

def mailbox (machine : Machine W R) (channel : Nat) : Mailbox R :=
  machine.mailboxes[channel]?.getD ⟨[], 0⟩

def setMailbox (machine : Machine W R) (channel : Nat) (mailbox : Mailbox R) : Machine W R :=
  { machine with mailboxes := machine.mailboxes.set channel mailbox }

def take? (machine : Machine W R) (channel : Nat) : Option (Delivery R × Machine W R) :=
  let mailbox := machine.mailbox channel
  match mailbox.reports with
  | (branch, result) :: rest =>
    some (.report branch result, machine.setMailbox channel { mailbox with reports := rest })
  | [] => if mailbox.senders = 0 then some (.closed, machine) else none

def branchStrands (channel : Nat) (branch : Nat → NodeId → Program W R) (place : Nat) :
    List NodeId → List (Strand W R)
  | [] => []
  | name :: rest =>
    ⟨.branch channel name, .resting fun _ => branch place name⟩ ::
      branchStrands channel branch (place + 1) rest

def launched (machine : Machine W R) (names : List NodeId)
    (branch : Nat → NodeId → Program W R) : Machine W R :=
  { machine with
    mailboxes := machine.mailboxes ++ [⟨[], names.length⟩]
    ready := machine.ready ++ branchStrands machine.mailboxes.length branch 0 names }

def advance (clock : Nat → Readings) : Program W R → Machine W R → Halt W R × Machine W R
  | .done result, machine => (.settled result, machine)
  | .call effect next, machine =>
    let (value, world) := effect machine.time machine.world
    advance clock (next value) { machine with world }
  | .clock next, machine =>
    advance clock (next (clock machine.asked)) { machine with asked := machine.asked + 1 }
  | .sleep millis next, machine =>
    if millis = 0 then advance clock (next ()) machine
    else (.parked (.resting next) (machine.time + millis), machine)
  | .launch names branch next, machine =>
    advance clock (next machine.mailboxes.length) (machine.launched names branch)
  | .receive channel interval next, machine =>
    match machine.take? channel with
    | some (delivery, machine) => advance clock (next delivery) machine
    | none => (.parked (.listening channel next) (machine.time + interval), machine)
  | .broken panic, machine => (.broken panic, machine)
  | .never, machine => (.gone, machine)
  | .exhausted, machine => (.exhausted, machine)

/-- Takes up a strand where it waits. A listener that finds nothing was woken by its timer. -/
def resume (clock : Nat → Readings) (wait : Wait W R) (machine : Machine W R) :
    Halt W R × Machine W R :=
  match wait with
  | .resting next => advance clock (next ()) machine
  | .listening channel next =>
    match machine.take? channel with
    | some (delivery, machine) => advance clock (next delivery) machine
    | none => advance clock (next .quiet) machine

def listensTo (channel : Nat) (parked : Parked W R) : Bool :=
  match parked.strand.wait with
  | .listening other _ => other = channel
  | .resting _ => false

def isMain (strand : Strand W R) : Bool :=
  match strand.owner with
  | .main => true
  | .branch .. => false

/-- Makes a strand ready. If `attached`, the main strand waits until no other one is. -/
def awaken (attached : Bool) (machine : Machine W R) (strand : Strand W R) : Machine W R :=
  if attached && isMain strand then { machine with held := some strand }
  else { machine with ready := machine.ready ++ [strand] }

def awakenListeners (attached : Bool) (channel : Nat) (machine : Machine W R) : Machine W R :=
  let (woken, parked) := machine.parked.partition (listensTo channel)
  woken.foldl (fun machine parked => machine.awaken attached parked.strand)
    { machine with parked }

/-- The end of a branch: its result, if it has one, arrives, and one sender is gone. -/
def ended (attached : Bool) (machine : Machine W R) (channel : Nat)
    (report : Option (NodeId × R)) : Machine W R :=
  let mailbox := machine.mailbox channel
  let senders := mailbox.senders - 1
  let machine := machine.setMailbox channel ⟨mailbox.reports ++ report.toList, senders⟩
  if report.isSome || senders = 0 then machine.awakenListeners attached channel else machine

def earliest : List (Parked W R) → Option Nat
  | [] => none
  | parked :: rest =>
    match earliest rest with
    | some time => some (min parked.deadline time)
    | none => some parked.deadline

/-- Moves the time on to the next timer and readies all strands whose timer fires then. -/
def jump (attached : Bool) (machine : Machine W R) : Option (Machine W R) :=
  (earliest machine.parked).map fun time =>
    let (due, parked) := machine.parked.partition fun parked => parked.deadline ≤ time
    let strands := due.map Parked.strand
    let ordered :=
      if attached then strands.filter isMain ++ strands.filter fun strand => !isMain strand
      else strands
    { machine with time, parked, ready := machine.ready ++ ordered }

end Machine

inductive Verdict (ρ : Type) where
  | settled (result : ρ)
  | broken (panic : Panic)

namespace Machine
variable {W R ρ : Type}

/-- The main strand has ended; `close` turns its result into that of the run. -/
def closed (close : R → Effect W ρ) (halt : Halt W R) (machine : Machine W R) :
    Option (Verdict ρ × Machine W R) :=
  match halt with
  | .settled result =>
    let (result, world) := close result machine.time machine.world
    some (.settled result, { machine with world })
  | .broken panic => some (.broken panic, machine)
  | _ => none

/-- Runs strands until the main one has ended. An attached run is over at once then; one on its own
lets those go first that are ready. There is no verdict if the allowance is used up or if nothing can
ever happen again. -/
def run (attached : Bool) (clock : Nat → Readings) (close : R → Effect W ρ) :
    (allowance : Nat) → Option (Verdict ρ) → Machine W R → Option (Verdict ρ × Machine W R)
  | 0, _, _ => none
  | allowance + 1, verdict, machine =>
    match machine.ready with
    | strand :: ready =>
      let (halt, machine) := resume clock strand.wait { machine with ready }
      match halt, strand.owner with
      | .exhausted, _ => none
      | .gone, _ => run attached clock close allowance verdict machine
      | .parked wait deadline, owner =>
        let parked := machine.parked ++ [⟨⟨owner, wait⟩, deadline⟩]
        run attached clock close allowance verdict { machine with parked }
      | .settled result, .branch channel name =>
        run attached clock close allowance verdict
          (machine.ended attached channel (some (name, result)))
      | .broken _, .branch channel _ =>
        run attached clock close allowance verdict (machine.ended attached channel none)
      | halt, .main =>
        match closed close halt machine with
        | none => none
        | some (verdict, machine) =>
          if attached then some (verdict, machine)
          else run attached clock close allowance (some verdict) machine
    | [] =>
      match verdict, machine.held with
      | some verdict, _ => some (verdict, machine)
      | none, some strand =>
        run attached clock close allowance none { machine with ready := [strand], held := none }
      | none, none =>
        match machine.jump attached with
        | some machine => run attached clock close allowance none machine
        | none => none

end Machine

end FlowGraph
