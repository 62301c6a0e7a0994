import FlowGraph.Proofs.Program.Lockstep.Round

/-!
Runs of two machines in lockstep. With the same allowance both come to the same verdict at the same time, or
neither comes to one.
-/

namespace FlowGraph
variable {W V R ρ : Type}

namespace Machine

/-- Two runs have come to the same verdict at the same time, in worlds that are related. -/
structure EndsAlike (worlds : W → V → Prop) (first : Verdict ρ × Machine W R)
    (second : Verdict ρ × Machine V R) : Prop where
  verdict : second.1 = first.1
  time : second.2.time = first.2.time
  related : worlds first.2.world second.2.world

variable {worlds : W → V → Prop} {ends : Attempt R → Prop}

section
variable {attached : Bool} {clock : Nat → Readings} {close : R → Effect W ρ} {otherClose : R → Effect V ρ}
  {allowance : Nat} {known : Option (Verdict ρ)} {whole : Protocol R} {machine : Machine W R} {other : Machine V R}

theorem run_ready_alike (closes : ∀ result, (close result).Alike worlds (otherClose result))
    (later : ∀ {known : Option (Verdict ρ)} {whole : Protocol R} {machine : Machine W R} {other : Machine V R},
      machine.Follows none worlds whole ends (2 * allowance) other →
        Option.Rel (EndsAlike worlds) (run attached clock close allowance known machine)
          (run attached clock otherClose allowance known other))
    (follows : machine.Follows none worlds whole ends (2 * allowance + 2) other) {strand : Strand W R}
    {ready : List (Strand W R)} (queue : machine.ready = strand :: ready) :
    Option.Rel (EndsAlike worlds) (run attached clock close (allowance + 1) known machine)
      (run attached clock otherClose (allowance + 1) known other) := by
  obtain ⟨owner, wait⟩ := strand
  obtain ⟨otherWait, otherReady, halted, otherQueue, ⟨wide, _, machines, halts⟩, which⟩ :=
    follows.turn clock queue
  obtain rfl : halted = resume clock otherWait { other with ready := otherReady } := by
    rcases which with same | ⟨interval, impossible, _⟩
    · exact same
    · cases impossible
  have placed := machines.placed attached closes halts
  simp only [run, queue, otherQueue]
  generalize resume clock wait { machine with ready } = resumed at machines halts placed
  generalize resume clock otherWait { other with ready := otherReady } = otherResumed at machines halts placed
  obtain ⟨halt, after⟩ := resumed
  obtain ⟨otherHalt, otherAfter⟩ := otherResumed
  simp only at machines halts placed
  cases halts with
  | @settled own result _ holds =>
      cases owner with
      | branch channel name => exact later placed
      | main =>
          have closing : (close result after.time after.world).1 =
              (otherClose result otherAfter.time otherAfter.world).1 := by
            rw [machines.time]
            exact (closes result after.time _ _ machines.related).1
          simp only [closed, closing]
          split
          · exact .some ⟨rfl, placed.time, placed.related⟩
          · exact later placed
  | broken _ _ =>
      cases owner with
      | branch channel name => exact later placed
      | main =>
          simp only [closed]
          split
          · exact .some ⟨rfl, machines.time, machines.related⟩
          · exact later placed
  | parked _ _ => exact later placed
  | gone _ => exact later placed
  | exhausted _ => exact .none

theorem run_idle_alike
    (later : ∀ {whole : Protocol R} {machine : Machine W R} {other : Machine V R},
      machine.Follows none worlds whole ends (2 * allowance) other →
        Option.Rel (EndsAlike worlds) (run attached clock close allowance none machine)
          (run attached clock otherClose allowance none other))
    (follows : machine.Follows none worlds whole ends (2 * allowance) other) (queue : machine.ready = []) :
    Option.Rel (EndsAlike worlds) (run attached clock close (allowance + 1) known machine)
      (run attached clock otherClose (allowance + 1) known other) := by
  have first := follows.ready
  rw [queue] at first
  have otherQueue := List.forall₂_nil_left_iff.mp first
  have back := follows.held
  simp only [run, queue, otherQueue]
  cases known with
  | some verdict => exact .some ⟨rfl, follows.time, follows.related⟩
  | none =>
      generalize machine.held = held, other.held = otherHeld at back
      cases back with
      | some both => exact later { follows with ready := .cons both .nil, held := .none }
      | none =>
          have jumped := follows.jump attached
          generalize machine.jump attached = after, other.jump attached = otherAfter at jumped
          cases jumped with
          | some both => exact later both
          | none => exact .none

end

theorem run_alike (attached : Bool) (clock : Nat → Readings) {close : R → Effect W ρ}
    {otherClose : R → Effect V ρ} (closes : ∀ result, (close result).Alike worlds (otherClose result))
    (allowance : Nat) : ∀ {known : Option (Verdict ρ)} {whole : Protocol R} {machine : Machine W R}
      {other : Machine V R}, machine.Follows none worlds whole ends (2 * allowance) other →
        Option.Rel (EndsAlike worlds) (run attached clock close allowance known machine)
          (run attached clock otherClose allowance known other) := by
  induction allowance with
  | zero => exact fun _ => .none
  | succ allowance ih =>
      intro known whole machine other follows
      cases queue : machine.ready with
      | cons strand ready => exact run_ready_alike closes ih follows queue
      | nil => exact run_idle_alike ih (follows.weaken (Nat.mul_le_mul_left 2 (Nat.le_succ allowance))) queue

end Machine
end FlowGraph
