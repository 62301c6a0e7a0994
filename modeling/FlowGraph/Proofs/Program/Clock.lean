import FlowGraph.Proofs.Program.Rounds

/-!
Which readings of the clock a run looks at: each of them once, from the one that is next. Two clocks that agree on
these are the same to it.
-/

namespace FlowGraph.Machine
variable {W R ρ : Type} {clock other : Nat → Readings}

theorem asked_take {machine after : Machine W R} {channel : Nat} {delivery : Delivery R}
    (taken : machine.take? channel = some (delivery, after)) : after.asked = machine.asked := by
  rcases take?_cases taken with ⟨_, rfl⟩ | ⟨_, _, _, _, _, _, rfl⟩
  · rfl
  · rfl

theorem asked_advance (clock : Nat → Readings) (program : Program W R) : ∀ machine : Machine W R,
    machine.asked ≤ (advance clock program machine).2.asked := by
  induction program with
  | done result => exact fun _ => Nat.le_refl _
  | call effect next ih =>
      exact fun machine => ih _ { machine with world := (effect machine.time machine.world).2 }
  | clock next ih =>
      exact fun machine => Nat.le_trans (Nat.le_succ _) (ih _ { machine with asked := machine.asked + 1 })
  | sleep millis next ih =>
      intro machine
      simp only [advance]
      split
      · exact ih () machine
      · exact Nat.le_refl _
  | launch names branch next _ ih => exact fun machine => ih _ (machine.launched names branch)
  | receive channel interval next ih =>
      intro machine
      simp only [advance]
      split
      · rename_i delivery after taken
        rw [← asked_take taken]
        exact ih delivery after
      · exact Nat.le_refl _
  | broken panic => exact fun _ => Nat.le_refl _
  | never => exact fun _ => Nat.le_refl _
  | exhausted => exact fun _ => Nat.le_refl _

theorem advance_clock (program : Program W R) : ∀ machine : Machine W R,
    (∀ index, machine.asked ≤ index → index < (advance clock program machine).2.asked → other index = clock index) →
      advance other program machine = advance clock program machine := by
  induction program with
  | done result => exact fun _ _ => rfl
  | call effect next ih =>
      exact fun machine agree => ih _ { machine with world := (effect machine.time machine.world).2 } agree
  | clock next ih =>
      intro machine agree
      have later := asked_advance clock (next (clock machine.asked)) { machine with asked := machine.asked + 1 }
      have first := agree machine.asked (Nat.le_refl _) later
      simp only [advance, first]
      exact ih _ { machine with asked := machine.asked + 1 } fun index after before =>
        agree index (Nat.le_of_succ_le after) before
  | sleep millis next ih =>
      intro machine agree
      simp only [advance] at agree ⊢
      split
      · rename_i now
        rw [if_pos now] at agree
        exact ih () machine agree
      · rfl
  | launch names branch next _ ih => exact fun machine agree => ih _ (machine.launched names branch) agree
  | receive channel interval next ih =>
      intro machine agree
      simp only [advance] at agree ⊢
      cases taken : machine.take? channel with
      | none => rfl
      | some found =>
          obtain ⟨delivery, after⟩ := found
          rw [← asked_take taken] at agree
          simp only [taken] at agree ⊢
          exact ih delivery after agree
  | broken panic => exact fun _ _ => rfl
  | never => exact fun _ _ => rfl
  | exhausted => exact fun _ _ => rfl

theorem asked_resume (clock : Nat → Readings) (wait : Wait W R) (machine : Machine W R) :
    machine.asked ≤ (resume clock wait machine).2.asked := by
  cases wait with
  | resting next => exact asked_advance clock _ machine
  | listening channel next =>
      simp only [resume]
      split
      · rename_i delivery after taken
        rw [← asked_take taken]
        exact asked_advance clock _ after
      · exact asked_advance clock _ machine

theorem resume_clock {wait : Wait W R} {machine : Machine W R}
    (agree : ∀ index, machine.asked ≤ index → index < (resume clock wait machine).2.asked →
      other index = clock index) : resume other wait machine = resume clock wait machine := by
  cases wait with
  | resting next => exact advance_clock _ machine agree
  | listening channel next =>
      simp only [resume] at agree ⊢
      cases taken : machine.take? channel with
      | none =>
          simp only [taken] at agree ⊢
          exact advance_clock _ machine agree
      | some found =>
          obtain ⟨delivery, after⟩ := found
          rw [← asked_take taken] at agree
          simp only [taken] at agree ⊢
          exact advance_clock _ after agree

theorem asked_awakenListeners (attached : Bool) (channel : Nat) (machine : Machine W R) :
    (machine.awakenListeners attached channel).asked = machine.asked := by
  have woken (parked : List (Parked W R)) : ∀ machine : Machine W R,
      (parked.foldl (fun machine parked => machine.awaken attached parked.strand) machine).asked =
        machine.asked := by
    induction parked with
    | nil => exact fun machine => rfl
    | cons first rest ih =>
        intro machine
        rw [List.foldl_cons, ih]
        unfold awaken
        split <;> rfl
  exact woken _ _

theorem asked_ended (attached : Bool) (machine : Machine W R) (channel : Nat) (report : Option (NodeId × R)) :
    (machine.ended attached channel report).asked = machine.asked := by
  simp only [ended]
  split
  · exact asked_awakenListeners attached channel _
  · rfl

theorem asked_placed (attached : Bool) (close : R → Effect W ρ) (owner : Owner) (halt : Halt W R)
    (machine : Machine W R) : (machine.placed attached close owner halt).asked = machine.asked := by
  cases halt with
  | parked wait deadline => rfl
  | settled result =>
      cases owner with
      | main => rfl
      | branch channel name => exact asked_ended attached machine channel _
  | broken panic =>
      cases owner with
      | main => rfl
      | branch channel name => exact asked_ended attached machine channel none
  | gone => rfl
  | exhausted => rfl

theorem asked_jump {attached : Bool} {machine after : Machine W R} (jumped : machine.jump attached = some after) :
    after.asked = machine.asked := by
  simp only [jump, Option.map_eq_some_iff] at jumped
  obtain ⟨_, _, rfl⟩ := jumped
  rfl

theorem round_clock {attached : Bool} {close : R → Effect W ρ} {machine : Machine W R}
    (agree : ∀ index, index < (machine.round attached clock close).asked → other index = clock index) :
    machine.round attached other close = machine.round attached clock close := by
  cases queue : machine.ready with
  | nil => simp only [round, queue]
  | cons strand ready =>
      rw [round_ready attached clock close queue, asked_placed] at agree
      rw [round_ready attached clock close queue, round_ready attached other close queue,
        resume_clock fun index _ before => agree index before]

theorem run_clock (attached : Bool) (close : R → Effect W ρ) (allowance : Nat) :
    ∀ {known : Option (Verdict ρ)} {machine : Machine W R},
      (∀ index, machine.asked ≤ index → other index = clock index) →
        run attached other close allowance known machine = run attached clock close allowance known machine := by
  induction allowance with
  | zero => exact fun _ => rfl
  | succ allowance ih =>
      intro known machine agree
      cases queue : machine.ready with
      | cons strand ready =>
          have same : resume other strand.wait { machine with ready } =
              resume clock strand.wait { machine with ready } := resume_clock fun index later _ => agree index later
          have later := asked_resume clock strand.wait { machine with ready }
          simp only [run, queue, same]
          generalize resume clock strand.wait { machine with ready } = resumed at later ⊢
          obtain ⟨halt, after⟩ := resumed
          obtain ⟨owner, wait⟩ := strand
          have onward {known : Option (Verdict ρ)} {next : Machine W R} (asked : next.asked = after.asked) :
              run attached other close allowance known next = run attached clock close allowance known next :=
            ih fun index from_ => agree index (Nat.le_trans later (asked ▸ from_))
          cases halt with
          | exhausted => rfl
          | gone => exact onward rfl
          | parked wait deadline => exact onward rfl
          | settled result =>
              cases owner with
              | branch channel name => exact onward (asked_ended _ _ _ _)
              | main =>
                  simp only [closed]
                  split
                  · rfl
                  · exact onward rfl
          | broken panic =>
              cases owner with
              | branch channel name => exact onward (asked_ended _ _ _ _)
              | main =>
                  simp only [closed]
                  split
                  · rfl
                  · exact onward rfl
      | nil =>
          simp only [run, queue]
          cases known with
          | some verdict => rfl
          | none =>
              cases machine.held with
              | some strand => exact ih agree
              | none =>
                  cases jumped : machine.jump attached with
                  | none => rfl
                  | some after =>
                      rw [← asked_jump jumped] at agree
                      exact ih agree

end FlowGraph.Machine
