import FlowGraph.Proofs.Program.Vouched

/-!
Records with an invariant. Beside the world stands a record that effects only add to. A program upholds an
invariant of the record if each of its effects does, and so do the branches that it launches; what they report
on a channel has to be as the protocol says, which may ask for notes on record. Then all that a run records
satisfies the invariant.
-/

namespace FlowGraph
variable {W N R α ρ : Type}

/-- What holds of a report still holds when more is recorded. -/
def Durable (good : NodeId → List N × R → Prop) : Prop :=
  ∀ name, Enduring fun notes result => good name (notes, result)

def Delivery.Fits (good : NodeId → List N × R → Prop) (notes : List N) : Delivery R → Prop
  | .report name result => good name (notes, result)
  | .closed => True
  | .quiet => True

/-- The effect adds to the record, if anything, and keeps its invariant. -/
def Effect.Upholds (inv : List N → Prop) (effect : Effect (W × List N) α) : Prop :=
  ∀ time world, inv world.2 → world.2 ⊆ (effect time world).2.2 ∧ inv (effect time world).2.2

/-- From this record on, the program keeps the invariant. Each of its ends is as `ends` says, as long as what it
is told on a channel is as the protocol says. -/
def Program.Upholds (inv : List N → Prop) :
    Program (W × List N) R → Protocol (List N × R) → (List N → R → Prop) → List N → Prop
  | .done result, _, ends, notes => ends notes result
  | .call effect next, protocol, ends, notes => ∀ time world, notes ⊆ world.2 → inv world.2 →
      world.2 ⊆ (effect time world).2.2 ∧ inv (effect time world).2.2 ∧
        (next (effect time world).1).Upholds inv protocol ends (effect time world).2.2
  | .clock next, protocol, ends, notes => ∀ readings, (next readings).Upholds inv protocol ends notes
  | .sleep _ next, protocol, ends, notes => (next ()).Upholds inv protocol ends notes
  | .launch names branch next, protocol, ends, notes => ∃ good, Durable good ∧
      (∀ place, ∀ name ∈ names,
        (branch place name).Upholds inv .closed (fun notes result => good name (notes, result)) notes) ∧
      ∀ channel, protocol channel = none → (next channel).Upholds inv (protocol.opened channel good) ends notes
  | .receive channel _ next, protocol, ends, notes => ∃ good, protocol channel = some good ∧
      ∀ delivery more, notes ⊆ more → delivery.Fits good more → (next delivery).Upholds inv protocol ends more
  | .broken _, _, _, _ => True
  | .never, _, _, _ => True
  | .exhausted, _, _, _ => True

namespace Program.Upholds
variable {inv : List N → Prop} {protocol wide : Protocol (List N × R)} {ends last : List N → R → Prop}
  {notes more : List N} {program : Program (W × List N) R}

theorem weaken (enduring : Enduring ends) (upholds : program.Upholds inv protocol ends notes)
    (widens : wide.Widens protocol) (adds : notes ⊆ more) : program.Upholds inv wide ends more := by
  induction program generalizing protocol wide ends notes more with
  | done result => exact enduring notes more result adds upholds
  | call effect next ih =>
      intro time world later holds
      obtain ⟨grows, keeps, rest⟩ := upholds time world (List.Subset.trans adds later) holds
      exact ⟨grows, keeps, ih _ enduring rest widens (List.Subset.refl _)⟩
  | clock next ih => exact fun readings => ih readings enduring (upholds readings) widens adds
  | sleep millis next ih => exact ih () enduring upholds widens adds
  | launch names branch next branches ih =>
      obtain ⟨good, durable, own, rest⟩ := upholds
      refine ⟨good, durable, fun place name member => ?_, fun channel fresh => ?_⟩
      · exact branches place name (durable name) (own place name member) (Protocol.Widens.refl _) adds
      · exact ih channel enduring (rest channel (widens.unknown fresh)) (widens.opened channel good) adds
  | receive channel interval next ih =>
      obtain ⟨good, known, rest⟩ := upholds
      refine ⟨good, widens _ _ known, fun delivery latest later fits => ?_⟩
      exact ih delivery enduring (rest delivery latest (List.Subset.trans adds later) fits) widens
        (List.Subset.refl _)
  | broken panic => trivial
  | never => trivial
  | exhausted => trivial

theorem bind {next : R → Program (W × List N) R} (upholds : program.Upholds inv protocol ends notes)
    (onward : ∀ wide : Protocol (List N × R), wide.Widens protocol → ∀ result more, notes ⊆ more → ends more result →
      (next result).Upholds inv wide last more) :
    (program.bind next).Upholds inv protocol last notes := by
  induction program generalizing protocol notes with
  | done result => exact onward protocol (Protocol.Widens.refl _) result notes (List.Subset.refl _) upholds
  | call effect rest ih =>
      intro time world later holds
      obtain ⟨grows, keeps, others⟩ := upholds time world later holds
      exact ⟨grows, keeps, ih _ others fun wide widens result more adds =>
        onward wide widens result more (List.Subset.trans later (List.Subset.trans grows adds))⟩
  | clock rest ih => exact fun readings => ih readings (upholds readings) onward
  | sleep millis rest ih => exact ih () upholds onward
  | launch names branch rest _ ih =>
      obtain ⟨good, durable, own, others⟩ := upholds
      refine ⟨good, durable, own, fun channel fresh => ih channel (others channel fresh) fun wide widens => ?_⟩
      exact onward wide (widens.trans (Protocol.opened_widens fresh good))
  | receive channel interval rest ih =>
      obtain ⟨good, known, others⟩ := upholds
      refine ⟨good, known, fun delivery more adds fits => ih delivery (others delivery more adds fits) ?_⟩
      exact fun wide widens result latest later => onward wide widens result latest (List.Subset.trans adds later)
  | broken panic => trivial
  | never => trivial
  | exhausted => trivial

theorem call {β : Type} {effect : Effect (W × List N) β} {next : β → Program (W × List N) R}
    (own : effect.Upholds inv) (rest : ∀ value more, notes ⊆ more → (next value).Upholds inv protocol ends more) :
    (call effect next).Upholds inv protocol ends notes := by
  intro time world later holds
  obtain ⟨grows, keeps⟩ := own time world holds
  exact ⟨grows, keeps, rest _ _ (List.Subset.trans later grows)⟩

theorem time {next : Nat → Program (W × List N) R}
    (rest : ∀ now more, notes ⊆ more → (next now).Upholds inv protocol ends more) :
    (time next).Upholds inv protocol ends notes :=
  call (fun _ world holds => ⟨List.Subset.refl world.2, holds⟩) rest

end Program.Upholds

def Wait.Upholds (inv : List N → Prop) (whole : Protocol (List N × R)) (own : List N → R → Prop) (notes : List N) :
    Wait (W × List N) R → Prop
  | .resting next => (next ()).Upholds inv whole own notes
  | .listening channel next => ∃ good, whole channel = some good ∧
      ∀ delivery more, notes ⊆ more → delivery.Fits good more → (next delivery).Upholds inv whole own more

def Halt.Upholds (inv : List N → Prop) (whole : Protocol (List N × R)) (own : List N → R → Prop) (notes : List N) :
    Halt (W × List N) R → Prop
  | .settled result => own notes result
  | .parked wait _ => wait.Upholds inv whole own notes
  | .broken _ => True
  | .gone => True
  | .exhausted => True

def Owner.Promises (whole : Protocol (List N × R)) (ends own : List N → R → Prop) : Owner → Prop
  | .main => own = ends
  | .branch channel name => ∃ good, whole channel = some good ∧ own = fun notes result => good name (notes, result)

def Strand.Upholds (inv : List N → Prop) (whole : Protocol (List N × R)) (ends : List N → R → Prop) (notes : List N)
    (strand : Strand (W × List N) R) : Prop :=
  ∃ own, Enduring own ∧ strand.owner.Promises whole ends own ∧ strand.wait.Upholds inv whole own notes

section
variable {inv : List N → Prop} {whole wide : Protocol (List N × R)} {ends own : List N → R → Prop}
  {notes more : List N}

theorem Wait.Upholds.weaken {wait : Wait (W × List N) R} (enduring : Enduring own)
    (upholds : wait.Upholds inv whole own notes) (widens : wide.Widens whole) (adds : notes ⊆ more) :
    wait.Upholds inv wide own more := by
  cases wait with
  | resting next => exact Program.Upholds.weaken enduring upholds widens adds
  | listening channel next =>
      obtain ⟨good, known, rest⟩ := upholds
      refine ⟨good, widens _ _ known, fun delivery latest later fits => ?_⟩
      exact (rest delivery latest (List.Subset.trans adds later) fits).weaken enduring widens (List.Subset.refl _)

theorem Owner.Promises.widen {owner : Owner} (promises : owner.Promises whole ends own)
    (widens : wide.Widens whole) :
    owner.Promises wide ends own := by
  cases owner with
  | main => exact promises
  | branch channel name =>
      obtain ⟨good, known, same⟩ := promises
      exact ⟨good, widens _ _ known, same⟩

theorem Strand.Upholds.weaken {strand : Strand (W × List N) R} (upholds : strand.Upholds inv whole ends notes)
    (widens : wide.Widens whole) (adds : notes ⊆ more) : strand.Upholds inv wide ends more := by
  obtain ⟨own, enduring, promises, waits⟩ := upholds
  exact ⟨own, enduring, promises.widen widens, waits.weaken enduring widens adds⟩

end

namespace Machine

/-- The record satisfies the invariant, all strands uphold it, and the reports that wait are as the protocol
says. -/
structure Upholds (inv : List N → Prop) (whole : Protocol (List N × R)) (ends : List N → R → Prop)
    (machine : Machine (W × List N) R) : Prop where
  record : inv machine.world.2
  fresh : ∀ channel, machine.mailboxes.length ≤ channel → whole channel = none
  durable : ∀ channel good, whole channel = some good → Durable good
  reports : ∀ channel good, whole channel = some good →
    ∀ report ∈ (machine.mailbox channel).reports, good report.1 (machine.world.2, report.2)
  strands : ∀ strand ∈ machine.strands, strand.Upholds inv whole ends machine.world.2

def UpheldBy (inv : List N → Prop) (whole : Protocol (List N × R)) (ends own : List N → R → Prop)
    (before : Machine (W × List N) R) (ran : Halt (W × List N) R × Machine (W × List N) R) : Prop :=
  ∃ wide : Protocol (List N × R), wide.Widens whole ∧ before.world.2 ⊆ ran.2.world.2 ∧ ran.2.Upholds inv wide ends ∧
    ran.1.Upholds inv wide own ran.2.world.2

variable {inv : List N → Prop} {whole : Protocol (List N × R)} {ends own : List N → R → Prop}
  {machine after : Machine (W × List N) R}

theorem UpheldBy.behind {wide : Protocol (List N × R)} {ran : Halt (W × List N) R × Machine (W × List N) R}
    (upheld : UpheldBy inv wide ends own after ran) (widens : wide.Widens whole)
    (adds : machine.world.2 ⊆ after.world.2) : UpheldBy inv whole ends own machine ran := by
  obtain ⟨widest, wider, grows, later, halts⟩ := upheld
  exact ⟨widest, wider.trans widens, List.Subset.trans adds grows, later, halts⟩

namespace Upholds

theorem rearrange (upholds : machine.Upholds inv whole ends) (fewer : after.strands ⊆ machine.strands)
    (mailboxes : after.mailboxes = machine.mailboxes) (world : after.world = machine.world) :
    after.Upholds inv whole ends where
  record := by
    rw [world]
    exact upholds.record
  fresh := by
    rw [mailboxes]
    exact upholds.fresh
  durable := upholds.durable
  reports := by
    simp only [mailbox, mailboxes, world]
    exact upholds.reports
  strands strand member := by
    rw [world]
    exact upholds.strands strand (fewer member)

theorem world (upholds : machine.Upholds inv whole ends) {world : W × List N} (adds : machine.world.2 ⊆ world.2)
    (keeps : inv world.2) : Upholds inv whole ends { machine with world } where
  record := keeps
  fresh := upholds.fresh
  durable := upholds.durable
  reports channel good known report waits :=
    upholds.durable channel good known report.1 _ _ _ adds (upholds.reports channel good known report waits)
  strands strand member := (upholds.strands strand member).weaken (Protocol.Widens.refl _) adds

theorem setMailbox (upholds : machine.Upholds inv whole ends) (channel : Nat) (box : Mailbox R)
    (fits : ∀ good, whole channel = some good → ∀ report ∈ box.reports, good report.1 (machine.world.2, report.2)) :
    Upholds inv whole ends { machine with mailboxes := machine.mailboxes.set channel box } where
  record := upholds.record
  fresh other beyond := upholds.fresh other (by simpa using beyond)
  durable := upholds.durable
  reports other good known report waits := by
    by_cases same : other = channel
    · subst same
      by_cases within : other < machine.mailboxes.length
      · simp only [mailbox, List.getElem?_set_self within, Option.getD_some] at waits
        exact fits good known report waits
      · rw [upholds.fresh other (Nat.le_of_not_lt within)] at known
        cases known
    · simp only [mailbox, List.getElem?_set_ne (Ne.symm same)] at waits
      exact upholds.reports other good known report waits
  strands := upholds.strands

theorem launched (upholds : machine.Upholds inv whole ends) {branch : Nat → NodeId → Program (W × List N) R}
    {names : List NodeId} {good : NodeId → List N × R → Prop} (durable : Durable good)
    (branches : ∀ place, ∀ name ∈ names, (branch place name).Upholds inv .closed
      (fun notes result => good name (notes, result)) machine.world.2) :
    (machine.launched names branch).Upholds inv (whole.opened machine.mailboxes.length good) ends := by
  have unknown : whole machine.mailboxes.length = none := upholds.fresh _ (Nat.le_refl _)
  have widens : (whole.opened machine.mailboxes.length good).Widens whole := Protocol.opened_widens unknown good
  constructor
  · exact upholds.record
  · intro channel beyond
    simp only [Machine.launched, List.length_append, List.length_singleton] at beyond
    rw [Protocol.opened, if_neg (by omega)]
    exact upholds.fresh channel (by omega)
  · intro channel known found
    unfold Protocol.opened at found
    split at found
    · cases found
      exact durable
    · exact upholds.durable channel known found
  · intro channel known found report waits
    unfold Protocol.opened at found
    split at found
    · rename_i same
      subst same
      simp [mailbox, Machine.launched] at waits
    · have old : channel < machine.mailboxes.length := by
        by_contra beyond
        rw [upholds.fresh channel (Nat.le_of_not_lt beyond)] at found
        cases found
      rw [mailbox_launched names branch old] at waits
      exact upholds.reports channel known found report waits
  · intro strand member
    simp only [Machine.strands, Machine.launched, List.append_assoc] at member
    rcases List.mem_append.mp member with ready | other
    · exact (upholds.strands strand (by simp [Machine.strands, ready])).weaken widens (List.Subset.refl _)
    · rcases List.mem_append.mp other with new | waiting
      · obtain ⟨place, name, among, rfl⟩ := eq_of_mem_branchStrands names 0 strand new
        refine ⟨_, durable name, ⟨good, Protocol.opened_same _ _ _, rfl⟩, ?_⟩
        exact Program.Upholds.weaken (durable name) (branches place name among) (Protocol.widens_closed _)
          (List.Subset.refl _)
      · refine (upholds.strands strand ?_).weaken widens (List.Subset.refl _)
        simpa [Machine.strands] using .inr (by simpa using waiting)

theorem received (upholds : machine.Upholds inv whole ends) {channel : Nat} {delivery : Delivery R}
    (taken : machine.take? channel = some (delivery, after)) {good : NodeId → List N × R → Prop}
    (known : whole channel = some good) :
    after.Upholds inv whole ends ∧ after.world = machine.world ∧ delivery.Fits good machine.world.2 := by
  rcases take?_cases taken with ⟨rfl, rfl⟩ | ⟨name, result, rest, senders, waiting, rfl, rfl⟩
  · exact ⟨upholds, rfl, trivial⟩
  · have all := upholds.reports channel good known
    simp only [mailbox, waiting] at all
    refine ⟨upholds.setMailbox channel _ fun other found report waits => ?_, rfl, all _ List.mem_cons_self⟩
    rw [known] at found
    cases found
    exact all report (List.mem_cons_of_mem _ waits)

theorem advance (clock : Nat → Readings) (program : Program (W × List N) R) :
    ∀ {machine : Machine (W × List N) R} {whole : Protocol (List N × R)}, machine.Upholds inv whole ends →
      program.Upholds inv whole own machine.world.2 →
        UpheldBy inv whole ends own machine (advance clock program machine) := by
  induction program with
  | done result => exact fun upholds held => ⟨_, Protocol.Widens.refl _, List.Subset.refl _, upholds, held⟩
  | call effect next ih =>
      intro machine whole upholds held
      obtain ⟨adds, keeps, onward⟩ := held machine.time machine.world (List.Subset.refl _) upholds.record
      exact (ih _ (upholds.world adds keeps) onward).behind (Protocol.Widens.refl _) adds
  | clock next ih =>
      intro machine whole upholds held
      have asked : Upholds inv whole ends { machine with asked := machine.asked + 1 } :=
        upholds.rearrange (List.Subset.refl _) rfl rfl
      exact (ih (clock machine.asked) asked (held _)).behind (Protocol.Widens.refl _) (List.Subset.refl _)
  | sleep millis next ih =>
      intro machine whole upholds held
      simp only [Machine.advance]
      split
      · exact ih () upholds held
      · exact ⟨_, Protocol.Widens.refl _, List.Subset.refl _, upholds, held⟩
  | launch names branch next _ ih =>
      intro machine whole upholds held
      obtain ⟨good, durable, branches, onward⟩ := held
      have unknown : whole machine.mailboxes.length = none := upholds.fresh _ (Nat.le_refl _)
      exact (ih machine.mailboxes.length (upholds.launched durable branches) (onward _ unknown)).behind
        (Protocol.opened_widens unknown good) (List.Subset.refl _)
  | receive channel interval next ih =>
      intro machine whole upholds held
      obtain ⟨good, known, onward⟩ := held
      simp only [Machine.advance]
      split
      · rename_i delivery after taken
        obtain ⟨later, world, fits⟩ := upholds.received taken known
        rw [← world] at fits
        have rest := onward delivery _ (by rw [world]; exact List.Subset.refl _) fits
        exact (ih delivery later rest).behind (Protocol.Widens.refl _) (by rw [world]; exact List.Subset.refl _)
      · exact ⟨_, Protocol.Widens.refl _, List.Subset.refl _, upholds, good, known, onward⟩
  | broken panic => exact fun upholds _ => ⟨_, Protocol.Widens.refl _, List.Subset.refl _, upholds, trivial⟩
  | never => exact fun upholds _ => ⟨_, Protocol.Widens.refl _, List.Subset.refl _, upholds, trivial⟩
  | exhausted => exact fun upholds _ => ⟨_, Protocol.Widens.refl _, List.Subset.refl _, upholds, trivial⟩

theorem resume (clock : Nat → Readings) {wait : Wait (W × List N) R} (upholds : machine.Upholds inv whole ends)
    (held : wait.Upholds inv whole own machine.world.2) :
    UpheldBy inv whole ends own machine (resume clock wait machine) := by
  cases wait with
  | resting next => exact upholds.advance clock _ held
  | listening channel next =>
      obtain ⟨good, known, onward⟩ := held
      simp only [Machine.resume]
      split
      · rename_i delivery after taken
        obtain ⟨later, world, fits⟩ := upholds.received taken known
        rw [← world] at fits
        have rest := later.advance clock (next delivery)
          (onward delivery _ (by rw [world]; exact List.Subset.refl _) fits)
        exact rest.behind (Protocol.Widens.refl _) (by rw [world]; exact List.Subset.refl _)
      · exact upholds.advance clock (next .quiet) (onward .quiet _ (List.Subset.refl _) trivial)

theorem park (upholds : machine.Upholds inv whole ends) (strand : Strand (W × List N) R)
    (held : strand.Upholds inv whole ends machine.world.2) (deadline : Nat) :
    Upholds inv whole ends { machine with parked := machine.parked ++ [⟨strand, deadline⟩] } where
  record := upholds.record
  fresh := upholds.fresh
  durable := upholds.durable
  reports := upholds.reports
  strands other member := by
    simp only [Machine.strands, List.map_append, List.mem_append, List.map_cons, List.map_nil,
      List.mem_singleton] at member
    rcases member with (ready | parked | rfl) | last
    · exact upholds.strands other (by simp [Machine.strands, ready])
    · exact upholds.strands other (by simpa [Machine.strands] using .inr (.inl (by simpa using parked)))
    · exact held
    · exact upholds.strands other (by simp [Machine.strands, Option.mem_toList.mp last])

theorem ended (upholds : machine.Upholds inv whole ends) (attached : Bool) (channel : Nat)
    {report : Option (NodeId × R)} (fits : ∀ good, whole channel = some good →
      ∀ pair ∈ report, good pair.1 (machine.world.2, pair.2)) :
    (machine.ended attached channel report).Upholds inv whole ends := by
  obtain ⟨fewer, senders, mailboxes⟩ := ended_strands attached machine channel report
  refine rearrange (upholds.setMailbox channel ⟨_, senders⟩ ?_) fewer.subset mailboxes
    (world_ended attached machine channel report)
  intro good known pair waits
  rcases List.mem_append.mp waits with old | new
  · exact upholds.reports channel good known pair old
  · exact fits good known pair (Option.mem_toList.mp new)

theorem placed (enduring : Enduring own) (upholds : machine.Upholds inv whole ends) (attached : Bool)
    {close : R → Effect (W × List N) ρ} (closes : ∀ result, (close result).Upholds inv) {owner : Owner}
    (promises : owner.Promises whole ends own) {halt : Halt (W × List N) R}
    (held : halt.Upholds inv whole own machine.world.2) :
    (machine.placed attached close owner halt).Upholds inv whole ends := by
  cases halt with
  | parked wait deadline => exact upholds.park ⟨owner, wait⟩ ⟨own, enduring, promises, held⟩ deadline
  | settled result =>
      cases owner with
      | main =>
          obtain ⟨adds, keeps⟩ := closes result machine.time machine.world upholds.record
          exact upholds.world adds keeps
      | branch channel name =>
          obtain ⟨good, known, rfl⟩ := promises
          have fits : ∀ other, whole channel = some other →
              ∀ pair ∈ some (name, result), other pair.1 (machine.world.2, pair.2) := by
            intro other found pair reported
            rw [known] at found
            cases found
            cases Option.mem_some_iff.mp reported
            exact held
          exact upholds.ended attached channel fits
  | broken panic =>
      cases owner with
      | main => exact upholds
      | branch channel name =>
          have fits : ∀ good, whole channel = some good →
              ∀ pair ∈ (none : Option (NodeId × R)), good pair.1 (machine.world.2, pair.2) := by
            rintro good known pair ⟨⟩
          exact upholds.ended attached channel fits
  | gone => exact upholds
  | exhausted => exact upholds

theorem round (upholds : machine.Upholds inv whole ends) (attached : Bool) (clock : Nat → Readings)
    {close : R → Effect (W × List N) ρ} (closes : ∀ result, (close result).Upholds inv) :
    ∃ wide, (machine.round attached clock close).Upholds inv wide ends := by
  cases queue : machine.ready with
  | cons strand ready =>
      have all := strands_ready queue
      have others : Upholds inv whole ends { machine with ready } :=
        upholds.rearrange (by rw [all]; exact List.subset_cons_self _ _) rfl rfl
      obtain ⟨own, enduring, promises, waits⟩ := upholds.strands strand (by rw [all]; exact List.mem_cons_self)
      obtain ⟨wide, widens, _, later, halts⟩ := others.resume clock waits
      rw [round_ready attached clock close queue]
      exact ⟨wide, later.placed enduring attached closes (promises.widen widens) halts⟩
  | nil =>
      simp only [Machine.round, queue]
      cases back : machine.held with
      | some strand => exact ⟨whole, upholds.rearrange (strands_release queue back).subset rfl rfl⟩
      | none =>
          cases jumped : machine.jump attached with
          | none => exact ⟨whole, upholds⟩
          | some after =>
              obtain ⟨moved, mailboxes⟩ := jump_strands jumped
              exact ⟨whole, upholds.rearrange moved.subset mailboxes (jump_world jumped)⟩

theorem start {world : W × List N} {program : Program (W × List N) R} (keeps : inv world.2)
    (enduring : Enduring ends)
    (held : program.Upholds inv .closed ends world.2) : (start world program).Upholds inv .closed ends where
  record := keeps
  fresh _ _ := rfl
  durable := by rintro channel good ⟨⟩
  reports := by rintro channel good ⟨⟩
  strands strand member := by
    cases List.mem_singleton.mp member
    exact ⟨ends, enduring, rfl, held⟩

theorem rounds (attached : Bool) (clock : Nat → Readings) {close : R → Effect (W × List N) ρ}
    (closes : ∀ result, (close result).Upholds inv) (count : Nat) :
    ∀ {machine : Machine (W × List N) R} {whole : Protocol (List N × R)}, machine.Upholds inv whole ends →
      inv ((Machine.round attached clock close)^[count] machine).world.2 := by
  induction count with
  | zero => exact fun upholds => upholds.record
  | succ count ih =>
      intro machine whole upholds
      obtain ⟨wide, later⟩ := upholds.round attached clock closes
      exact ih later

end Upholds
end Machine
end FlowGraph
