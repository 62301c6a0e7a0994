import FlowGraph.Proofs.Program.Lockstep.Round

/-!
Records that vouch for results. Beside the world stands a record, and effects only add to it. A program is vouched
for if the record is right about each of its ends, although other strands may add to the record whenever it
waits, as long as the reports that it receives are vouched for too. Then the record of a run vouches for the
result of its main program.
-/

namespace FlowGraph
variable {W V N R α ρ : Type}

/-- The effect takes nothing off the record. -/
def Effect.Adds (effect : Effect (W × List N) α) : Prop := ∀ time world, world.2 ⊆ (effect time world).2.2

/-- What a record vouches for, it vouches for when more is recorded. -/
def Enduring (vouches : List N → R → Prop) : Prop :=
  ∀ notes more result, notes ⊆ more → vouches notes result → vouches more result

def Delivery.Vouched (vouches : List N → R → Prop) (notes : List N) : Delivery R → Prop
  | .report _ result => vouches notes result
  | .closed => True
  | .quiet => True

/-- From this record on, the record vouches for every end of the program and of the branches that it launches. -/
def Program.Vouched (vouches : List N → R → Prop) : Program (W × List N) R → List N → Prop
  | .done result, notes => vouches notes result
  | .call effect next, notes => ∀ time world, notes ⊆ world.2 →
      world.2 ⊆ (effect time world).2.2 ∧ (next (effect time world).1).Vouched vouches (effect time world).2.2
  | .clock next, notes => ∀ readings, (next readings).Vouched vouches notes
  | .sleep _ next, notes => (next ()).Vouched vouches notes
  | .launch names branch next, notes =>
      (∀ place, ∀ name ∈ names, (branch place name).Vouched vouches notes) ∧
        ∀ channel, (next channel).Vouched vouches notes
  | .receive _ _ next, notes => ∀ delivery more, notes ⊆ more → delivery.Vouched vouches more →
      (next delivery).Vouched vouches more
  | .broken _, _ => True
  | .never, _ => True
  | .exhausted, _ => True

namespace Program.Vouched
variable {vouches : List N → R → Prop} {notes more : List N} {program : Program (W × List N) R}

theorem mono (enduring : Enduring vouches) (vouched : program.Vouched vouches notes) (adds : notes ⊆ more) :
    program.Vouched vouches more := by
  induction program generalizing notes more with
  | done result => exact enduring notes more result adds vouched
  | call effect next ih => exact fun time world later => vouched time world (List.Subset.trans adds later)
  | clock next ih => exact fun readings => ih readings (vouched readings) adds
  | sleep millis next ih => exact ih () vouched adds
  | launch names branch next branches ih =>
      exact ⟨fun place name member => branches place name (vouched.1 place name member) adds,
        fun channel => ih channel (vouched.2 channel) adds⟩
  | receive channel interval next ih =>
      exact fun delivery latest later => vouched delivery latest (List.Subset.trans adds later)
  | broken panic => trivial
  | never => trivial
  | exhausted => trivial

theorem bind {next : R → Program (W × List N) R} (vouched : program.Vouched vouches notes)
    (onward : ∀ result more, vouches more result → (next result).Vouched vouches more) :
    (program.bind next).Vouched vouches notes := by
  induction program generalizing notes with
  | done result => exact onward result notes vouched
  | call effect rest ih =>
      intro time world later
      obtain ⟨adds, others⟩ := vouched time world later
      exact ⟨adds, ih _ others⟩
  | clock rest ih => exact fun readings => ih readings (vouched readings)
  | sleep millis rest ih => exact ih () vouched
  | launch names branch rest _ ih => exact ⟨vouched.1, fun channel => ih channel (vouched.2 channel)⟩
  | receive channel interval rest ih =>
      exact fun delivery more adds reported => ih delivery (vouched delivery more adds reported)
  | broken panic => trivial
  | never => trivial
  | exhausted => trivial

theorem call {β : Type} {effect : Effect (W × List N) β} {next : β → Program (W × List N) R} (adds : effect.Adds)
    (vouched : ∀ value more, (next value).Vouched vouches more) : (call effect next).Vouched vouches notes :=
  fun time world _ => ⟨adds time world, vouched _ _⟩

theorem time {next : Nat → Program (W × List N) R}
    (vouched : ∀ now more, (next now).Vouched vouches more) : (time next).Vouched vouches notes :=
  call (fun _ world => List.Subset.refl world.2) vouched

end Program.Vouched

def Wait.Vouched (vouches : List N → R → Prop) (notes : List N) : Wait (W × List N) R → Prop
  | .resting next => (next ()).Vouched vouches notes
  | .listening _ next => ∀ delivery more, notes ⊆ more → delivery.Vouched vouches more →
      (next delivery).Vouched vouches more

def Halt.Vouched (vouches : List N → R → Prop) (notes : List N) : Halt (W × List N) R → Prop
  | .settled result => vouches notes result
  | .parked wait _ => wait.Vouched vouches notes
  | .broken _ => True
  | .gone => True
  | .exhausted => True

theorem Wait.Vouched.mono {vouches : List N → R → Prop} (enduring : Enduring vouches) {notes more : List N}
    (adds : notes ⊆ more) {wait : Wait (W × List N) R} (vouched : wait.Vouched vouches notes) :
    wait.Vouched vouches more := by
  cases wait with
  | resting next => exact Program.Vouched.mono enduring vouched adds
  | listening channel next =>
      exact fun delivery latest later => vouched delivery latest (List.Subset.trans adds later)

namespace Machine

/-- The record vouches for all reports that wait, and for all programs that strands go on with. -/
structure Vouched (vouches : List N → R → Prop) (machine : Machine (W × List N) R) : Prop where
  reports : ∀ mailbox ∈ machine.mailboxes, ∀ report ∈ mailbox.reports, vouches machine.world.2 report.2
  strands : ∀ strand ∈ machine.strands, strand.wait.Vouched vouches machine.world.2

structure RunsOnRecord (vouches : List N → R → Prop) (before : Machine (W × List N) R)
    (ran : Halt (W × List N) R × Machine (W × List N) R) : Prop where
  adds : before.world.2 ⊆ ran.2.world.2
  machine : ran.2.Vouched vouches
  halt : ran.1.Vouched vouches ran.2.world.2

variable {vouches : List N → R → Prop} {machine after : Machine (W × List N) R}

theorem RunsOnRecord.behind {ran : Halt (W × List N) R × Machine (W × List N) R}
    (runs : RunsOnRecord vouches after ran) (adds : machine.world.2 ⊆ after.world.2) :
    RunsOnRecord vouches machine ran :=
  { runs with adds := List.Subset.trans adds runs.adds }

theorem mem_branchStrands_wait {channel : Nat} {branch : Nat → NodeId → Program (W × List N) R}
    {notes : List N} (names : List NodeId)
    (vouched : ∀ place, ∀ name ∈ names, (branch place name).Vouched vouches notes)
    (place : Nat) (strand : Strand (W × List N) R) (member : strand ∈ branchStrands channel branch place names) :
    strand.wait.Vouched vouches notes := by
  obtain ⟨place, name, among, rfl⟩ := eq_of_mem_branchStrands names place strand member
  exact vouched place name among

theorem world_ended (attached : Bool) (machine : Machine W R) (channel : Nat)
    (report : Option (NodeId × R)) : (machine.ended attached channel report).world = machine.world := by
  have woken (parked : List (Parked W R)) : ∀ machine : Machine W R,
      (parked.foldl (fun machine parked => machine.awaken attached parked.strand) machine).world =
        machine.world := by
    induction parked with
    | nil => exact fun machine => rfl
    | cons first rest ih =>
        intro machine
        rw [List.foldl_cons, ih]
        unfold awaken
        split <;> rfl
  simp only [Machine.ended, awakenListeners]
  split
  · exact woken _ _
  · rfl

namespace Vouched

theorem world (enduring : Enduring vouches) (vouched : machine.Vouched vouches) {world : W × List N}
    (adds : machine.world.2 ⊆ world.2) : Vouched vouches { machine with world } where
  reports mailbox member report waits := enduring _ _ _ adds (vouched.reports mailbox member report waits)
  strands strand member := (vouched.strands strand member).mono enduring adds

theorem rearrange (vouched : machine.Vouched vouches) (fewer : after.strands ⊆ machine.strands)
    (mailboxes : after.mailboxes = machine.mailboxes) (world : after.world = machine.world) :
    after.Vouched vouches where
  reports := by
    rw [mailboxes, world]
    exact vouched.reports
  strands strand member := by
    rw [world]
    exact vouched.strands strand (fewer member)

theorem launched (vouched : machine.Vouched vouches) {branch : Nat → NodeId → Program (W × List N) R}
    {names : List NodeId}
    (branches : ∀ place, ∀ name ∈ names, (branch place name).Vouched vouches machine.world.2) :
    (machine.launched names branch).Vouched vouches where
  reports mailbox member report waits := by
    rcases List.mem_append.mp member with old | new
    · exact vouched.reports mailbox old report waits
    · cases List.mem_singleton.mp new
      cases waits
  strands strand member := by
    simp only [Machine.strands, Machine.launched, List.append_assoc] at member
    rcases List.mem_append.mp member with ready | other
    · exact vouched.strands strand (by simp [Machine.strands, ready])
    · rcases List.mem_append.mp other with branch | waiting
      · exact mem_branchStrands_wait names branches 0 strand branch
      · exact vouched.strands strand (by simpa [Machine.strands] using .inr (by simpa using waiting))

theorem received (vouched : machine.Vouched vouches) {channel : Nat} {delivery : Delivery R}
    (taken : machine.take? channel = some (delivery, after)) :
    after.Vouched vouches ∧ after.world = machine.world ∧ delivery.Vouched vouches machine.world.2 := by
  rcases take?_cases taken with ⟨rfl, rfl⟩ | ⟨name, result, rest, senders, waiting, rfl, rfl⟩
  · exact ⟨vouched, rfl, trivial⟩
  · cases found : machine.mailboxes[channel]? with
    | none =>
        rw [found] at waiting
        cases waiting
    | some mailbox =>
        rw [found, Option.getD_some] at waiting
        have known := vouched.reports mailbox (List.mem_of_getElem? found)
        rw [waiting] at known
        refine ⟨⟨fun other member report waits => ?_, vouched.strands⟩, rfl, known _ List.mem_cons_self⟩
        rcases List.mem_or_eq_of_mem_set member with old | rfl
        · exact vouched.reports other old report waits
        · exact known report (List.mem_cons_of_mem _ waits)

theorem advance (enduring : Enduring vouches) (clock : Nat → Readings) (program : Program (W × List N) R) :
    ∀ {machine : Machine (W × List N) R}, machine.Vouched vouches → program.Vouched vouches machine.world.2 →
      RunsOnRecord vouches machine (advance clock program machine) := by
  induction program with
  | done result => exact fun vouched own => ⟨List.Subset.refl _, vouched, own⟩
  | call effect next ih =>
      intro machine vouched own
      obtain ⟨adds, onward⟩ := own machine.time machine.world (List.Subset.refl _)
      exact (ih _ (vouched.world enduring adds) onward).behind adds
  | clock next ih =>
      intro machine vouched own
      have asked : Vouched vouches { machine with asked := machine.asked + 1 } :=
        ⟨vouched.reports, vouched.strands⟩
      exact (ih (clock machine.asked) asked (own _)).behind (List.Subset.refl _)
  | sleep millis next ih =>
      intro machine vouched own
      simp only [Machine.advance]
      split
      · exact ih () vouched own
      · exact ⟨List.Subset.refl _, vouched, own⟩
  | launch names branch next _ ih =>
      intro machine vouched own
      exact (ih machine.mailboxes.length (vouched.launched own.1) (own.2 _)).behind (List.Subset.refl _)
  | receive channel interval next ih =>
      intro machine vouched own
      simp only [Machine.advance]
      split
      · rename_i delivery after taken
        obtain ⟨later, world, good⟩ := vouched.received taken
        have onward := ih delivery later (own delivery _ (by rw [world]; exact List.Subset.refl _) (world ▸ good))
        exact onward.behind (by rw [world]; exact List.Subset.refl _)
      · exact ⟨List.Subset.refl _, vouched, own⟩
  | broken panic => exact fun vouched _ => ⟨List.Subset.refl _, vouched, trivial⟩
  | never => exact fun vouched _ => ⟨List.Subset.refl _, vouched, trivial⟩
  | exhausted => exact fun vouched _ => ⟨List.Subset.refl _, vouched, trivial⟩

theorem resume (enduring : Enduring vouches) (clock : Nat → Readings) {wait : Wait (W × List N) R}
    (vouched : machine.Vouched vouches) (own : wait.Vouched vouches machine.world.2) :
    RunsOnRecord vouches machine (resume clock wait machine) := by
  cases wait with
  | resting next => exact vouched.advance enduring clock _ own
  | listening channel next =>
      simp only [Machine.resume]
      split
      · rename_i delivery after taken
        obtain ⟨later, world, good⟩ := vouched.received taken
        have onward := later.advance enduring clock (next delivery)
          (own delivery _ (by rw [world]; exact List.Subset.refl _) (world ▸ good))
        exact onward.behind (by rw [world]; exact List.Subset.refl _)
      · exact vouched.advance enduring clock (next .quiet) (own .quiet _ (List.Subset.refl _) trivial)

theorem park (vouched : machine.Vouched vouches) (strand : Strand (W × List N) R)
    (own : strand.wait.Vouched vouches machine.world.2) (deadline : Nat) :
    Vouched vouches { machine with parked := machine.parked ++ [⟨strand, deadline⟩] } where
  reports := vouched.reports
  strands other member := by
    simp only [Machine.strands, List.map_append, List.mem_append, List.map_cons, List.map_nil,
      List.mem_singleton] at member
    rcases member with (ready | parked | rfl) | held
    · exact vouched.strands other (by simp [Machine.strands, ready])
    · exact vouched.strands other (by simpa [Machine.strands] using .inr (.inl (by simpa using parked)))
    · exact own
    · exact vouched.strands other (by simp [Machine.strands, Option.mem_toList.mp held])

theorem ended (vouched : machine.Vouched vouches) (attached : Bool) (channel : Nat)
    {report : Option (NodeId × R)} (good : ∀ pair ∈ report, vouches machine.world.2 pair.2) :
    (machine.ended attached channel report).Vouched vouches := by
  obtain ⟨fewer, senders, mailboxes⟩ := ended_strands attached machine channel report
  refine ⟨?_, fun strand member => ?_⟩
  · rw [mailboxes, world_ended]
    intro mailbox member pair waits
    rcases List.mem_or_eq_of_mem_set member with old | rfl
    · exact vouched.reports mailbox old pair waits
    · rcases List.mem_append.mp waits with old | new
      · cases found : machine.mailboxes[channel]? with
        | none =>
            rw [found] at old
            cases old
        | some mailbox =>
            rw [found, Option.getD_some] at old
            exact vouched.reports mailbox (List.mem_of_getElem? found) pair old
      · exact good pair (Option.mem_toList.mp new)
  · rw [world_ended]
    exact vouched.strands strand (fewer.subset member)

theorem placed (enduring : Enduring vouches) (vouched : machine.Vouched vouches) (attached : Bool)
    {close : R → Effect (W × List N) ρ} (adds : ∀ result, (close result).Adds) (owner : Owner)
    {halt : Halt (W × List N) R} (own : halt.Vouched vouches machine.world.2) :
    (machine.placed attached close owner halt).Vouched vouches ∧
      machine.world.2 ⊆ (machine.placed attached close owner halt).world.2 := by
  cases halt with
  | parked wait deadline => exact ⟨vouched.park ⟨owner, wait⟩ own deadline, List.Subset.refl _⟩
  | settled result =>
      cases owner with
      | main => exact ⟨vouched.world enduring (adds result _ _), adds result _ _⟩
      | branch channel name =>
          have good : ∀ pair ∈ some (name, result), vouches machine.world.2 pair.2 := by
            rintro pair ⟨⟩
            exact own
          refine ⟨vouched.ended attached channel good, ?_⟩
          rw [Machine.placed, world_ended]
          exact List.Subset.refl _
  | broken panic =>
      cases owner with
      | main => exact ⟨vouched, List.Subset.refl _⟩
      | branch channel name =>
          refine ⟨vouched.ended attached channel fun _ none => absurd none (Option.not_mem_none _), ?_⟩
          rw [Machine.placed, world_ended]
          exact List.Subset.refl _
  | gone => exact ⟨vouched, List.Subset.refl _⟩
  | exhausted => exact ⟨vouched, List.Subset.refl _⟩

theorem turn (enduring : Enduring vouches) (vouched : machine.Vouched vouches) (clock : Nat → Readings)
    {strand : Strand (W × List N) R} {ready : List (Strand (W × List N) R)}
    (queue : machine.ready = strand :: ready) :
    RunsOnRecord vouches machine (Machine.resume clock strand.wait { machine with ready }) := by
  have all := strands_ready queue
  have others : Vouched vouches { machine with ready } :=
    vouched.rearrange (by rw [all]; exact List.subset_cons_self _ _) rfl rfl
  have own := vouched.strands strand (by rw [all]; exact List.mem_cons_self)
  exact (others.resume enduring clock own).behind (List.Subset.refl _)

theorem round (enduring : Enduring vouches) (vouched : machine.Vouched vouches) (attached : Bool)
    (clock : Nat → Readings) {close : R → Effect (W × List N) ρ} (adds : ∀ result, (close result).Adds) :
    (machine.round attached clock close).Vouched vouches ∧
      machine.world.2 ⊆ (machine.round attached clock close).world.2 := by
  cases queue : machine.ready with
  | cons strand ready =>
      have runs := vouched.turn enduring clock queue
      obtain ⟨later, more⟩ := runs.machine.placed enduring attached adds strand.owner runs.halt
      rw [round_ready attached clock close queue]
      exact ⟨later, List.Subset.trans runs.adds more⟩
  | nil =>
      simp only [Machine.round, queue]
      cases back : machine.held with
      | some strand =>
          exact ⟨vouched.rearrange (strands_release queue back).subset rfl rfl, List.Subset.refl _⟩
      | none =>
          cases jumped : machine.jump attached with
          | none => exact ⟨vouched, List.Subset.refl _⟩
          | some after =>
              obtain ⟨moved, mailboxes⟩ := jump_strands jumped
              refine ⟨vouched.rearrange moved.subset mailboxes (jump_world jumped), ?_⟩
              rw [Option.getD_some, jump_world jumped]
              exact List.Subset.refl _

theorem start {world : W × List N} {program : Program (W × List N) R}
    (own : program.Vouched vouches world.2) : (start world program).Vouched vouches where
  reports := by
    rintro mailbox ⟨⟩
  strands strand member := by
    cases List.mem_singleton.mp member
    exact own

end Vouched
end Machine

def Verdict.Vouched (vouches : List N → R → Prop) (ends : Attempt R → Prop) (close : R → Effect W ρ)
    (notes : List N) : Verdict ρ → Prop
  | .settled result =>
    ∃ outcome time world, vouches notes outcome ∧ ends (.ok outcome) ∧ (close outcome time world).1 = result
  | .broken _ => True

theorem Verdict.Vouched.mono {vouches : List N → R → Prop} (enduring : Enduring vouches)
    {ends : Attempt R → Prop} {close : R → Effect W ρ} {notes more : List N} (adds : notes ⊆ more)
    {verdict : Verdict ρ}
    (vouched : verdict.Vouched vouches ends close notes) : verdict.Vouched vouches ends close more := by
  cases verdict with
  | settled result =>
      obtain ⟨outcome, time, world, good, holds, closes⟩ := vouched
      exact ⟨outcome, time, world, enduring _ _ _ adds good, holds, closes⟩
  | broken panic => trivial

namespace Machine
variable {vouches : List N → R → Prop} {worlds : W × List N → W → Prop} {whole : Protocol R}
  {ends : Attempt R → Prop} {count : Nat} {machine : Machine (W × List N) R} {other : Machine W R}
  {close : R → Effect (W × List N) ρ} {otherClose : R → Effect W ρ}

theorem closed_vouched (enduring : Enduring vouches) (vouched : machine.Vouched vouches)
    (follows : machine.Follows none worlds whole ends (count + 2) other) (attached : Bool)
    {clock : Nat → Readings} (adds : ∀ result, (close result).Adds) {wait : Wait W R}
    {ready : List (Strand W R)} (queue : other.ready = ⟨.main, wait⟩ :: ready) {verdict : Verdict ρ}
    {after : Machine W R} (closes : closed otherClose (resume clock wait { other with ready }).1
      (resume clock wait { other with ready }).2 = some (verdict, after)) :
    verdict.Vouched vouches ends otherClose (machine.round attached clock close).world.2 := by
  cases own : machine.ready with
  | nil =>
      have first := follows.ready
      rw [own, queue] at first
      cases first
  | cons strand others =>
      obtain ⟨owner, waiting⟩ := strand
      obtain ⟨_, _, halted, otherQueue, ⟨_, _, _, halts⟩, which⟩ := follows.turn clock own
      rw [queue] at otherQueue
      cases otherQueue
      rcases which with rfl | ⟨interval, impossible, _⟩
      · have runs := vouched.turn enduring clock own
        have later := (runs.machine.placed enduring attached adds .main runs.halt).2
        rw [round_ready attached clock close own]
        have known := runs.halt
        generalize (resume clock waiting { machine with ready := others }).1 = halt at halts known later ⊢
        generalize resume clock wait { other with ready } = resumed at halts closes
        obtain ⟨otherHalt, next⟩ := resumed
        simp only at halts closes
        cases halts with
        | @settled own result keeps holds =>
            cases keeps
            cases closes
            exact ⟨result, _, _, enduring _ _ _ later known, holds, rfl⟩
        | broken keeps holds =>
            cases closes
            trivial
        | parked strand later => cases closes
        | gone impatient => cases closes
        | exhausted impatient => cases closes
      · cases impossible

theorem run_vouched (enduring : Enduring vouches) (attached : Bool) (clock : Nat → Readings)
    (alike : ∀ result, (close result).Alike worlds (otherClose result)) (adds : ∀ result, (close result).Adds)
    (allowance : Nat) : ∀ {known : Option (Verdict ρ)} {whole : Protocol R} {machine : Machine (W × List N) R}
      {other : Machine W R}, machine.Vouched vouches →
      machine.Follows none worlds whole ends (2 * allowance) other →
      (∀ verdict, known = some verdict → verdict.Vouched vouches ends otherClose machine.world.2) →
        ∀ {verdict after}, run attached clock otherClose allowance known other = some (verdict, after) →
          ∃ rounds, verdict.Vouched vouches ends otherClose
            ((Machine.round attached clock close)^[rounds] machine).world.2 := by
  induction allowance with
  | zero =>
      intro known whole machine other _ _ _ verdict after finished
      cases finished
  | succ allowance ih =>
      intro known whole machine other vouched follows good verdict after finished
      have twoMore : machine.Follows none worlds whole ends (2 * allowance + 2) other := follows
      obtain ⟨later, more⟩ := vouched.round enduring attached clock adds
      obtain ⟨wide, next, _, together, which⟩ := twoMore.round attached clock alike
      obtain rfl : next = other.round attached clock otherClose := by
        rcases which with ⟨same, _⟩ | ⟨interval, impossible, _⟩
        · exact same
        · cases impossible
      have goesOn {found : Option (Verdict ρ)} (stands : ∀ verdict, found = some verdict →
            verdict.Vouched vouches ends otherClose (machine.round attached clock close).world.2)
          (onward : run attached clock otherClose allowance found (other.round attached clock otherClose) =
            some (verdict, after)) :
          ∃ rounds, verdict.Vouched vouches ends otherClose
            ((Machine.round attached clock close)^[rounds] machine).world.2 := by
        obtain ⟨rounds, holds⟩ := ih later together stands onward
        exact ⟨rounds + 1, holds⟩
      have onward := runsOn attached clock otherClose allowance known other
      rw [finished] at onward
      generalize same : some (verdict, after) = result at onward
      cases onward with
      | round _ => exact goesOn (fun verdict known => (good verdict known).mono enduring more) same.symm
      | closed queue closes =>
          have holds := closed_vouched enduring vouched twoMore attached adds queue closes
          split at same
          · cases same
            exact ⟨1, holds⟩
          · refine goesOn ?_ same.symm
            rintro _ ⟨⟩
            exact holds
      | exhausted _ _ => cases same
      | decided =>
          cases same
          exact ⟨0, good _ rfl⟩
      | nobody _ => cases same

end Machine
end FlowGraph
