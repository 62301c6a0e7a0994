import FlowGraph.Proofs.Program.Vouched

/-!
What a program that runs alone writes down. As long as no branch is launched, the record beside the world is what
the main program has made of it, and a condition on the record at each stage of the program holds of its runs.
-/

namespace FlowGraph
variable {W N R α ρ : Type}

/-- The record is right at each stage of the program, where it waits or goes on forever and where it ends. If it
launches branches, the record says so. -/
def Program.Writes (right : List N → Option R → Prop) (escapes : List N → Prop) :
    Program (W × List N) R → List N → Prop
  | .done result, notes => right notes (some result)
  | .call effect next, notes => ∀ time world,
      (next (effect time (world, notes)).1).Writes right escapes (effect time (world, notes)).2.2
  | .clock next, notes => ∀ readings, (next readings).Writes right escapes notes
  | .sleep _ next, notes => right notes none ∧ (next ()).Writes right escapes notes
  | .launch .., notes => escapes notes
  | .receive .., _ => False
  | .broken _, notes => right notes none
  | .never, notes => right notes none
  | .exhausted, notes => right notes none

namespace Program.Writes
variable {right : List N → Option R → Prop} {escapes : List N → Prop} {notes : List N}
  {program : Program (W × List N) R}

theorem bind {next : R → Program (W × List N) R} (writes : program.Writes (fun notes stage =>
      match stage with
      | none => right notes none
      | some result => (next result).Writes right escapes notes) escapes notes) :
    (program.bind next).Writes right escapes notes := by
  induction program generalizing notes with
  | done result => exact writes
  | call effect rest ih => exact fun time world => ih _ (writes time world)
  | clock rest ih => exact fun readings => ih readings (writes readings)
  | sleep millis rest ih => exact ⟨writes.1, ih () writes.2⟩
  | launch names branch rest _ _ => exact writes
  | receive channel interval rest _ => exact writes
  | broken panic => exact writes
  | never => exact writes
  | exhausted => exact writes

theorem mono {other : List N → Option R → Prop} (writes : program.Writes right escapes notes)
    (weaker : ∀ notes stage, right notes stage → other notes stage) : program.Writes other escapes notes := by
  induction program generalizing notes with
  | done result => exact weaker _ _ writes
  | call effect rest ih => exact fun time world => ih _ (writes time world)
  | clock rest ih => exact fun readings => ih readings (writes readings)
  | sleep millis rest ih => exact ⟨weaker _ _ writes.1, ih () writes.2⟩
  | launch names branch rest _ _ => exact writes
  | receive channel interval rest _ => exact writes
  | broken panic => exact weaker _ _ writes
  | never => exact weaker _ _ writes
  | exhausted => exact weaker _ _ writes

theorem time {next : Nat → Program (W × List N) R} (writes : ∀ now, (next now).Writes right escapes notes) :
    (time next).Writes right escapes notes :=
  fun now _ => writes now

end Program.Writes

def Wait.Writes (right : List N → Option R → Prop) (escapes : List N → Prop) (notes : List N) :
    Wait (W × List N) R → Prop
  | .resting next => right notes none ∧ (next ()).Writes right escapes notes
  | .listening .. => False

def Halt.Writes (right : List N → Option R → Prop) (escapes : List N → Prop) (notes : List N) :
    Halt (W × List N) R → Prop
  | .settled result => right notes (some result)
  | .parked wait _ => wait.Writes right escapes notes
  | .broken _ => right notes none
  | .gone => right notes none
  | .exhausted => right notes none

namespace Machine

section
variable {machine after : Machine W R}

theorem mailboxes_take (channel : Nat) {delivery : Delivery R}
    (taken : machine.take? channel = some (delivery, after)) :
    after.mailboxes.length = machine.mailboxes.length := by
  rcases take?_cases taken with ⟨_, rfl⟩ | ⟨_, _, _, _, _, _, rfl⟩
  · rfl
  · exact List.length_set

theorem mailboxes_advance (clock : Nat → Readings) (program : Program W R) : ∀ machine : Machine W R,
    machine.mailboxes.length ≤ (advance clock program machine).2.mailboxes.length := by
  induction program with
  | done result => exact fun _ => Nat.le_refl _
  | call effect next ih =>
      exact fun machine => ih _ { machine with world := (effect machine.time machine.world).2 }
  | clock next ih => exact fun machine => ih _ { machine with asked := machine.asked + 1 }
  | sleep millis next ih =>
      intro machine
      simp only [advance]
      split
      · exact ih () machine
      · exact Nat.le_refl _
  | launch names branch next _ ih =>
      intro machine
      refine Nat.le_trans ?_ (ih machine.mailboxes.length (machine.launched names branch))
      rw [launched, List.length_append]
      exact Nat.le_add_right _ _
  | receive channel interval next ih =>
      intro machine
      simp only [advance]
      split
      · exact Nat.le_trans (Nat.le_of_eq (mailboxes_take channel ‹_›).symm) (ih _ _)
      · exact Nat.le_refl _
  | broken panic => exact fun _ => Nat.le_refl _
  | never => exact fun _ => Nat.le_refl _
  | exhausted => exact fun _ => Nat.le_refl _

theorem mailboxes_resume (clock : Nat → Readings) (wait : Wait W R) (machine : Machine W R) :
    machine.mailboxes.length ≤ (resume clock wait machine).2.mailboxes.length := by
  cases wait with
  | resting next => exact mailboxes_advance clock _ machine
  | listening channel next =>
      simp only [resume]
      split
      · exact Nat.le_trans (Nat.le_of_eq (mailboxes_take channel ‹_›).symm) (mailboxes_advance clock _ _)
      · exact mailboxes_advance clock _ machine

theorem mailboxes_ended (attached : Bool) (machine : Machine W R) (channel : Nat) (report : Option (NodeId × R)) :
    (machine.ended attached channel report).mailboxes.length = machine.mailboxes.length := by
  obtain ⟨_, _, same⟩ := ended_strands attached machine channel report
  rw [same, List.length_set]

theorem mailboxes_placed (attached : Bool) (close : R → Effect W ρ) (owner : Owner) (halt : Halt W R)
    (machine : Machine W R) :
    (machine.placed attached close owner halt).mailboxes.length = machine.mailboxes.length := by
  cases halt with
  | parked wait deadline => rfl
  | settled result =>
      cases owner with
      | main => rfl
      | branch channel name => exact mailboxes_ended _ _ _ _
  | broken panic =>
      cases owner with
      | main => rfl
      | branch channel name => exact mailboxes_ended _ _ _ _
  | gone => rfl
  | exhausted => rfl

theorem round_idle (attached : Bool) (clock : Nat → Readings) (close : R → Effect W ρ) {machine : Machine W R}
    (idle : machine.ready = []) : (machine.round attached clock close).world = machine.world ∧
      (machine.round attached clock close).mailboxes = machine.mailboxes ∧
      (machine.round attached clock close).strands.Perm machine.strands := by
  simp only [round, idle]
  cases back : machine.held with
  | some strand => exact ⟨rfl, rfl, strands_release idle back⟩
  | none =>
      cases jumped : machine.jump attached with
      | none => exact ⟨rfl, rfl, List.Perm.refl _⟩
      | some after =>
          obtain ⟨strands, mailboxes⟩ := jump_strands jumped
          exact ⟨jump_world jumped, mailboxes, strands⟩

theorem mailboxes_round (attached : Bool) (clock : Nat → Readings) (close : R → Effect W ρ)
    (machine : Machine W R) :
    machine.mailboxes.length ≤ (machine.round attached clock close).mailboxes.length := by
  cases queue : machine.ready with
  | nil => exact Nat.le_of_eq (congrArg List.length (round_idle attached clock close queue).2.1.symm)
  | cons strand ready =>
      rw [round_ready attached clock close queue, mailboxes_placed]
      exact mailboxes_resume clock strand.wait { machine with ready }

theorem closed_eq_placed (attached : Bool) {close : R → Effect W ρ} {halt : Halt W R} {verdict : Verdict ρ}
    (closes : closed close halt machine = some (verdict, after)) :
    after = machine.placed attached close .main halt := by
  cases halt with
  | settled result =>
      cases closes
      rfl
  | broken panic =>
      cases closes
      rfl
  | parked wait deadline => cases closes
  | gone => cases closes
  | exhausted => cases closes

theorem closed_strands {close : R → Effect W ρ} {halt : Halt W R} {verdict : Verdict ρ}
    (closes : closed close halt machine = some (verdict, after)) : after.strands = machine.strands := by
  rw [closed_eq_placed false closes]
  cases halt with
  | settled result => rfl
  | broken panic => rfl
  | parked wait deadline => cases closes
  | gone => cases closes
  | exhausted => cases closes

end

variable {right : List N → Option R → Prop} {escapes : List N → Prop} {machine after : Machine (W × List N) R}
  {close : R → Effect (W × List N) ρ}

abbrev Grows (machine : Machine (W × List N) R) : Prop := machine.Vouched fun _ _ => True

theorem enduring_trivial : Enduring fun (_ : List N) (_ : R) => True := fun _ _ _ _ _ => trivial

/-- Branches have been launched, and the record says so. -/
structure Escaped (escapes : List N → Prop) (machine : Machine (W × List N) R) : Prop where
  launched : 0 < machine.mailboxes.length
  recorded : escapes machine.world.2

def Lasting (escapes : List N → Prop) : Prop := ∀ notes more, notes ⊆ more → escapes notes → escapes more

theorem Escaped.later (lasting : Lasting escapes) (escaped : machine.Escaped escapes)
    (mailboxes : machine.mailboxes.length ≤ after.mailboxes.length) (adds : machine.world.2 ⊆ after.world.2) :
    after.Escaped escapes :=
  ⟨Nat.lt_of_lt_of_le escaped.launched mailboxes, lasting _ _ adds escaped.recorded⟩

/-- Either the main program runs alone and its record is right, or it has ended, or branches have been launched. -/
inductive Solo (right : List N → Option R → Prop) (escapes : List N → Prop) (close : R → Effect (W × List N) ρ)
    (machine : Machine (W × List N) R) : Prop where
  | alone {wait : Wait (W × List N) R} (only : machine.strands = [⟨.main, wait⟩])
      (writes : wait.Writes right escapes machine.world.2)
  | closed {outcome : R} {time : Nat} {world : W × List N} (nobody : machine.strands = [])
      (ends : right world.2 (some outcome)) (closes : machine.world = (close outcome time world).2)
  | stuck (nobody : machine.strands = []) (waits : right machine.world.2 none)
  | escaped (escaped : machine.Escaped escapes)

structure RunsAlone (right : List N → Option R → Prop) (escapes : List N → Prop)
    (before : Machine (W × List N) R) (ran : Halt (W × List N) R × Machine (W × List N) R) : Prop where
  ready : ran.2.ready = before.ready
  parked : ran.2.parked = before.parked
  held : ran.2.held = before.held
  halt : ran.1.Writes right escapes ran.2.world.2

theorem advance_alone (lasting : Lasting escapes) (clock : Nat → Readings) (program : Program (W × List N) R) :
    ∀ {machine : Machine (W × List N) R}, machine.Grows → program.Vouched (fun _ _ => True) machine.world.2 →
      program.Writes right escapes machine.world.2 →
        (advance clock program machine).2.Escaped escapes ∨
          RunsAlone right escapes machine (advance clock program machine) := by
  induction program with
  | done result => exact fun _ _ writes => .inr ⟨rfl, rfl, rfl, writes⟩
  | call effect next ih =>
      intro machine grows vouched writes
      obtain ⟨adds, onward⟩ := vouched machine.time machine.world (List.Subset.refl _)
      rcases ih _ (grows.world enduring_trivial adds) onward (writes machine.time machine.world.1) with
        escaped | ⟨ready, parked, held, halt⟩
      · exact .inl escaped
      · exact .inr ⟨ready, parked, held, halt⟩
  | clock next ih =>
      intro machine grows vouched writes
      have asked : Grows { machine with asked := machine.asked + 1 } := ⟨grows.reports, grows.strands⟩
      rcases ih (clock machine.asked) asked (vouched _) (writes _) with escaped | ⟨ready, parked, held, halt⟩
      · exact .inl escaped
      · exact .inr ⟨ready, parked, held, halt⟩
  | sleep millis next ih =>
      intro machine grows vouched writes
      simp only [advance]
      split
      · exact ih () grows vouched writes.2
      · exact .inr ⟨rfl, rfl, rfl, writes⟩
  | launch names branch next _ _ =>
      intro machine grows vouched writes
      have launched := mailboxes_advance clock (next machine.mailboxes.length) (machine.launched names branch)
      have opened : 0 < (machine.launched names branch).mailboxes.length := by
        rw [Machine.launched, List.length_append]
        exact Nat.succ_pos _
      have runs := grows.advance enduring_trivial clock (.launch names branch next) vouched
      exact .inl ⟨Nat.lt_of_lt_of_le opened launched, lasting _ _ runs.adds writes⟩
  | receive channel interval next _ => exact fun _ _ writes => writes.elim
  | broken panic => exact fun _ _ writes => .inr ⟨rfl, rfl, rfl, writes⟩
  | never => exact fun _ _ writes => .inr ⟨rfl, rfl, rfl, writes⟩
  | exhausted => exact fun _ _ writes => .inr ⟨rfl, rfl, rfl, writes⟩

namespace Solo

theorem start {world : W × List N} {program : Program (W × List N) R} (asked : Nat) (waits : right world.2 none)
    (writes : program.Writes right escapes world.2) :
    Solo right escapes close { start world program with asked } :=
  .alone rfl ⟨waits, writes⟩

theorem turn (lasting : Lasting escapes) (clock : Nat → Readings) (grows : machine.Grows)
    (solo : machine.Solo right escapes close) {strand : Strand (W × List N) R}
    {ready : List (Strand (W × List N) R)} (queue : machine.ready = strand :: ready) :
    (resume clock strand.wait { machine with ready }).2.Escaped escapes ∨
      strand.owner = .main ∧ (resume clock strand.wait { machine with ready }).2.strands = [] ∧
        (resume clock strand.wait { machine with ready }).1.Writes right escapes
          (resume clock strand.wait { machine with ready }).2.world.2 := by
  have all := strands_ready queue
  cases solo with
  | @alone wait only writes =>
      rw [only, List.cons.injEq] at all
      obtain ⟨rfl, nobody⟩ := all
      have own := grows.strands _ (by rw [only]; exact List.mem_cons_self)
      have others : Grows { machine with ready } :=
        grows.rearrange (by rw [← nobody]; exact List.nil_subset _) rfl rfl
      cases wait with
      | listening channel next => exact writes.elim
      | resting next =>
          rcases advance_alone lasting clock (next ()) others own writes.2 with
            escaped | ⟨readied, parked, held, halt⟩
          · exact .inl escaped
          · refine .inr ⟨rfl, ?_, halt⟩
            rw [strands, resume, readied, parked, held]
            exact nobody.symm
  | closed nobody ends closes =>
      rw [nobody] at all
      cases all
  | stuck nobody waits =>
      rw [nobody] at all
      cases all
  | escaped escaped =>
      refine .inl (escaped.later lasting ?_ (grows.turn enduring_trivial clock queue).adds)
      exact mailboxes_resume clock strand.wait { machine with ready }

theorem placed (attached : Bool) {halt : Halt (W × List N) R} (nobody : machine.strands = [])
    (writes : halt.Writes right escapes machine.world.2) :
    (machine.placed attached close .main halt).Solo right escapes close := by
  cases halt with
  | settled result => exact .closed nobody writes rfl
  | parked wait deadline =>
      refine .alone ?_ writes
      simp only [strands, List.append_eq_nil_iff] at nobody
      obtain ⟨⟨ready, parked⟩, held⟩ := nobody
      simp only [Machine.placed, strands, ready, List.map_append, parked, held]
      rfl
  | broken panic => exact .stuck nobody writes
  | gone => exact .stuck nobody writes
  | exhausted => exact .stuck nobody writes

theorem idle {attached : Bool} {clock : Nat → Readings} (idle : machine.ready = [])
    (solo : machine.Solo right escapes close) : (machine.round attached clock close).Solo right escapes close := by
  obtain ⟨world, mailboxes, strands⟩ := round_idle attached clock close idle
  cases solo with
  | alone only writes =>
      rw [only] at strands
      exact .alone (List.perm_singleton.mp strands) (world ▸ writes)
  | closed nobody ends closes =>
      rw [nobody] at strands
      exact .closed (List.perm_nil.mp strands) ends (world.trans closes)
  | stuck nobody waits =>
      rw [nobody] at strands
      exact .stuck (List.perm_nil.mp strands) (world ▸ waits)
  | escaped escaped => exact .escaped ⟨mailboxes ▸ escaped.launched, world ▸ escaped.recorded⟩

end Solo

theorem Escaped.placed (lasting : Lasting escapes) (attached : Bool) (adds : ∀ result, (close result).Adds)
    {ran : Halt (W × List N) R × Machine (W × List N) R} (runs : RunsOnRecord (fun _ _ => True) machine ran)
    (owner : Owner) (escaped : ran.2.Escaped escapes) : (ran.2.placed attached close owner ran.1).Escaped escapes :=
  escaped.later lasting (Nat.le_of_eq (mailboxes_placed attached close owner ran.1 ran.2).symm)
    (runs.machine.placed enduring_trivial attached adds owner runs.halt).2

theorem Solo.round (lasting : Lasting escapes) (attached : Bool) (clock : Nat → Readings)
    (adds : ∀ result, (close result).Adds) (grows : machine.Grows) (solo : machine.Solo right escapes close) :
    (machine.round attached clock close).Solo right escapes close := by
  cases queue : machine.ready with
  | nil => exact idle queue solo
  | cons strand ready =>
      have runs := grows.turn enduring_trivial clock queue
      rw [round_ready attached clock close queue]
      rcases solo.turn lasting clock grows queue with escaped | ⟨main, nobody, writes⟩
      · exact .escaped (escaped.placed lasting attached adds runs strand.owner)
      · rw [main]
        exact placed attached nobody writes

theorem Solo.rounds (lasting : Lasting escapes) (attached : Bool) (clock : Nat → Readings)
    (adds : ∀ result, (close result).Adds) (rounds : Nat) : ∀ {machine : Machine (W × List N) R},
      machine.Grows → machine.Solo right escapes close →
        ((Machine.round attached clock close)^[rounds] machine).Solo right escapes close := by
  induction rounds with
  | zero => exact fun _ solo => solo
  | succ rounds ih =>
      intro machine grows solo
      exact ih (grows.round enduring_trivial attached clock adds).1 (solo.round lasting attached clock adds grows)

end Machine

/-- The verdict is that of a program whose record was right when it ended, and nothing but closing has come
after. -/
def Verdict.Writes (right : List N → Option R → Prop) (close : R → Effect (W × List N) ρ) (world : W × List N) :
    Verdict ρ → Prop
  | .settled result =>
    ∃ outcome time before, right before.2 (some outcome) ∧ close outcome time before = (result, world)
  | .broken _ => right world.2 none

namespace Machine
variable {right : List N → Option R → Prop} {escapes : List N → Prop} {machine after : Machine (W × List N) R}
  {close : R → Effect (W × List N) ρ}

theorem closed_writes {halt : Halt (W × List N) R} {verdict : Verdict ρ}
    (writes : halt.Writes right escapes machine.world.2)
    (closes : closed close halt machine = some (verdict, after)) : verdict.Writes right close after.world := by
  cases halt with
  | settled result =>
      cases closes
      exact ⟨result, machine.time, machine.world, writes, rfl⟩
  | broken panic =>
      cases closes
      exact writes
  | parked wait deadline => cases closes
  | gone => cases closes
  | exhausted => cases closes

/-- The main program has ended with this verdict and nothing is left to do, unless there are branches. -/
def Over (right : List N → Option R → Prop) (escapes : List N → Prop) (close : R → Effect (W × List N) ρ)
    (machine : Machine (W × List N) R) (verdict : Verdict ρ) : Prop :=
  machine.Escaped escapes ∨ machine.strands = [] ∧ verdict.Writes right close machine.world

theorem Over.round (lasting : Lasting escapes) (attached : Bool) (clock : Nat → Readings)
    (adds : ∀ result, (close result).Adds) (grows : machine.Grows) {verdict : Verdict ρ}
    (holds : machine.Over right escapes close verdict) :
    (machine.round attached clock close).Over right escapes close verdict := by
  rcases holds with escaped | ⟨nobody, writes⟩
  · exact .inl (escaped.later lasting (mailboxes_round attached clock close machine)
      (grows.round enduring_trivial attached clock adds).2)
  · have idle : machine.ready = [] := by
      rw [strands, List.append_assoc, List.append_eq_nil_iff] at nobody
      exact nobody.1
    obtain ⟨world, _, strands⟩ := round_idle attached clock close idle
    rw [nobody] at strands
    exact .inr ⟨List.perm_nil.mp strands, world ▸ writes⟩

/-- If a run that is on record launches no branches, its record is right when it is over. -/
theorem run_writes (lasting : Lasting escapes) (attached : Bool) (clock : Nat → Readings)
    (adds : ∀ result, (close result).Adds) (allowance : Nat) :
    ∀ {known : Option (Verdict ρ)} {machine : Machine (W × List N) R}, machine.Grows →
      machine.Solo right escapes close →
      (∀ verdict, known = some verdict → machine.Over right escapes close verdict) →
        ∀ {verdict after}, run attached clock close allowance known machine = some (verdict, after) →
          after.Over right escapes close verdict := by
  induction allowance with
  | zero =>
      intro known machine _ _ _ verdict after finished
      cases finished
  | succ allowance ih =>
      intro known machine grows solo holds verdict after finished
      have later := (grows.round enduring_trivial attached clock adds).1
      have goesOn {found : Option (Verdict ρ)} (decided : ∀ verdict, found = some verdict →
          (machine.round attached clock close).Over right escapes close verdict) {verdict : Verdict ρ}
          {after : Machine (W × List N) R} (ends : run attached clock close allowance found
            (machine.round attached clock close) = some (verdict, after)) : after.Over right escapes close verdict :=
        ih later (solo.round lasting attached clock adds grows) decided ends
      have onward := runsOn attached clock close allowance known machine
      rw [finished] at onward
      generalize same : some (verdict, after) = result at onward
      cases onward with
      | round _ =>
          exact goesOn (fun verdict known => (holds verdict known).round lasting attached clock adds grows) same.symm
      | @closed known wait ready found last queue closes =>
          have runs := grows.turn enduring_trivial clock queue
          have ended : last.Over right escapes close found := by
            rcases solo.turn lasting clock grows queue with escaped | ⟨_, nobody, writes⟩
            · rw [closed_eq_placed attached closes]
              exact .inl (escaped.placed lasting attached adds runs .main)
            · exact .inr ⟨(closed_strands closes).trans nobody, closed_writes writes closes⟩
          have placed : last = machine.round attached clock close := by
            rw [closed_eq_placed attached closes, round_ready attached clock close queue]
          split at same
          · cases same
            exact ended
          · refine goesOn ?_ same.symm
            rintro _ ⟨⟩
            exact placed ▸ ended
      | exhausted _ _ => cases same
      | decided =>
          cases same
          exact holds _ rfl
      | nobody _ => cases same

end Machine
end FlowGraph
