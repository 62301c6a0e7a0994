import FlowGraph.Proofs.Program.Abandons
import FlowGraph.Proofs.Program.Solo

/-!
Which branches a fork leaves behind. A strand only listens on channels that it has opened itself, so every channel
that is listened on belongs to the family of the strand that listens. Once nobody listens on a channel, nobody ever
does again, and its branches with all that descend from them do as abandoned branches do.
-/

namespace FlowGraph
variable {W R ρ : Type}

def Owner.channel? : Owner → Option Nat
  | .main => none
  | .branch channel _ => some channel

def Wait.channel? : Wait W R → Option Nat
  | .resting _ => none
  | .listening channel _ => some channel

def Strand.listensOn (channel : Nat) (strand : Strand W R) : Bool := strand.wait.channel? == some channel

/-- The channel is one of the roots, or a strand of a channel that descends from one of them has opened it. -/
def descends (opener : Nat → Option Nat) (roots : Nat → Bool) (channel : Nat) : Bool :=
  roots channel ||
    match opener channel with
    | none => false
    | some elder => if elder < channel then descends opener roots elder else false
termination_by channel

theorem descends_of_root {opener : Nat → Option Nat} {roots : Nat → Bool} {channel : Nat}
    (root : roots channel = true) : descends opener roots channel = true := by
  rw [descends, root, Bool.true_or]

theorem Strand.isLost_eq (lost : Nat → Bool) (strand : Strand W R) :
    strand.isLost lost = strand.owner.channel?.elim false lost := by
  obtain ⟨owner, wait⟩ := strand
  cases owner <;> rfl

namespace Machine

/-- A strand has run. The channels opened meanwhile are new, the branches on them have not begun yet, and if it
listens now, then on one of these channels or on the one of its own. -/
structure Spawned (own : Option Nat) (before : Machine W R) (halt : Halt W R) (after : Machine W R) : Prop where
  grows : before.mailboxes.length ≤ after.mailboxes.length
  adds : ∃ added, after.strands.Perm (added ++ before.strands) ∧ ∀ strand ∈ added, strand.wait.channel? = none ∧
    ∃ channel, strand.owner.channel? = some channel ∧ before.mailboxes.length ≤ channel ∧
      channel < after.mailboxes.length
  listens : ∀ wait deadline channel, halt = .parked wait deadline → wait.channel? = some channel →
    own = some channel ∨ before.mailboxes.length ≤ channel ∧ channel < after.mailboxes.length

/-- The channels are open that the strands have to do with. Those that are listened on belong to the family of
the one strand that listens there, which is older than they are. -/
structure Kin (opener : Nat → Option Nat) (machine : Machine W R) : Prop where
  owners : ∀ strand ∈ machine.strands, ∀ channel, strand.owner.channel? = some channel →
    channel < machine.mailboxes.length
  listens : ∀ strand ∈ machine.strands, ∀ channel, strand.wait.channel? = some channel →
    channel < machine.mailboxes.length ∧ opener channel = strand.owner.channel?
  elders : ∀ channel elder, opener channel = some elder → elder < channel
  alone : ∀ channel, machine.strands.countP (Strand.listensOn channel) ≤ 1

/-- The channel has been opened, and nobody listens there any more. -/
structure Left (channel : Nat) (machine : Machine W R) : Prop where
  opened : channel < machine.mailboxes.length
  nobody : ∀ strand ∈ machine.strands, strand.wait.channel? ≠ some channel

/-- Who has opened a channel, once the strand has run whose turn it is. -/
def openerAfter (opener : Nat → Option Nat) (machine : Machine W R) (channel : Nat) : Option Nat :=
  if channel < machine.mailboxes.length then opener channel
  else machine.ready.head?.bind fun strand => strand.owner.channel?

namespace Spawned
variable {own later : Option Nat} {before middle after : Machine W R} {halt : Halt W R}

theorem here (waits : ∀ wait deadline, halt = .parked wait deadline → ∀ channel, wait.channel? = some channel →
    own = some channel) : Spawned own before halt before :=
  ⟨Nat.le_refl _, ⟨[], List.Perm.refl _, by rintro _ ⟨⟩⟩,
    fun wait deadline channel halts listens => .inl (waits wait deadline halts channel listens)⟩

theorem behind (spawned : Spawned later middle halt after)
    (known : ∀ channel, later = some channel → own = some channel)
    (strands : middle.strands = before.strands) (mailboxes : middle.mailboxes.length = before.mailboxes.length) :
    Spawned own before halt after := by
  obtain ⟨grows, ⟨added, moved, branches⟩, listens⟩ := spawned
  rw [strands] at moved
  rw [mailboxes] at grows branches listens
  exact ⟨grows, ⟨added, moved, branches⟩, fun wait deadline channel halts waits =>
    (listens wait deadline channel halts waits).imp_left (known channel)⟩

theorem launching {names : List NodeId} {branch : Nat → NodeId → Program W R}
    (spawned : Spawned (some before.mailboxes.length) (before.launched names branch) halt after) :
    Spawned own before halt after := by
  obtain ⟨grows, ⟨added, moved, branches⟩, listens⟩ := spawned
  have opened : (before.launched names branch).mailboxes.length = before.mailboxes.length + 1 := by
    rw [Machine.launched, List.length_append, List.length_singleton]
  rw [opened] at grows branches listens
  refine ⟨by omega, ⟨added ++ branchStrands before.mailboxes.length branch 0 names, ?_, ?_⟩, ?_⟩
  · refine moved.trans ?_
    rw [List.append_assoc]
    refine List.Perm.append_left added ?_
    simp only [Machine.strands, Machine.launched, List.append_assoc]
    exact List.perm_append_comm_assoc _ _ _
  · intro strand member
    rcases List.mem_append.mp member with behind | first
    · obtain ⟨rests, channel, owned, new, known⟩ := branches strand behind
      exact ⟨rests, channel, owned, by omega, known⟩
    · obtain ⟨place, name, _, rfl⟩ := eq_of_mem_branchStrands names 0 strand first
      exact ⟨rfl, _, rfl, Nat.le_refl _, by omega⟩
  · intro wait deadline channel halts waits
    rcases listens wait deadline channel halts waits with same | ⟨new, known⟩
    · cases same
      exact .inr ⟨Nat.le_refl _, by omega⟩
    · exact .inr ⟨by omega, known⟩

end Spawned

theorem advance_spawned (clock : Nat → Readings) (program : Program W R) :
    ∀ {own : Option (Nat × Nat)} (machine : Machine W R), Program.Twins Eq own program program →
      Spawned (own.map Prod.fst) machine (advance clock program machine).1 (advance clock program machine).2 := by
  induction program with
  | done result => exact fun machine _ => .here (by rintro _ _ ⟨⟩)
  | call effect next ih =>
      intro own machine twins
      cases twins with
      | call _ rest =>
          exact (ih _ { machine with world := (effect machine.time machine.world).2 } (rest _ ⟨_, _, rfl⟩)).behind
            (fun _ same => same) rfl rfl
  | clock next ih =>
      intro own machine twins
      cases twins with
      | clock rest =>
          exact (ih _ { machine with asked := machine.asked + 1 } (rest _)).behind (fun _ same => same) rfl rfl
  | sleep millis next ih =>
      intro own machine twins
      cases twins with
      | sleep rest =>
          simp only [advance]
          split
          · exact (ih () machine rest).behind (by rintro _ ⟨⟩) rfl rfl
          · refine .here ?_
            rintro wait deadline ⟨⟩ channel ⟨⟩
  | launch names branch next _ ih =>
      intro own machine twins
      cases twins with
      | launch _ rest => exact (ih _ (machine.launched names branch) (rest _ _)).launching
  | receive channel interval next ih =>
      intro own machine twins
      cases twins with
      | receive rest =>
          simp only [advance]
          split
          · rename_i delivery middle taken
            refine (ih _ middle (rest delivery)).behind (fun _ same => same) ?_ (mailboxes_take channel taken)
            rcases take?_cases taken with ⟨_, rfl⟩ | ⟨_, _, _, _, _, _, rfl⟩ <;> rfl
          · refine .here ?_
            rintro wait deadline ⟨⟩ other ⟨⟩
            rfl
  | broken panic => exact fun machine _ => .here (by rintro _ _ ⟨⟩)
  | never => exact fun machine _ => .here (by rintro _ _ ⟨⟩)
  | exhausted => exact fun machine _ => .here (by rintro _ _ ⟨⟩)

theorem resume_spawned (clock : Nat → Readings) {wait : Wait W R} (anonymous : wait.Anonymous)
    (machine : Machine W R) :
    Spawned wait.channel? machine (resume clock wait machine).1 (resume clock wait machine).2 := by
  cases anonymous with
  | resting rest => exact advance_spawned clock _ machine rest
  | @listening channel _ next _ _ rest =>
      simp only [resume]
      split
      · rename_i delivery middle taken
        refine (advance_spawned clock _ middle (rest delivery)).behind (fun _ same => same) ?_
          (mailboxes_take channel taken)
        rcases take?_cases taken with ⟨_, rfl⟩ | ⟨_, _, _, _, _, _, rfl⟩ <;> rfl
      · exact advance_spawned clock _ machine (rest .quiet)

variable {attached : Bool} {clock : Nat → Readings} {close : R → Effect W ρ} {opener : Nat → Option Nat}
  {machine : Machine W R} {strand : Strand W R} {ready : List (Strand W R)}

theorem listensOn_iff {channel : Nat} {strand : Strand W R} :
    strand.listensOn channel = true ↔ strand.wait.channel? = some channel := by
  rw [Strand.listensOn, beq_iff_eq]

theorem openerAfter_of_old {channel : Nat} (known : channel < machine.mailboxes.length) :
    machine.openerAfter opener channel = opener channel := by
  rw [openerAfter, if_pos known]

theorem openerAfter_of_new {channel : Nat} (queue : machine.ready = strand :: ready)
    (new : machine.mailboxes.length ≤ channel) : machine.openerAfter opener channel = strand.owner.channel? := by
  rw [openerAfter, if_neg (Nat.not_lt.mpr new), queue]
  rfl

theorem mem_left {owner : Owner} {halt : Halt W R} (member : strand ∈ halt.left owner) :
    strand.owner = owner ∧ ∃ deadline, halt = .parked strand.wait deadline := by
  cases halt with
  | parked wait deadline =>
      cases List.mem_singleton.mp member
      exact ⟨rfl, deadline, rfl⟩
  | settled result => cases member
  | broken panic => cases member
  | gone => cases member
  | exhausted => cases member

theorem length_left_le (owner : Owner) (halt : Halt W R) : (halt.left owner).length ≤ 1 := by
  cases halt <;> simp [Halt.left]

theorem countP_eq_zero_of_rests {list : List (Strand W R)} (rest : ∀ strand ∈ list, strand.wait.channel? = none)
    (channel : Nat) : list.countP (Strand.listensOn channel) = 0 := by
  refine List.countP_eq_zero.mpr fun strand member listens => ?_
  rw [listensOn_iff, rest strand member] at listens
  cases listens

theorem mailboxes_turn (queue : machine.ready = strand :: ready) :
    (machine.round attached clock close).mailboxes.length =
      (resume clock strand.wait { machine with ready }).2.mailboxes.length := by
  rw [round_ready attached clock close queue, mailboxes_placed]

section
variable (one : machine.OneMain) (queue : machine.ready = strand :: ready) (anonymous : strand.wait.Anonymous)
include one queue anonymous

theorem OneMain.strands_turn (attached : Bool) (clock : Nat → Readings) (close : R → Effect W ρ) :
    ∃ added, (machine.round attached clock close).strands.Perm
        ((resume clock strand.wait { machine with ready }).1.left strand.owner ++
          (added ++ strands { machine with ready })) ∧
      ∀ other ∈ added, other.wait.channel? = none ∧ ∃ channel, other.owner.channel? = some channel ∧
        machine.mailboxes.length ≤ channel ∧ channel < (machine.round attached clock close).mailboxes.length := by
  obtain ⟨_, ⟨added, moved, branches⟩, _⟩ := resume_spawned clock anonymous { machine with ready }
  rw [mailboxes_turn queue]
  exact ⟨added, (one.turn queue attached clock close).1.trans (moved.append_left _), branches⟩

theorem OneMain.listens_turn {other : Strand W R} (member : other ∈ (machine.round attached clock close).strands)
    {channel : Nat} (listens : other.wait.channel? = some channel) :
    (other ∈ strands { machine with ready }) ∨
      other ∈ (resume clock strand.wait { machine with ready }).1.left strand.owner ∧
        (strand.wait.channel? = some channel ∨ machine.mailboxes.length ≤ channel ∧
          channel < (machine.round attached clock close).mailboxes.length) := by
  obtain ⟨added, moved, branches⟩ := one.strands_turn queue anonymous attached clock close
  rcases List.mem_append.mp (moved.mem_iff.mp member) with left | rest
  · obtain ⟨_, deadline, halts⟩ := mem_left left
    rw [mailboxes_turn queue]
    exact .inr ⟨left, (resume_spawned clock anonymous _).listens _ deadline channel halts listens⟩
  · rcases List.mem_append.mp rest with new | old
    · rw [(branches other new).1] at listens
      cases listens
    · exact .inl old

theorem OneMain.countP_turn_le {channel : Nat} (known : channel < machine.mailboxes.length) :
    (machine.round attached clock close).strands.countP (Strand.listensOn channel) ≤
      machine.strands.countP (Strand.listensOn channel) := by
  obtain ⟨added, moved, branches⟩ := one.strands_turn queue anonymous attached clock close
  have still : ((resume clock strand.wait { machine with ready }).1.left strand.owner).countP
      (Strand.listensOn channel) ≤ if strand.listensOn channel then 1 else 0 := by
    split
    · exact Nat.le_trans List.countP_le_length (length_left_le _ _)
    · rename_i deaf
      refine Nat.le_of_eq (List.countP_eq_zero.mpr fun other left listens => ?_)
      obtain ⟨_, deadline, halts⟩ := mem_left left
      rcases (resume_spawned clock anonymous _).listens _ deadline channel halts (listensOn_iff.mp listens) with
        same | ⟨new, _⟩
      · exact deaf (listensOn_iff.mpr same)
      · exact Nat.not_lt.mpr new known
  rw [moved.countP_eq, strands_ready queue, List.countP_append, List.countP_append, List.countP_cons,
    countP_eq_zero_of_rests (fun other member => (branches other member).1) channel]
  omega

end

namespace Kin

theorem idle (kin : machine.Kin opener) (empty : machine.ready = []) :
    (machine.round attached clock close).Kin (machine.openerAfter opener) := by
  obtain ⟨_, mailboxes, moved⟩ := round_idle attached clock close empty
  constructor
  · intro strand member
    rw [mailboxes]
    exact kin.owners strand (moved.mem_iff.mp member)
  · intro strand member channel listens
    obtain ⟨known, belongs⟩ := kin.listens strand (moved.mem_iff.mp member) channel listens
    rw [mailboxes, openerAfter_of_old known]
    exact ⟨known, belongs⟩
  · intro channel elder opens
    unfold openerAfter at opens
    split at opens
    · exact kin.elders channel elder opens
    · rw [empty] at opens
      cases opens
  · intro channel
    rw [moved.countP_eq]
    exact kin.alone channel

theorem turn (kin : machine.Kin opener) (one : machine.OneMain) (queue : machine.ready = strand :: ready)
    (anonymous : strand.wait.Anonymous) :
    (machine.round attached clock close).Kin (machine.openerAfter opener) := by
  have grows := mailboxes_round attached clock close machine
  have all := strands_ready queue
  have head : strand ∈ machine.strands := all ▸ List.mem_cons_self
  have others : strands { machine with ready } ⊆ machine.strands := all ▸ List.subset_cons_self _ _
  obtain ⟨added, moved, branches⟩ := one.strands_turn queue anonymous attached clock close
  constructor
  · intro other member channel owned
    rcases List.mem_append.mp (moved.mem_iff.mp member) with left | rest
    · exact Nat.lt_of_lt_of_le (kin.owners strand head channel ((mem_left left).1 ▸ owned)) grows
    · rcases List.mem_append.mp rest with new | old
      · obtain ⟨_, own, same, _, known⟩ := branches other new
        rw [same] at owned
        cases owned
        exact known
      · exact Nat.lt_of_lt_of_le (kin.owners other (others old) channel owned) grows
  · intro other member channel listens
    rcases one.listens_turn queue anonymous member listens with old | ⟨left, same | ⟨new, known⟩⟩
    · obtain ⟨known, belongs⟩ := kin.listens other (others old) channel listens
      exact ⟨Nat.lt_of_lt_of_le known grows, (openerAfter_of_old known).trans belongs⟩
    · obtain ⟨known, belongs⟩ := kin.listens strand head channel same
      rw [(mem_left left).1]
      exact ⟨Nat.lt_of_lt_of_le known grows, (openerAfter_of_old known).trans belongs⟩
    · rw [(mem_left left).1]
      exact ⟨known, openerAfter_of_new queue new⟩
  · intro channel elder opens
    by_cases known : channel < machine.mailboxes.length
    · exact kin.elders channel elder ((openerAfter_of_old known).symm.trans opens)
    · have new := Nat.le_of_not_lt known
      exact Nat.lt_of_lt_of_le (kin.owners strand head elder ((openerAfter_of_new queue new).symm.trans opens)) new
  · intro channel
    by_cases known : channel < machine.mailboxes.length
    · exact Nat.le_trans (one.countP_turn_le queue anonymous known) (kin.alone channel)
    · have deaf : (strands { machine with ready }).countP (Strand.listensOn channel) = 0 := by
        refine List.countP_eq_zero.mpr fun other old listens => known ?_
        exact (kin.listens other (others old) channel (listensOn_iff.mp listens)).1
      rw [moved.countP_eq, List.countP_append, List.countP_append, deaf,
        countP_eq_zero_of_rests (fun other member => (branches other member).1) channel]
      exact Nat.le_trans List.countP_le_length (length_left_le _ _)

theorem round (kin : machine.Kin opener) (one : machine.OneMain)
    (anonymous : ∀ strand ∈ machine.strands, strand.wait.Anonymous) :
    (machine.round attached clock close).Kin (machine.openerAfter opener) := by
  cases queue : machine.ready with
  | nil => exact kin.idle queue
  | cons strand ready =>
      refine kin.turn one queue (anonymous strand ?_)
      rw [strands_ready queue]
      exact List.mem_cons_self

theorem start (world : W) (program : Program W R) : (Machine.start world program).Kin fun _ => none where
  owners strand member := by
    cases List.mem_singleton.mp member
    rintro _ ⟨⟩
  listens strand member := by
    cases List.mem_singleton.mp member
    rintro _ ⟨⟩
  elders := by rintro _ _ ⟨⟩
  alone _ := Nat.zero_le 1

theorem opened (kin : machine.Kin opener) (member : strand ∈ machine.strands) :
    strand.Opened machine.mailboxes.length where
  owner channel name owned := kin.owners strand member channel (by rw [owned]; rfl)
  listens channel next waits := (kin.listens strand member channel (by rw [waits]; rfl)).1

/-- Whoever listens on a channel that is not left is lost just if the channel is. -/
theorem abandons {same : W → W → Prop} (kin : machine.Kin opener) {roots : Nat → Bool}
    (left : ∀ channel, roots channel = true → machine.Left channel)
    (hidden : ∀ strand ∈ machine.strands, strand.isLost (descends opener roots) = true →
      strand.wait.Calls (Effect.Hidden same))
    (respects : ∀ strand ∈ machine.strands, strand.isLost (descends opener roots) = false →
      strand.wait.Calls (Effect.Respects same)) :
    machine.Abandons same (descends opener roots) where
  listens strand member channel next waits := by
    have listens : strand.wait.channel? = some channel := by rw [waits]; rfl
    have apart : roots channel = false := by
      cases root : roots channel with
      | false => rfl
      | true => exact absurd listens ((left channel root).nobody strand member)
    obtain ⟨_, belongs⟩ := kin.listens strand member channel listens
    rw [Strand.isLost_eq, descends, apart, Bool.false_or, ← belongs]
    cases opens : opener channel with
    | none => rfl
    | some elder => exact if_pos (kin.elders channel elder opens)
  hidden := hidden
  respects := respects

end Kin

namespace Left

/-- Nobody listens again on a channel that has been left. -/
theorem round {channel : Nat} (left : machine.Left channel) (one : machine.OneMain)
    (anonymous : ∀ strand ∈ machine.strands, strand.wait.Anonymous) :
    (machine.round attached clock close).Left channel := by
  refine ⟨Nat.lt_of_lt_of_le left.opened (mailboxes_round attached clock close machine), ?_⟩
  intro other member listens
  cases queue : machine.ready with
  | nil =>
      exact left.nobody other ((round_idle attached clock close queue).2.2.mem_iff.mp member) listens
  | cons strand ready =>
      have all := strands_ready queue
      rcases one.listens_turn queue (anonymous strand (all ▸ List.mem_cons_self)) member listens with
        old | ⟨_, same | ⟨new, _⟩⟩
      · exact left.nobody other (all ▸ List.mem_cons_of_mem _ old) listens
      · exact left.nobody strand (all ▸ List.mem_cons_self) same
      · exact Nat.not_lt.mpr new left.opened

theorem of_turn {channel : Nat} (kin : machine.Kin opener) (one : machine.OneMain)
    (queue : machine.ready = strand :: ready) (anonymous : strand.wait.Anonymous)
    (listened : strand.wait.channel? = some channel)
    (goesOn : ∀ wait deadline, (resume clock strand.wait { machine with ready }).1 = .parked wait deadline →
      wait.channel? ≠ some channel) :
    (machine.round attached clock close).Left channel := by
  have all := strands_ready queue
  have known := (kin.listens strand (all ▸ List.mem_cons_self) channel listened).1
  refine ⟨Nat.lt_of_lt_of_le known (mailboxes_round attached clock close machine), ?_⟩
  intro other member listens
  rcases one.listens_turn queue anonymous member listens with old | ⟨left, _⟩
  · have second : 0 < (strands { machine with ready }).countP (Strand.listensOn channel) :=
      List.countP_pos_iff.mpr ⟨other, old, listensOn_iff.mpr listens⟩
    have alone := kin.alone channel
    rw [all, List.countP_cons_of_pos (listensOn_iff.mpr listened)] at alone
    omega
  · obtain ⟨_, deadline, halts⟩ := mem_left left
    exact goesOn _ deadline halts listens

theorem of_report {channel : Nat} {owner : Owner} {next : Delivery R → Program W R} {delivery : Delivery R}
    {middle : Machine W R} (kin : machine.Kin opener) (one : machine.OneMain)
    (queue : machine.ready = ⟨owner, .listening channel next⟩ :: ready)
    (anonymous : (Wait.listening channel next).Anonymous)
    (taken : take? { machine with ready } channel = some (delivery, middle))
    (goesOn : Program.Twins Eq none (next delivery) (next delivery)) :
    (machine.round attached clock close).Left channel := by
  refine of_turn kin one queue anonymous rfl fun wait deadline halts listens => ?_
  simp only [resume, taken] at halts
  have known := (kin.listens _ (strands_ready queue ▸ List.mem_cons_self) channel rfl).1
  rcases (advance_spawned clock _ middle goesOn).listens wait deadline channel halts listens with own | ⟨new, _⟩
  · cases own
  · rw [mailboxes_take channel taken] at new
    exact Nat.not_lt.mpr new known

end Left

end Machine
end FlowGraph
