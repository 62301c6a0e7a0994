import FlowGraph.Proofs.Program.Weaves

/-!
Branches that have been abandoned. Once a fork has gone on without them, nobody listens on its channel any more, and
they may do anything else instead, as long as nobody notices that either.
-/

namespace FlowGraph
variable {W R ρ : Type}

/-- The strand is that of a branch on one of the lost channels. -/
def Strand.isLost (lost : Nat → Bool) (strand : Strand W R) : Bool :=
  match strand.owner with
  | .main => false
  | .branch channel _ => lost channel

def Strand.instead (lost : Nat → Bool) (wait : Wait W R) (strand : Strand W R) : Strand W R :=
  if strand.isLost lost then { strand with wait } else strand

structure Strand.Opened (count : Nat) (strand : Strand W R) : Prop where
  owner : ∀ channel name, strand.owner = .branch channel name → channel < count
  listens : ∀ channel next, strand.wait = .listening channel next → channel < count

namespace Machine

/-- The branches on the lost channels have been abandoned. Nobody listens there any more but these branches
themselves, which listen nowhere else. They only call what is hidden from all others, to which worlds may look the
same. -/
structure Abandons (same : W → W → Prop) (lost : Nat → Bool) (machine : Machine W R) : Prop where
  listens : ∀ strand ∈ machine.strands, ∀ channel next, strand.wait = .listening channel next →
    lost channel = strand.isLost lost
  hidden : ∀ strand ∈ machine.strands, strand.isLost lost = true → strand.wait.Calls (Effect.Hidden same)
  respects : ∀ strand ∈ machine.strands, strand.isLost lost = false → strand.wait.Calls (Effect.Respects same)

/-- In the other machine the abandoned branches do something else. They may be other ones, or none, and their
channels may have other reports; but nobody notices them there either. All others are the same. -/
structure Replaces (same : W → W → Prop) (tired : Prop) (lost : Nat → Bool) (machine other : Machine W R) :
    Prop where
  world : same machine.world other.world
  time : other.time = machine.time
  opened : other.mailboxes.length = machine.mailboxes.length
  mailboxes : ∀ channel, lost channel = false → other.mailbox channel = machine.mailbox channel
  ready : other.ready.filter (fun strand => !strand.isLost lost) =
    machine.ready.filter fun strand => !strand.isLost lost
  parked : other.parked.filter (fun parked => !parked.strand.isLost lost) =
    machine.parked.filter fun parked => !parked.strand.isLost lost
  held : other.held = machine.held
  aside : ∀ strand ∈ other.strands, strand.isLost lost = true →
    strand.Aside same tired fun channel => channel < other.mailboxes.length ∧ lost channel = true

def instead (lost : Nat → Bool) (wait : Wait W R) (machine : Machine W R) : Machine W R :=
  { machine with
    ready := machine.ready.map (Strand.instead lost wait)
    parked := machine.parked.map fun parked => { parked with strand := parked.strand.instead lost wait }
    held := machine.held.map (Strand.instead lost wait) }

def kept (lost : Nat → Bool) (machine : Machine W R) (channel twin : Nat) : Prop :=
  channel = twin ∧ channel < machine.mailboxes.length ∧ lost channel = false

variable {same : W → W → Prop} {tired : Prop} {lost : Nat → Bool} {machine other : Machine W R}

theorem mem_strands_of_ready {strand : Strand W R} (member : strand ∈ machine.ready) : strand ∈ machine.strands := by
  simp [strands, member]

theorem mem_strands_of_parked {parked : Parked W R} (member : parked ∈ machine.parked) :
    parked.strand ∈ machine.strands := by
  simp only [strands, List.mem_append, List.mem_map]
  exact .inl (.inr ⟨parked, member, rfl⟩)

theorem mem_strands_of_held {strand : Strand W R} (back : machine.held = some strand) :
    strand ∈ machine.strands := by
  simp [strands, back]

theorem not_lost_of_main {strand : Strand W R} (main : isMain strand = true) : strand.isLost lost = false := by
  obtain ⟨owner, wait⟩ := strand
  cases owner with
  | main => rfl
  | branch channel name => cases main

theorem owner_of_lost {strand : Strand W R} (gone : strand.isLost lost = true) :
    ∃ channel name, strand.owner = .branch channel name ∧ lost channel = true := by
  obtain ⟨owner, wait⟩ := strand
  cases owner with
  | main => cases gone
  | branch channel name => exact ⟨channel, name, rfl, gone⟩

theorem quiet_of_lost {channel : Nat} (opened : channel < machine.mailboxes.length) (gone : lost channel = true) :
    machine.Quiet (Shared (machine.kept lost)) channel := by
  refine ⟨opened, ?_⟩
  rintro ⟨_, rfl, _, still⟩
  rw [gone] at still
  cases still

namespace Abandons
variable (abandons : machine.Abandons same lost) {strand : Strand W R} (member : strand ∈ machine.strands)
  (anonymous : strand.wait.Anonymous) (opened : strand.Opened machine.mailboxes.length)
include abandons member anonymous opened

theorem twins (still : strand.isLost lost = false) : strand.Twins same (machine.kept lost) strand := by
  constructor
  · cases owned : strand.owner with
    | main => exact .main
    | branch channel name =>
        rw [Strand.isLost, owned] at still
        exact .branch ⟨rfl, opened.owner channel name owned, still⟩
  · refine anonymous.twins (abandons.respects strand member still) fun channel next waits => ?_
    exact ⟨rfl, opened.listens channel next waits, (abandons.listens strand member channel next waits).trans still⟩

theorem aside (gone : strand.isLost lost = true) :
    strand.Aside same True (machine.Quiet (Shared (machine.kept lost))) := by
  constructor
  · obtain ⟨channel, name, owned, out⟩ := owner_of_lost gone
    exact ⟨channel, name, owned, quiet_of_lost (opened.owner channel name owned) out⟩
  · refine anonymous.aside (abandons.hidden strand member gone) fun channel next waits => ?_
    exact quiet_of_lost (opened.listens channel next waits)
      ((abandons.listens strand member channel next waits).trans gone)

end Abandons

theorem Replaces.weaves (replaces : machine.Replaces same tired lost other) (abandons : machine.Abandons same lost)
    (one : machine.OneMain) (anonymous : ∀ strand ∈ machine.strands, strand.wait.Anonymous)
    (opened : ∀ strand ∈ machine.strands, strand.Opened machine.mailboxes.length) :
    machine.Weaves same True tired (machine.kept lost) True other := by
  have twins (strand : Strand W R) (member : strand ∈ machine.strands) :=
    abandons.twins member (anonymous strand member) (opened strand member)
  have asides (strand : Strand W R) (member : strand ∈ machine.strands) :=
    abandons.aside member (anonymous strand member) (opened strand member)
  have others (strand : Strand W R) (member : strand ∈ other.strands) (gone : strand.isLost lost = true) :
      strand.Aside same tired (other.Quiet (Shared (flip (machine.kept lost)))) := by
    refine (replaces.aside strand member gone).mono fun channel open_ => ?_
    refine ⟨open_.1, ?_⟩
    rintro ⟨_, rfl, _, still⟩
    rw [open_.2] at still
    cases still
  exact {
    world := replaces.world
    time := fun _ => replaces.time
    single := by
      rintro _ _ _ _ ⟨rfl, _⟩ ⟨rfl, _⟩
      exact Iff.rfl
    opened := by
      rintro _ _ ⟨rfl, here, _⟩
      exact ⟨here, replaces.opened ▸ here⟩
    mailboxes := by
      rintro _ _ ⟨rfl, _, still⟩
      exact replaces.mailboxes _ still
    ready := by
      refine .of_filter replaces.ready (fun strand member kept => ⟨trivial, ?_⟩) (fun strand member gone => ?_)
        fun strand member gone => ?_
      · exact twins strand (mem_strands_of_ready member) (by simpa using kept)
      · exact asides strand (mem_strands_of_ready member) (by simpa using gone)
      · exact others strand (mem_strands_of_ready member) (by simpa using gone)
    parked := by
      refine .of_filter replaces.parked (fun parked member kept => ⟨?_, rfl⟩) (fun parked member gone => ?_)
        fun parked member gone => ?_
      · exact twins _ (mem_strands_of_parked member) (by simpa using kept)
      · exact asides _ (mem_strands_of_parked member) (by simpa using gone)
      · exact others _ (mem_strands_of_parked member) (by simpa using gone)
    held := by
      rw [replaces.held]
      cases back : machine.held with
      | none => exact .none
      | some strand =>
          have main := one.held strand back
          exact .some ⟨trivial, twins strand (mem_strands_of_held back) (not_lost_of_main main)⟩ }

theorem countP_kept (lost : Nat → Bool) {α : Type 1} (strand : α → Strand W R) (list : List α) :
    (list.filter fun item => !(strand item).isLost lost).countP (isMain ∘ strand) =
      list.countP (isMain ∘ strand) := by
  rw [List.countP_filter]
  refine List.countP_congr fun item _ => ?_
  simp only [Function.comp_apply, isMain, Strand.isLost]
  cases (strand item).owner <;> simp

theorem Replaces.one (replaces : machine.Replaces same tired lost other) (one : machine.OneMain) :
    other.OneMain := by
  refine ⟨?_, replaces.held ▸ one.held⟩
  have ready : other.ready.countP isMain = machine.ready.countP isMain := by
    have kept := countP_kept (W := W) (R := R) lost id
    exact (kept other.ready).symm.trans ((congrArg _ replaces.ready).trans (kept machine.ready))
  have parked : other.parked.countP (isMain ∘ Parked.strand) = machine.parked.countP (isMain ∘ Parked.strand) := by
    have kept := countP_kept (W := W) (R := R) lost Parked.strand
    exact (kept other.parked).symm.trans ((congrArg _ replaces.parked).trans (kept machine.parked))
  have all := one.mains
  simp only [strands, List.countP_append, List.countP_map] at all ⊢
  rwa [ready, parked, replaces.held]

section
variable {wait : Wait W R} {strand : Strand W R}

theorem isLost_instead : (strand.instead lost wait).isLost lost = strand.isLost lost := by
  unfold Strand.instead
  split <;> rfl

theorem instead_of_kept (still : strand.isLost lost = false) : strand.instead lost wait = strand := by
  rw [Strand.instead, still, if_neg Bool.false_ne_true]

theorem filter_instead {α : Type 1} (part : α → Strand W R) {swap : α → α}
    (swaps : ∀ item, (part (swap item)).isLost lost = (part item).isLost lost)
    (keeps : ∀ item, (part item).isLost lost = false → swap item = item) (list : List α) :
    (list.map swap).filter (fun item => !(part item).isLost lost) =
      list.filter fun item => !(part item).isLost lost := by
  induction list with
  | nil => rfl
  | cons first rest ih =>
      rw [List.map_cons, List.filter_cons, List.filter_cons, swaps, ih]
      cases gone : (part first).isLost lost with
      | true => rfl
      | false => rw [keeps first gone]

theorem strands_instead (machine : Machine W R) :
    (machine.instead lost wait).strands = machine.strands.map (Strand.instead lost wait) := by
  cases back : machine.held <;> simp [strands, instead, back]

theorem replaces_instead (equivalence : Equivalence same) (one : machine.OneMain)
    (opened : ∀ strand ∈ machine.strands, strand.Opened machine.mailboxes.length)
    (aside : wait.Aside same tired fun channel => channel < machine.mailboxes.length ∧ lost channel = true) :
    machine.Replaces same tired lost (machine.instead lost wait) where
  world := equivalence.refl _
  time := rfl
  opened := rfl
  mailboxes _ _ := rfl
  ready := filter_instead id (fun _ => isLost_instead) (fun _ => instead_of_kept) machine.ready
  parked := by
    refine filter_instead Parked.strand (fun _ => isLost_instead) (fun parked still => ?_) machine.parked
    rw [instead_of_kept still]
  held := by
    simp only [instead]
    cases back : machine.held with
    | none => rfl
    | some strand =>
        rw [Option.map_some, instead_of_kept (not_lost_of_main (one.held strand back))]
  aside := by
    intro strand member gone
    rw [strands_instead] at member
    obtain ⟨before, there, rfl⟩ := List.mem_map.mp member
    rw [isLost_instead] at gone
    rw [Strand.instead, gone, if_pos rfl]
    obtain ⟨channel, name, owned, out⟩ := owner_of_lost gone
    exact ⟨⟨channel, name, owned, (opened before there).owner channel name owned, out⟩, aside⟩

end

end Machine
end FlowGraph
