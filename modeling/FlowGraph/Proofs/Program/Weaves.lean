import Mathlib.Data.Option.Basic
import FlowGraph.Proofs.Program.Strays

/-!
Machines that agree up to strands that nobody notices. The strands that count are the same in both, in the same
order, and wait for the same thing; only their channels may have other numbers. A turn of such a strand is the
same in both machines, and a turn of any other one does not change that they agree.
-/

namespace FlowGraph
variable {W R ρ : Type}

def Shared (mates : Nat → Nat → Prop) (channel : Nat) : Prop := ∃ other, mates channel other

inductive Owner.Twins (mates : Nat → Nat → Prop) : Owner → Owner → Prop where
  | main : Twins mates .main .main
  | branch {channel other : Nat} {name : NodeId} (heard : mates channel other) :
      Twins mates (.branch channel name) (.branch other name)

structure Strand.Twins (same : W → W → Prop) (mates : Nat → Nat → Prop) (strand other : Strand W R) : Prop where
  owner : strand.owner.Twins mates other.owner
  wait : strand.wait.Twins same mates other.wait

structure Parked.Twins (same : W → W → Prop) (mates : Nat → Nat → Prop) (parked other : Parked W R) : Prop where
  strand : parked.strand.Twins same mates other.strand
  deadline : parked.deadline = other.deadline

inductive Halt.Twins (same : W → W → Prop) (mates : Nat → Nat → Prop) : Halt W R → Halt W R → Prop where
  | settled (result : R) : Twins same mates (.settled result) (.settled result)
  | broken (panic : Panic) : Twins same mates (.broken panic) (.broken panic)
  | parked {wait other : Wait W R} {deadline : Nat} (waits : wait.Twins same mates other) :
      Twins same mates (.parked wait deadline) (.parked other deadline)
  | gone : Twins same mates .gone .gone
  | exhausted : Twins same mates .exhausted .exhausted

/-- Both machines have the same strands that count. While one of these is awake, their times are the same too. -/
structure Machine.Weaves (same : W → W → Prop) (tired tiredToo : Prop) (mates : Nat → Nat → Prop) (awake : Prop)
    (machine other : Machine W R) : Prop where
  world : same machine.world other.world
  time : awake → other.time = machine.time
  single : ∀ {channel twin another double}, mates channel twin → mates another double →
    (channel = another ↔ twin = double)
  opened : ∀ {channel twin}, mates channel twin →
    channel < machine.mailboxes.length ∧ twin < other.mailboxes.length
  mailboxes : ∀ {channel twin}, mates channel twin → other.mailbox twin = machine.mailbox channel
  ready : Woven (fun strand twin => awake ∧ strand.Twins same mates twin)
    (Strand.Aside same tired (machine.Quiet (Shared mates)))
    (Strand.Aside same tiredToo (other.Quiet (Shared (flip mates)))) machine.ready other.ready
  parked : Woven (Parked.Twins same mates) (Parked.Aside same tired (machine.Quiet (Shared mates)))
    (Parked.Aside same tiredToo (other.Quiet (Shared (flip mates)))) machine.parked other.parked
  held : Option.Rel (fun strand twin => awake ∧ strand.Twins same mates twin) machine.held other.held

section
variable {same : W → W → Prop} {mates more : Nat → Nat → Prop}

theorem Owner.Twins.mono {owner other : Owner} (twins : owner.Twins mates other)
    (grows : ∀ channel twin, mates channel twin → more channel twin) : owner.Twins more other := by
  cases twins with
  | main => exact .main
  | branch heard => exact .branch (grows _ _ heard)

theorem Owner.Twins.symm {owner other : Owner} (twins : owner.Twins mates other) :
    other.Twins (flip mates) owner := by
  cases twins with
  | main => exact .main
  | branch heard => exact .branch heard

variable {strand other : Strand W R}

theorem Strand.Twins.mono (twins : strand.Twins same mates other)
    (grows : ∀ channel twin, mates channel twin → more channel twin) : strand.Twins same more other :=
  ⟨twins.owner.mono grows, twins.wait.mono grows⟩

theorem Strand.Twins.symm (twins : strand.Twins same mates other) : other.Twins same (flip mates) strand :=
  ⟨twins.owner.symm, twins.wait.symm⟩

theorem Strand.Twins.isMain (twins : strand.Twins same mates other) :
    Machine.isMain strand = Machine.isMain other := by
  obtain ⟨owner, wait⟩ := strand
  obtain ⟨twin, again⟩ := other
  cases twins.owner with
  | main => rfl
  | branch heard => rfl

theorem Strand.Twins.counts (twins : strand.Twins same mates other) {tired : Prop} {machine : Machine W R} :
    ¬strand.Aside same tired (machine.Quiet (Shared mates)) := by
  rintro ⟨⟨channel, name, owned, _, unheard⟩, _⟩
  have owners := twins.owner
  rw [owned] at owners
  generalize other.owner = twin at owners
  cases owners with
  | branch heard => exact unheard ⟨_, heard⟩

theorem Halt.Twins.exhausted_iff {halt haltToo : Halt W R} (halts : halt.Twins same mates haltToo) :
    haltToo = .exhausted ↔ halt = .exhausted := by
  cases halts <;> simp

theorem Parked.Twins.symm {parked another : Parked W R} (twins : parked.Twins same mates another) :
    another.Twins same (flip mates) parked :=
  ⟨twins.strand.symm, twins.deadline.symm⟩

theorem Parked.Twins.mono {parked another : Parked W R} (twins : parked.Twins same mates another)
    (grows : ∀ channel twin, mates channel twin → more channel twin) : parked.Twins same more another :=
  ⟨twins.strand.mono grows, twins.deadline⟩

end

namespace Machine

def opening (mates : Nat → Nat → Prop) (machine other : Machine W R) (channel twin : Nat) : Prop :=
  mates channel twin ∨ channel = machine.mailboxes.length ∧ twin = other.mailboxes.length

variable {same : W → W → Prop} {tired tiredToo : Prop} {mates more : Nat → Nat → Prop} {awake : Prop}
  {machine other after : Machine W R}

theorem Quiet.widen {channel : Nat} (quiet : machine.Quiet (Shared mates) channel)
    (fresh : ∀ channel twin, more channel twin → mates channel twin ∨ machine.mailboxes.length ≤ channel)
    (longer : machine.mailboxes.length ≤ after.mailboxes.length) : after.Quiet (Shared more) channel := by
  refine ⟨Nat.lt_of_lt_of_le quiet.1 longer, ?_⟩
  rintro ⟨twin, heard⟩
  rcases fresh channel twin heard with old | new
  · exact quiet.2 ⟨twin, old⟩
  · exact Nat.lt_irrefl _ (Nat.lt_of_lt_of_le quiet.1 new)

namespace Weaves

theorem symm (equivalence : Equivalence same) (weaves : machine.Weaves same tired tiredToo mates awake other) :
    other.Weaves same tiredToo tired (flip mates) awake machine where
  world := equivalence.symm weaves.world
  time now := (weaves.time now).symm
  single first second := (weaves.single first second).symm
  opened known := (weaves.opened known).symm
  mailboxes known := (weaves.mailboxes known).symm
  ready := weaves.ready.symm.mono (fun _ _ pair => ⟨pair.1, pair.2.symm⟩) (fun _ aside => aside) fun _ aside => aside
  parked := weaves.parked.symm.mono (fun _ _ pair => pair.symm) (fun _ aside => aside) fun _ aside => aside
  held := by
    have back := weaves.held
    generalize machine.held = held, other.held = otherHeld at back ⊢
    cases back with
    | some pair => exact .some ⟨pair.1, pair.2.symm⟩
    | none => exact .none

theorem rebox (weaves : machine.Weaves same tired tiredToo mates awake other) {boxes otherBoxes : List (Mailbox R)}
    (grows : ∀ channel twin, mates channel twin → more channel twin)
    (fresh : ∀ channel twin, more channel twin →
      mates channel twin ∨ machine.mailboxes.length ≤ channel ∧ other.mailboxes.length ≤ twin)
    (longer : machine.mailboxes.length ≤ boxes.length) (longerToo : other.mailboxes.length ≤ otherBoxes.length)
    (single : ∀ {channel twin another double}, more channel twin → more another double →
      (channel = another ↔ twin = double))
    (alike : ∀ {channel twin}, more channel twin → channel < boxes.length ∧ twin < otherBoxes.length ∧
      otherBoxes[twin]?.getD ⟨[], 0⟩ = boxes[channel]?.getD ⟨[], 0⟩) :
    Machine.Weaves same tired tiredToo more awake { machine with mailboxes := boxes }
      { other with mailboxes := otherBoxes } := by
  have left (channel : Nat) (quiet : machine.Quiet (Shared mates) channel) :
      Quiet (Shared more) { machine with mailboxes := boxes } channel :=
    quiet.widen (fun channel twin known => (fresh channel twin known).imp_right And.left) longer
  have right (channel : Nat) (quiet : other.Quiet (Shared (flip mates)) channel) :
      Quiet (Shared (flip more)) { other with mailboxes := otherBoxes } channel :=
    quiet.widen (fun twin channel known => (fresh channel twin known).imp_right And.right) longerToo
  exact {
    world := weaves.world
    time := weaves.time
    single := single
    opened := fun known => ⟨(alike known).1, (alike known).2.1⟩
    mailboxes := fun known => (alike known).2.2
    ready := weaves.ready.mono (fun _ _ pair => ⟨pair.1, pair.2.mono grows⟩) (fun _ aside => aside.mono left)
      fun _ aside => aside.mono right
    parked := weaves.parked.mono (fun _ _ pair => pair.mono grows) (fun _ aside => Strand.Aside.mono aside left)
      fun _ aside => Strand.Aside.mono aside right
    held := rel_mono weaves.held fun _ _ pair => ⟨pair.1, pair.2.mono grows⟩ }

theorem unnoticed (weaves : machine.Weaves same tired tiredToo mates awake other) {world view : W}
    (looks : same world view) (asked askedToo : Nat) :
    Machine.Weaves same tired tiredToo mates awake { machine with world, asked }
      { other with world := view, asked := askedToo } :=
  { weaves with world := looks }

theorem setMailbox (weaves : machine.Weaves same tired tiredToo mates awake other) {channel twin : Nat}
    (heard : mates channel twin) (mailbox : Mailbox R) :
    (machine.setMailbox channel mailbox).Weaves same tired tiredToo mates awake (other.setMailbox twin mailbox) := by
  obtain ⟨here, there⟩ := weaves.opened heard
  refine weaves.rebox (fun _ _ known => known) (fun _ _ known => .inl known) (Nat.le_of_eq List.length_set.symm)
    (Nat.le_of_eq List.length_set.symm) weaves.single fun {another double} known => ?_
  obtain ⟨opened, openedToo⟩ := weaves.opened known
  refine ⟨by rwa [List.length_set], by rwa [List.length_set], ?_⟩
  have first := mailbox_setMailbox another mailbox here
  have second := mailbox_setMailbox double mailbox there
  rw [weaves.mailboxes known] at second
  refine second.trans ((if_congr ?_ rfl rfl).trans first.symm)
  exact (weaves.single known heard).symm

theorem take (weaves : machine.Weaves same tired tiredToo mates awake other) {channel twin : Nat}
    (heard : mates channel twin) :
    (machine.take? channel = none ∧ other.take? twin = none) ∨
      ∃ delivery after afterToo, machine.take? channel = some (delivery, after) ∧
        other.take? twin = some (delivery, afterToo) ∧ after.asked = machine.asked ∧ afterToo.asked = other.asked ∧
        after.Weaves same tired tiredToo mates awake afterToo := by
  simp only [take?, weaves.mailboxes heard]
  cases (machine.mailbox channel).reports with
  | cons report rest => exact .inr ⟨_, _, _, rfl, rfl, rfl, rfl, weaves.setMailbox heard _⟩
  | nil =>
      by_cases nobody : (machine.mailbox channel).senders = 0
      · simp only [nobody, ↓reduceIte]
        exact .inr ⟨_, _, _, rfl, rfl, rfl, rfl, weaves⟩
      · simp only [nobody, ↓reduceIte]
        exact .inl ⟨trivial, trivial⟩

theorem woven_branchStrands {channel twin : Nat} (heard : mates channel twin) {branch : Nat → NodeId → Program W R}
    {left right : Strand W R → Prop} (names : List NodeId)
    (branches : ∀ place, ∀ name ∈ names, Program.Twins same none (branch place name) (branch place name)) : ∀ place,
      Woven (fun strand twin => True ∧ strand.Twins same mates twin) left right
        (branchStrands channel branch place names) (branchStrands twin branch place names) := by
  induction names with
  | nil => exact fun _ => .nil
  | cons name rest ih =>
      intro place
      have others := ih fun place other member => branches place other (List.mem_cons_of_mem _ member)
      exact .both ⟨trivial, .branch heard, .resting (branches place name List.mem_cons_self)⟩ (others (place + 1))

theorem launched (weaves : machine.Weaves same tired tiredToo mates True other) {names : List NodeId}
    {branch : Nat → NodeId → Program W R}
    (branches : ∀ place, ∀ name ∈ names, Program.Twins same none (branch place name) (branch place name)) :
    (machine.launched names branch).Weaves same tired tiredToo (opening mates machine other) True
      (other.launched names branch) := by
  have longer {boxes : List (Mailbox R)} : boxes.length < (boxes ++ [(⟨[], names.length⟩ : Mailbox R)]).length := by
    simp
  have reboxed : Machine.Weaves same tired tiredToo (opening mates machine other) True
      { machine with mailboxes := machine.mailboxes ++ [⟨[], names.length⟩] }
      { other with mailboxes := other.mailboxes ++ [⟨[], names.length⟩] } := weaves.rebox
    (fun _ _ known => .inl known)
    (by
      rintro channel twin (known | ⟨rfl, rfl⟩)
      · exact .inl known
      · exact .inr ⟨Nat.le_refl _, Nat.le_refl _⟩)
    (Nat.le_of_lt longer) (Nat.le_of_lt longer)
    (by
      rintro channel twin another double (first | ⟨rfl, rfl⟩) (second | ⟨rfl, rfl⟩)
      · exact weaves.single first second
      · have := weaves.opened first
        omega
      · have := weaves.opened second
        omega
      · exact ⟨fun _ => rfl, fun _ => rfl⟩)
    (by
      rintro channel twin (known | ⟨rfl, rfl⟩)
      · obtain ⟨here, there⟩ := weaves.opened known
        refine ⟨Nat.lt_trans here longer, Nat.lt_trans there longer, ?_⟩
        rw [List.getElem?_append_left here, List.getElem?_append_left there]
        exact weaves.mailboxes known
      · refine ⟨longer, longer, ?_⟩
        rw [List.getElem?_concat_length, List.getElem?_concat_length])
  exact { reboxed with ready := reboxed.ready.append (woven_branchStrands (.inr ⟨rfl, rfl⟩) names branches 0) }

theorem advance {clock clockToo : Nat → Readings} {own : Option (Nat × Nat)} {program again : Program W R}
    (twins : Program.Twins same own program again) :
    ∀ {mates : Nat → Nat → Prop} {machine other : Machine W R},
      machine.Weaves same tired tiredToo mates True other →
      (∀ channel twin, own = some (channel, twin) → mates channel twin) →
      (∀ index, clockToo (other.asked + index) = clock (machine.asked + index)) →
        ∃ more, (∀ channel twin, mates channel twin → more channel twin) ∧
          (Machine.advance clock program machine).2.Weaves same tired tiredToo more True
            (Machine.advance clockToo again other).2 ∧
          (Machine.advance clock program machine).1.Twins same more (Machine.advance clockToo again other).1 := by
  induction twins with
  | done result => exact fun weaves _ _ => ⟨_, fun _ _ known => known, weaves, .settled result⟩
  | @call _ _ effect next again respects _ ih =>
      intro mates machine other weaves mine clocks
      obtain ⟨value, looks⟩ : (effect machine.time machine.world).1 = (effect other.time other.world).1 ∧
          same (effect machine.time machine.world).2 (effect other.time other.world).2 := by
        rw [weaves.time trivial]
        exact respects machine.time machine.world other.world weaves.world
      simp only [Machine.advance]
      rw [← value]
      exact ih _ ⟨_, _, rfl⟩ (weaves.unnoticed looks machine.asked other.asked) mine clocks
  | clock _ ih =>
      intro mates machine other weaves mine clocks
      have reading := clocks 0
      simp only [Nat.add_zero] at reading
      simp only [Machine.advance, reading]
      refine ih _ (weaves.unnoticed weaves.world (machine.asked + 1) (other.asked + 1)) mine fun index => ?_
      simpa only [Nat.add_assoc, Nat.add_comm 1] using clocks (index + 1)
  | @sleep _ millis _ _ rest ih =>
      intro mates machine other weaves mine clocks
      simp only [Machine.advance]
      split
      · exact ih weaves (by rintro _ _ ⟨⟩) clocks
      · rw [weaves.time trivial]
        exact ⟨mates, fun _ _ known => known, weaves, .parked (.resting rest)⟩
  | @launch _ names branch _ _ branches _ _ ih =>
      intro mates machine other weaves mine clocks
      obtain ⟨more, grows, later, halts⟩ := ih machine.mailboxes.length other.mailboxes.length
        (weaves.launched branches)
        (by
          rintro _ _ ⟨⟩
          exact .inr ⟨rfl, rfl⟩)
        clocks
      exact ⟨more, fun channel twin known => grows channel twin (.inl known), later, halts⟩
  | @receive channel twin interval next again rest ih =>
      intro mates machine other weaves mine clocks
      have heard := mine channel twin rfl
      simp only [Machine.advance]
      rcases weaves.take heard with ⟨nothing, nothingToo⟩ |
        ⟨delivery, after, afterToo, found, foundToo, asked, askedToo, later⟩
      · rw [nothing, nothingToo, weaves.time trivial]
        exact ⟨mates, fun _ _ known => known, weaves, .parked (.listening heard rest)⟩
      · simp only [found, foundToo]
        exact ih delivery later mine (by rwa [asked, askedToo])
  | broken panic => exact fun weaves _ _ => ⟨_, fun _ _ known => known, weaves, .broken panic⟩
  | never => exact fun weaves _ _ => ⟨_, fun _ _ known => known, weaves, .gone⟩
  | exhausted => exact fun weaves _ _ => ⟨_, fun _ _ known => known, weaves, .exhausted⟩

theorem resume {clock clockToo : Nat → Readings} {wait again : Wait W R} (waits : wait.Twins same mates again)
    (weaves : machine.Weaves same tired tiredToo mates True other)
    (clocks : ∀ index, clockToo (other.asked + index) = clock (machine.asked + index)) :
    ∃ more, (∀ channel twin, mates channel twin → more channel twin) ∧
      (Machine.resume clock wait machine).2.Weaves same tired tiredToo more True
        (Machine.resume clockToo again other).2 ∧
      (Machine.resume clock wait machine).1.Twins same more (Machine.resume clockToo again other).1 := by
  cases waits with
  | resting rest => exact weaves.advance rest (by rintro _ _ ⟨⟩) clocks
  | @listening channel twin next again heard rest =>
      have mine : ∀ one two, some (channel, twin) = some (one, two) → mates one two := by
        rintro _ _ ⟨⟩
        exact heard
      simp only [Machine.resume]
      rcases weaves.take heard with ⟨nothing, nothingToo⟩ |
        ⟨delivery, after, afterToo, found, foundToo, asked, askedToo, later⟩
      · simp only [nothing, nothingToo]
        exact advance (rest .quiet) weaves mine clocks
      · simp only [found, foundToo]
        exact advance (rest delivery) later mine (by rwa [asked, askedToo])

theorem awaken (weaves : machine.Weaves same tired tiredToo mates True other) (attached : Bool)
    {strand twin : Strand W R} (twins : strand.Twins same mates twin) :
    (machine.awaken attached strand).Weaves same tired tiredToo mates True (other.awaken attached twin) := by
  simp only [Machine.awaken, twins.isMain]
  split
  · exact { weaves with held := .some ⟨trivial, twins⟩ }
  · exact { weaves with ready := weaves.ready.append (.both ⟨trivial, twins⟩ .nil) }

theorem quiet_awaken (heard : Nat → Prop) (machine : Machine W R) (attached : Bool) (strand : Strand W R)
    (channel : Nat) : (machine.awaken attached strand).Quiet heard channel = machine.Quiet heard channel := by
  unfold Machine.awaken
  split <;> rfl

theorem foldl_awaken (attached : Bool) {left right : Nat → Prop} {woken wokenToo : List (Parked W R)}
    (woven : Woven (Parked.Twins same mates) (Parked.Aside same tired left) (Parked.Aside same tiredToo right) woken
      wokenToo) : ∀ {machine other : Machine W R}, (∀ channel, left channel → machine.Quiet (Shared mates) channel) →
        (∀ channel, right channel → other.Quiet (Shared (flip mates)) channel) →
          machine.Weaves same tired tiredToo mates True other →
            (woken.foldl (fun machine parked => machine.awaken attached parked.strand) machine).Weaves same tired
              tiredToo mates True
              (wokenToo.foldl (fun machine parked => machine.awaken attached parked.strand) other) := by
  induction woven with
  | nil => exact fun _ _ weaves => weaves
  | both pair _ ih =>
      intro machine other lefts rights weaves
      refine ih (fun channel quiet => ?_) (fun channel quiet => ?_) (weaves.awaken attached pair.strand)
      · rw [quiet_awaken]
        exact lefts channel quiet
      · rw [quiet_awaken]
        exact rights channel quiet
  | left aside _ ih =>
      intro machine other lefts rights weaves
      have woken := Strand.Aside.mono aside lefts
      rw [List.foldl_cons, Machine.awaken, woken.not_main, Bool.and_false, if_neg Bool.false_ne_true]
      have longer := weaves.ready.append (.left woken .nil)
      rw [List.append_nil] at longer
      exact ih lefts rights { weaves with ready := longer }
  | right aside _ ih =>
      intro machine other lefts rights weaves
      have woken := Strand.Aside.mono aside rights
      rw [List.foldl_cons, Machine.awaken, woken.not_main, Bool.and_false, if_neg Bool.false_ne_true]
      have longer := weaves.ready.append (.right woken .nil)
      rw [List.append_nil] at longer
      exact ih lefts rights { weaves with ready := longer }

theorem listens (weaves : machine.Weaves same tired tiredToo mates awake other) {channel twin : Nat}
    (heard : mates channel twin) {parked another : Parked W R} (pair : parked.Twins same mates another) :
    listensTo channel parked = listensTo twin another := by
  obtain ⟨⟨owner, wait⟩, deadline⟩ := parked
  obtain ⟨⟨ownerToo, again⟩, deadlineToo⟩ := another
  cases pair.strand.wait with
  | resting rest => rfl
  | listening hears rest => exact decide_eq_decide.mpr (weaves.single hears heard)

theorem awakenListeners (weaves : machine.Weaves same tired tiredToo mates True other) (attached : Bool)
    {channel twin : Nat} (heard : mates channel twin) :
    (machine.awakenListeners attached channel).Weaves same tired tiredToo mates True
      (other.awakenListeners attached twin) := by
  have agree (keep : Bool → Bool) := weaves.parked.filter (fun parked => keep (listensTo channel parked))
    (fun parked => keep (listensTo twin parked)) fun _ _ pair => congrArg keep (weaves.listens heard pair)
  simp only [Machine.awakenListeners, List.partition_eq_filter_filter]
  exact foldl_awaken attached (agree id) (fun _ quiet => quiet) (fun _ quiet => quiet)
    { weaves with parked := agree not }

theorem ended (weaves : machine.Weaves same tired tiredToo mates True other) (attached : Bool)
    {channel twin : Nat} (heard : mates channel twin) (report : Option (NodeId × R)) :
    (machine.ended attached channel report).Weaves same tired tiredToo mates True
      (other.ended attached twin report) := by
  simp only [Machine.ended, weaves.mailboxes heard]
  have boxed (mailbox : Mailbox R) := weaves.setMailbox heard mailbox
  split
  · exact (boxed _).awakenListeners attached heard
  · exact boxed _

theorem placed (weaves : machine.Weaves same tired tiredToo mates True other) (attached : Bool)
    {close : R → Effect W ρ} (closes : ∀ result, (close result).Respects same) {owner ownerToo : Owner}
    (owners : owner.Twins mates ownerToo) {halt haltToo : Halt W R} (halts : halt.Twins same mates haltToo) :
    (machine.placed attached close owner halt).Weaves same tired tiredToo mates True
      (other.placed attached close ownerToo haltToo) := by
  cases halts with
  | settled result =>
      cases owners with
      | main =>
          have looks : same (close result machine.time machine.world).2 (close result other.time other.world).2 := by
            rw [weaves.time trivial]
            exact (closes result machine.time _ _ weaves.world).2
          exact weaves.unnoticed looks machine.asked other.asked
      | @branch _ _ name heard => exact weaves.ended attached heard (some (name, result))
  | broken panic =>
      cases owners with
      | main => exact weaves
      | branch heard => exact weaves.ended attached heard none
  | parked waits =>
      have strands : Strand.Twins same mates ⟨owner, _⟩ ⟨ownerToo, _⟩ := ⟨owners, waits⟩
      exact { weaves with parked := weaves.parked.append (.both ⟨strands, rfl⟩ .nil) }
  | gone => exact weaves
  | exhausted => exact weaves

theorem release (weaves : machine.Weaves same tired tiredToo mates awake other) {strand twin : Strand W R}
    (pair : awake ∧ strand.Twins same mates twin) :
    Machine.Weaves same tired tiredToo mates awake { machine with ready := [strand], held := none }
      { other with ready := [twin], held := none } :=
  { weaves with ready := .both pair .nil, held := .none }

theorem jump (weaves : machine.Weaves same tired tiredToo mates awake other) {time : Nat}
    (idle : machine.ready = []) (idleToo : other.ready = []) (nobody : machine.held = none)
    (nobodyToo : other.held = none) (soonest : earliest machine.parked = some time)
    (soonestToo : earliest other.parked = some time) {attached : Bool} {after afterToo : Machine W R}
    (jumped : machine.jump attached = some after) (jumpedToo : other.jump attached = some afterToo) :
    after.Weaves same tired tiredToo mates True afterToo := by
  simp only [Machine.jump, soonest, soonestToo, Option.map_some, Option.some.injEq,
    List.partition_eq_filter_filter, idle, idleToo, List.nil_append] at jumped jumpedToo
  subst jumped jumpedToo
  have agree (keep : Bool → Bool) := weaves.parked.filter
    (fun parked => keep (decide (parked.deadline ≤ time))) (fun parked => keep (decide (parked.deadline ≤ time)))
    fun _ _ pair => congrArg (fun deadline => keep (decide (deadline ≤ time))) pair.deadline
  have due : Woven (fun strand twin : Strand W R => True ∧ strand.Twins same mates twin) _ _ _ _ :=
    (agree id).map (f := Parked.strand) (g := Parked.strand) (fun _ _ pair => ⟨trivial, pair.strand⟩)
      (fun _ aside => aside) fun _ aside => aside
  have back : Option.Rel (fun strand twin => True ∧ strand.Twins same mates twin) machine.held other.held := by
    rw [nobody, nobodyToo]
    exact .none
  refine { weaves with time := fun _ => rfl, parked := agree not, held := back, ready := ?_ }
  · split
    · exact (due.filter _ _ fun _ _ pair => pair.2.isMain).append
        (due.filter _ _ fun _ _ pair => congrArg not pair.2.isMain)
    · exact due

theorem stray (equivalence : Equivalence same) (weaves : machine.Weaves same tired tiredToo mates awake other)
    (strays : machine.Strays same tired (Shared mates) awake after) :
    after.Weaves same tired tiredToo mates awake other where
  world := equivalence.trans (equivalence.symm strays.world) weaves.world
  time now := (weaves.time now).trans (strays.time now).symm
  single := weaves.single
  opened known := (weaves.opened known).imp_left fun here => Nat.lt_of_lt_of_le here strays.opened
  mailboxes {channel twin} known := (weaves.mailboxes known).trans (strays.mailboxes channel ⟨twin, known⟩).symm
  ready := by
    have wider := weaves.ready.mono (fun _ _ pair => pair)
      (fun _ aside => aside.mono fun _ quiet => quiet.later strays.opened) fun _ aside => aside
    exact wider.graft strays.ready (fun _ aside => aside) fun _ _ pair aside => absurd aside pair.2.counts
  parked := by
    have wider := weaves.parked.mono (fun _ _ pair => pair)
      (fun _ aside => Strand.Aside.mono aside fun _ quiet => quiet.later strays.opened) fun _ aside => aside
    exact wider.graft strays.parked (fun _ aside => aside) fun _ _ pair aside => absurd aside pair.strand.counts
  held := strays.held ▸ weaves.held

theorem heard (weaves : machine.Weaves same tired tiredToo mates awake other) (channel : Nat)
    (heard : Shared mates channel) : channel < machine.mailboxes.length := by
  obtain ⟨twin, known⟩ := heard
  exact (weaves.opened known).1

theorem apart (weaves : machine.Weaves same tired tiredToo mates awake other) :
    machine.Apart same tired (Shared mates) := by
  intro parked member channel unheard listens
  rcases weaves.parked.left_of_mem parked member with aside | ⟨another, _, pair⟩
  · exact aside
  · obtain ⟨⟨owner, wait⟩, deadline⟩ := parked
    have waits := pair.strand.wait
    generalize another.strand.wait = again at waits
    cases waits with
    | resting rest => cases listens
    | listening heard rest =>
        cases of_decide_eq_true listens
        exact absurd ⟨_, heard⟩ unheard

theorem asleep (weaves : machine.Weaves same tired tiredToo mates awake other) (idle : machine.ready = [])
    (nobody : machine.held = none) : machine.Weaves same tired tiredToo mates False other where
  world := weaves.world
  time := False.elim
  single := weaves.single
  opened := weaves.opened
  mailboxes := weaves.mailboxes
  ready := by
    rw [idle]
    refine .apart (by simp) fun strand member => ?_
    refine (weaves.ready.symm.left_of_mem strand member).resolve_right ?_
    simp [idle]
  parked := weaves.parked
  held := by
    have back := weaves.held
    rw [nobody] at back ⊢
    generalize other.held = otherHeld at back ⊢
    cases back
    exact .none

theorem round_stray {known : Option (Verdict ρ)} (equivalence : Equivalence same)
    (weaves : machine.Weaves same tired tiredToo mates awake other)
    (next : machine.StraysNext same tired (Shared mates) known) (alert : known ≠ none → awake) (attached : Bool)
    (clock : Nat → Readings) (close : R → Effect W ρ) :
    ∃ still, (known ≠ none → still) ∧
      (machine.round attached clock close).Weaves same tired tiredToo mates still other := by
  cases next with
  | turn queue aside =>
      exact ⟨awake, alert, weaves.stray equivalence
        (strays_turn equivalence weaves.heard weaves.apart queue aside attached clock close)⟩
  | jump unknown idle nobody soonest due =>
      have jumped := round_jump idle nobody soonest attached clock close
      exact ⟨False, fun decided => decided unknown, (weaves.asleep idle nobody).stray equivalence
        (strays_jump equivalence soonest due jumped)⟩

end Weaves
end Machine
end FlowGraph
