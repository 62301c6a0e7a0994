import FlowGraph.Program

/-!
When one program follows another: both ask for the same things and get the same answers, in worlds that stay
related. A protocol says which results may be reported on each channel that a program has opened, so the
programs need to agree only as far as reports keep to it. A patient program does not mind listening in vain
any number of times, while the other one may have to count.
-/

namespace FlowGraph

namespace Effect
variable {W V α : Type}

def Alike (worlds : W → V → Prop) (effect : Effect W α) (other : Effect V α) : Prop :=
  ∀ time world view, worlds world view →
    (effect time world).1 = (other time view).1 ∧ worlds (effect time world).2 (other time view).2

def Gives (effect : Effect W α) (value : α) : Prop := ∃ time world, (effect time world).1 = value

theorem Alike.refl (effect : Effect W α) : effect.Alike Eq effect := by
  rintro time world _ rfl
  exact ⟨rfl, rfl⟩

variable {β : Type} {worlds : W → V → Prop} {effect : Effect W α} {other : Effect V α}

theorem Alike.andThen {next : α → Effect W β} {otherNext : α → Effect V β} (first : effect.Alike worlds other)
    (rest : ∀ value, (next value).Alike worlds (otherNext value)) :
    (effect.andThen next).Alike worlds (other.andThen otherNext) := by
  intro time world view related
  obtain ⟨same, later⟩ := first time world view related
  simp only [Effect.andThen, same]
  exact rest _ time _ _ later

theorem Alike.map (alike : effect.Alike worlds other) (f : α → β) :
    (effect.map f).Alike worlds (other.map f) := by
  intro time world view related
  obtain ⟨same, later⟩ := alike time world view related
  exact ⟨congrArg f same, later⟩

end Effect

/-- What may be reported on the channels that a program has opened. -/
abbrev Protocol (R : Type) := Nat → Option (NodeId → R → Prop)

namespace Protocol
variable {R : Type}

def closed : Protocol R := fun _ => none

def opened (protocol : Protocol R) (channel : Nat) (good : NodeId → R → Prop) : Protocol R :=
  fun other => if other = channel then some good else protocol other

def Widens (wide narrow : Protocol R) : Prop :=
  ∀ channel good, narrow channel = some good → wide channel = some good

theorem Widens.refl (protocol : Protocol R) : protocol.Widens protocol := fun _ _ known => known

theorem Widens.trans {wide middle narrow : Protocol R} (wider : wide.Widens middle)
    (widens : middle.Widens narrow) : wide.Widens narrow :=
  fun channel good known => wider channel good (widens channel good known)

theorem widens_closed (protocol : Protocol R) : protocol.Widens closed := by
  rintro channel good ⟨⟩

theorem Widens.opened {wide narrow : Protocol R} (widens : wide.Widens narrow) (channel : Nat)
    (good : NodeId → R → Prop) : (wide.opened channel good).Widens (narrow.opened channel good) := by
  intro other known found
  unfold Protocol.opened at found ⊢
  split
  · rename_i same
    rwa [if_pos same] at found
  · rename_i different
    rw [if_neg different] at found
    exact widens other known found

theorem Widens.unknown {wide narrow : Protocol R} (widens : wide.Widens narrow) {channel : Nat}
    (fresh : wide channel = none) : narrow channel = none := by
  cases found : narrow channel with
  | none => rfl
  | some good =>
      rw [widens channel good found] at fresh
      cases fresh

theorem opened_widens {protocol : Protocol R} {channel : Nat} (fresh : protocol channel = none)
    (good : NodeId → R → Prop) : (protocol.opened channel good).Widens protocol := by
  intro other known found
  unfold opened
  split
  · rename_i same
    rw [same, fresh] at found
    cases found
  · exact found

@[simp] theorem opened_same (protocol : Protocol R) (channel : Nat) (good : NodeId → R → Prop) :
    protocol.opened channel good channel = some good := if_pos rfl

end Protocol

def Attempt.Sends {R : Type} (good : NodeId → R → Prop) (name : NodeId) : Attempt R → Prop
  | .ok result => good name result
  | .error _ => True

namespace Activity
variable {W V α : Type}

/-- The second activity does what the first one does, and each end of theirs satisfies the predicate. One
that a patient program performs always ends. -/
inductive Follows (patience : Option Nat) (worlds : W → V → Prop) (ends : Attempt α → Prop) :
    Activity W α → Activity V α → Prop where
  | done {value : α} (holds : ends (.ok value)) : Follows patience worlds ends (.done value) (.done value)
  | call {β : Type} {effect : Effect W β} {other : Effect V β} {next : β → Activity W α}
      {otherNext : β → Activity V α} (alike : effect.Alike worlds other)
      (rest : ∀ value, other.Gives value → Follows patience worlds ends (next value) (otherNext value)) :
      Follows patience worlds ends (.call effect next) (.call other otherNext)
  | sleep {millis : Nat} {next : Unit → Activity W α} {otherNext : Unit → Activity V α}
      (rest : Follows patience worlds ends (next ()) (otherNext ())) :
      Follows patience worlds ends (.sleep millis next) (.sleep millis otherNext)
  | broken {panic : Panic} (holds : ends (.error panic)) :
      Follows patience worlds ends (.broken panic) (.broken panic)
  | never (impatient : patience = none) : Follows patience worlds ends .never .never

/-- The activity may come to this end, depending on what the world answers. -/
def MayEnd : Activity W α → Attempt α → Prop
  | done value, attempt => attempt = .ok value
  | call effect next, attempt => ∃ value, effect.Gives value ∧ (next value).MayEnd attempt
  | sleep _ next, attempt => (next ()).MayEnd attempt
  | broken panic, attempt => attempt = .error panic
  | never, _ => False

def Returns : Activity W α → Prop
  | done _ => True
  | call effect next => ∀ value, effect.Gives value → (next value).Returns
  | sleep _ next => (next ()).Returns
  | broken _ => True
  | never => False

theorem Returns.bind {β : Type} {activity : Activity W α} {next : α → Activity W β}
    (first : activity.Returns) (rest : ∀ value, (next value).Returns) : (activity.bind next).Returns := by
  induction activity with
  | done value => exact rest value
  | call effect _ ih => exact fun value gives => ih value (first value gives)
  | sleep millis _ ih => exact ih () first
  | broken panic => trivial
  | never => exact first

theorem Returns.contained {activity : Activity W α} (returns : activity.Returns) (timers : Option String)
    (replace : Panic → α) : (activity.contained timers replace).Returns := by
  induction activity with
  | done value => trivial
  | call effect _ ih => exact fun value gives => ih value (returns value gives)
  | sleep millis _ ih =>
      cases timers with
      | none => exact ih () returns
      | some text => trivial
  | broken panic => trivial
  | never => exact returns

namespace Follows
variable {patience : Option Nat} {worlds : W → V → Prop} {ends more : Attempt α → Prop} {activity : Activity W α}
  {other : Activity V α}

theorem mono (implies : ∀ attempt, ends attempt → more attempt)
    (follows : activity.Follows patience worlds ends other) :
    activity.Follows patience worlds more other := by
  induction follows with
  | done holds => exact .done (implies _ holds)
  | call alike _ ih => exact .call alike ih
  | sleep _ ih => exact .sleep ih
  | broken holds => exact .broken (implies _ holds)
  | never impatient => exact .never impatient

theorem refl (activity : Activity W α) (returns : patience ≠ none → activity.Returns) :
    activity.Follows patience Eq activity.MayEnd activity := by
  induction activity with
  | done value => exact .done rfl
  | call effect next ih =>
      refine .call (Effect.Alike.refl effect) fun value gives => ?_
      exact (ih value fun calm => returns calm value gives).mono fun _ may => ⟨value, gives, may⟩
  | sleep millis next ih => exact .sleep (ih () returns)
  | broken panic => exact .broken rfl
  | never =>
      cases patience with
      | none => exact .never rfl
      | some interval => exact (returns (Option.some_ne_none interval)).elim

end Follows
end Activity

namespace Program
variable {W V R α : Type} {patience : Option Nat} {worlds : W → V → Prop}

/-- The second program does what the first one does, as long as it is not told more than `count` times
that there is a report or that there is none yet. -/
inductive Follows (patience : Option Nat) (worlds : W → V → Prop) :
    (count : Nat) → Protocol R → (Attempt R → Prop) → Program W R → Program V R → Prop where
  | done {count : Nat} {protocol : Protocol R} {ends : Attempt R → Prop} {result : R}
      (holds : ends (.ok result)) : Follows patience worlds count protocol ends (.done result) (.done result)
  | call {count : Nat} {protocol : Protocol R} {ends : Attempt R → Prop} {β : Type} {effect : Effect W β}
      {other : Effect V β} {next : β → Program W R} {otherNext : β → Program V R}
      (alike : effect.Alike worlds other)
      (rest : ∀ value, other.Gives value →
        Follows patience worlds count protocol ends (next value) (otherNext value)) :
      Follows patience worlds count protocol ends (.call effect next) (.call other otherNext)
  | clock {count : Nat} {protocol : Protocol R} {ends : Attempt R → Prop} {next : Readings → Program W R}
      {otherNext : Readings → Program V R}
      (rest : ∀ readings, Follows patience worlds count protocol ends (next readings) (otherNext readings)) :
      Follows patience worlds count protocol ends (.clock next) (.clock otherNext)
  | sleep {count : Nat} {protocol : Protocol R} {ends : Attempt R → Prop} {millis : Nat}
      {next : Unit → Program W R} {otherNext : Unit → Program V R}
      (rest : Follows patience worlds count protocol ends (next ()) (otherNext ())) :
      Follows patience worlds count protocol ends (.sleep millis next) (.sleep millis otherNext)
  | launch {count : Nat} {protocol : Protocol R} {ends : Attempt R → Prop} {names : List NodeId}
      {branch : Nat → NodeId → Program W R} {otherBranch : Nat → NodeId → Program V R}
      {next : Nat → Program W R} {otherNext : Nat → Program V R} (good : NodeId → R → Prop)
      (branches : ∀ place, ∀ name ∈ names, Follows patience worlds count .closed (Attempt.Sends good name)
        (branch place name) (otherBranch place name))
      (rest : ∀ channel, protocol channel = none →
        Follows patience worlds count (protocol.opened channel good) ends (next channel)
          (otherNext channel)) :
      Follows patience worlds count protocol ends (.launch names branch next)
        (.launch names otherBranch otherNext)
  | receive {count : Nat} {protocol : Protocol R} {ends : Attempt R → Prop} {channel interval : Nat}
      {next : Delivery R → Program W R} {otherNext : Delivery R → Program V R}
      {good : NodeId → R → Prop} (impatient : patience = none) (known : protocol channel = some good)
      (closed : Follows patience worlds count protocol ends (next .closed) (otherNext .closed))
      (report : ∀ less < count, ∀ branch result, good branch result →
        Follows patience worlds less protocol ends (next (.report branch result))
          (otherNext (.report branch result)))
      (quiet : ∀ less < count,
        Follows patience worlds less protocol ends (next .quiet) (otherNext .quiet)) :
      Follows patience worlds count protocol ends (.receive channel interval next)
        (.receive channel interval otherNext)
  /-- When there is no report yet, the first program looks at the time and may listen once more. The second
  one then still listens for the first time, unless it is late. -/
  | await {count : Nat} {protocol : Protocol R} {ends : Attempt R → Prop} {channel interval : Nat}
      {next : Delivery R → Program W R} {otherNext : Delivery R → Program V R}
      {good : NodeId → R → Prop} {late : Nat → Bool} {looks : Nat → Program V R} (calm : patience = some interval)
      (timely : 0 < interval) (known : protocol channel = some good)
      (closed : Follows patience worlds count protocol ends (next .closed) (otherNext .closed))
      (report : ∀ less < count, ∀ branch result, good branch result →
        Follows patience worlds less protocol ends (next (.report branch result))
          (otherNext (.report branch result)))
      (otherQuiet : otherNext .quiet = .time looks)
      (quiet : ∀ less < count, Follows patience worlds less protocol ends (next .quiet)
        (.time fun now => if late now then looks now else .receive channel interval otherNext)) :
      Follows patience worlds count protocol ends (.receive channel interval next)
        (.receive channel interval otherNext)
  | broken {count : Nat} {protocol : Protocol R} {ends : Attempt R → Prop} {panic : Panic}
      (holds : ends (.error panic)) :
      Follows patience worlds count protocol ends (.broken panic) (.broken panic)
  | never {count : Nat} {protocol : Protocol R} {ends : Attempt R → Prop} (impatient : patience = none) :
      Follows patience worlds count protocol ends .never .never
  | exhausted {count : Nat} {protocol : Protocol R} {ends : Attempt R → Prop}
      (impatient : patience = none) :
      Follows patience worlds count protocol ends .exhausted .exhausted

namespace Follows
variable {count : Nat} {protocol : Protocol R} {ends last : Attempt R → Prop} {program : Program W R}
  {other : Program V R}

theorem weaken (follows : Follows patience worlds count protocol ends program other) :
    ∀ {less : Nat} {wide : Protocol R} {more : Attempt R → Prop}, less ≤ count → wide.Widens protocol →
      (∀ attempt, ends attempt → more attempt) → Follows patience worlds less wide more program other := by
  induction follows with
  | done holds =>
      intro less wide more _ _ implies
      exact .done (implies _ holds)
  | call alike _ ih =>
      intro less wide more fewer wider implies
      exact .call alike fun value gives => ih value gives fewer wider implies
  | clock _ ih =>
      intro less wide more fewer wider implies
      exact .clock fun readings => ih readings fewer wider implies
  | sleep _ ih =>
      intro less wide more fewer wider implies
      exact .sleep (ih fewer wider implies)
  | launch good _ _ branchesIh ih =>
      intro less wide more fewer wider implies
      refine .launch good ?_ fun channel fresh =>
        ih channel (wider.unknown fresh) fewer (wider.opened channel good) implies
      exact fun place name member =>
        branchesIh place name member fewer (Protocol.Widens.refl _) fun _ holds => holds
  | receive impatient known _ _ _ closedIh reportIh quietIh =>
      intro less wide more fewer wider implies
      refine .receive impatient (wider _ _ known) (closedIh fewer wider implies) ?_ ?_
      · intro fuel smaller branch result fits
        exact reportIh fuel (by omega) branch result fits (Nat.le_refl _) wider implies
      · intro fuel smaller
        exact quietIh fuel (by omega) (Nat.le_refl _) wider implies
  | await calm timely known _ _ otherQuiet _ closedIh reportIh quietIh =>
      intro less wide more fewer wider implies
      refine .await calm timely (wider _ _ known) (closedIh fewer wider implies) ?_ otherQuiet
        fun fuel smaller => quietIh fuel (by omega) (Nat.le_refl _) wider implies
      intro fuel smaller branch result fits
      exact reportIh fuel (by omega) branch result fits (Nat.le_refl _) wider implies
  | broken holds =>
      intro less wide more _ _ implies
      exact .broken (implies _ holds)
  | never impatient =>
      intro less wide more _ _ _
      exact .never impatient
  | exhausted impatient =>
      intro less wide more _ _ _
      exact .exhausted impatient

theorem fewer (follows : Follows patience worlds count protocol ends program other) {less : Nat}
    (smaller : less ≤ count) : Follows patience worlds less protocol ends program other :=
  follows.weaken smaller (Protocol.Widens.refl protocol) fun _ holds => holds

theorem bind (first : Follows patience worlds count protocol ends program other) :
    ∀ {next : R → Program W R} {otherNext : R → Program V R},
      (∀ less ≤ count, ∀ wide : Protocol R, wide.Widens protocol → ∀ result, ends (.ok result) →
        Follows patience worlds less wide last (next result) (otherNext result)) →
      (∀ panic, ends (.error panic) → last (.error panic)) →
        Follows patience worlds count protocol last (program.bind next) (other.bind otherNext) := by
  induction first with
  | done holds =>
      intro next otherNext rest _
      exact rest _ (Nat.le_refl _) _ (Protocol.Widens.refl _) _ holds
  | call alike _ ih =>
      intro next otherNext rest panics
      exact .call alike fun value gives => ih value gives rest panics
  | clock _ ih =>
      intro next otherNext rest panics
      exact .clock fun readings => ih readings rest panics
  | sleep _ ih =>
      intro next otherNext rest panics
      exact .sleep (ih rest panics)
  | launch good branches _ _ ih =>
      intro next otherNext rest panics
      refine .launch good branches fun channel fresh => ih channel fresh ?_ panics
      intro less smaller wide wider
      exact rest less smaller wide (wider.trans (Protocol.opened_widens fresh good))
  | receive impatient known _ _ _ closedIh reportIh quietIh =>
      intro next otherNext rest panics
      refine .receive impatient known (closedIh rest panics) ?_ ?_
      · intro less smaller branch result fits
        exact reportIh less smaller branch result fits (fun fewer le => rest fewer (by omega)) panics
      · intro less smaller
        exact quietIh less smaller (fun fewer le => rest fewer (by omega)) panics
  | @await count _ _ channel interval _ again _ late looks calm timely known _ _ otherQuiet _ closedIh
      reportIh quietIh =>
      intro next otherNext rest panics
      have bound : (time fun now => if late now then looks now else .receive channel interval again).bind
          otherNext = .time fun now => if late now then (looks now).bind otherNext
            else .receive channel interval fun delivery => (again delivery).bind otherNext := by
        simp only [time, Program.bind]
        congr 1
        funext now
        split <;> rfl
      have quiet : ∀ less < count, _ := fun less smaller =>
        quietIh less smaller (fun fewer le => rest fewer (by omega)) panics
      rw [bound] at quiet
      refine .await calm timely known (closedIh rest panics) ?_ ?_ quiet
      · intro less smaller branch result fits
        exact reportIh less smaller branch result fits (fun fewer le => rest fewer (by omega)) panics
      · rw [otherQuiet]
        rfl
  | broken holds =>
      intro next otherNext _ panics
      exact .broken (panics _ holds)
  | never impatient =>
      intro next otherNext _ _
      exact .never impatient
  | exhausted impatient =>
      intro next otherNext _ _
      exact .exhausted impatient

theorem perform {ends : Attempt α → Prop} {activity : Activity W α} {view : Activity V α}
    {next : α → Program W R} {otherNext : α → Program V R}
    (first : activity.Follows patience worlds ends view)
    (rest : ∀ value, ends (.ok value) →
      Follows patience worlds count protocol last (next value) (otherNext value))
    (panics : ∀ panic, ends (.error panic) → last (.error panic)) :
    Follows patience worlds count protocol last (.perform activity next) (.perform view otherNext) := by
  induction first with
  | done holds => exact rest _ holds
  | call alike _ ih => exact .call alike ih
  | sleep _ ih => exact .sleep ih
  | broken holds => exact .broken (panics _ holds)
  | never impatient => exact .never impatient

theorem time {next : Nat → Program W R} {otherNext : Nat → Program V R}
    (rest : ∀ now, Follows patience worlds count protocol ends (next now) (otherNext now)) :
    Follows patience worlds count protocol ends (.time next) (.time otherNext) :=
  .call (fun _ _ _ related => ⟨rfl, related⟩) fun now _ => rest now

end Follows
end Program
end FlowGraph
