import FlowGraph.Proofs.Program.Calls
import FlowGraph.Proofs.Program.Waits

/-!
Programs that differ only in the numbers of their channels. A channel is known to nobody but the program that
has opened it, and a program listens on the channel that it has opened last, until it sleeps. So it does not
matter which numbers its channels have, and what it does cannot depend on anybody else's. All of this is about
how a program is built; what it calls comes in only if some worlds are to look the same.
-/

namespace FlowGraph
variable {W R α : Type}

namespace Program

def Calls (good : ∀ {γ : Type}, Effect W γ → Prop) : Program W R → Prop
  | .done _ => True
  | .call effect next => good effect ∧ ∀ value, effect.Gives value → (next value).Calls good
  | .clock next => ∀ readings, (next readings).Calls good
  | .sleep _ next => (next ()).Calls good
  | .launch names branch next =>
      (∀ place, ∀ name ∈ names, (branch place name).Calls good) ∧ ∀ channel, (next channel).Calls good
  | .receive _ _ next => ∀ delivery, (next delivery).Calls good
  | .broken _ => True
  | .never => True
  | .exhausted => True

/-- In worlds that look the same both programs do the same, each on channels of its own. `own` are those that they
may listen on. -/
inductive Twins (same : W → W → Prop) : (own : Option (Nat × Nat)) → Program W R → Program W R → Prop where
  | done {own : Option (Nat × Nat)} (result : R) : Twins same own (.done result) (.done result)
  | call {own : Option (Nat × Nat)} {β : Type} {effect : Effect W β} {next again : β → Program W R}
      (respects : effect.Respects same)
      (rest : ∀ value, effect.Gives value → Twins same own (next value) (again value)) :
      Twins same own (.call effect next) (.call effect again)
  | clock {own : Option (Nat × Nat)} {next again : Readings → Program W R}
      (rest : ∀ readings, Twins same own (next readings) (again readings)) :
      Twins same own (.clock next) (.clock again)
  | sleep {own : Option (Nat × Nat)} {millis : Nat} {next again : Unit → Program W R}
      (rest : Twins same none (next ()) (again ())) : Twins same own (.sleep millis next) (.sleep millis again)
  | launch {own : Option (Nat × Nat)} {names : List NodeId} {branch : Nat → NodeId → Program W R}
      {next again : Nat → Program W R}
      (branches : ∀ place, ∀ name ∈ names, Twins same none (branch place name) (branch place name))
      (rest : ∀ channel other, Twins same (some (channel, other)) (next channel) (again other)) :
      Twins same own (.launch names branch next) (.launch names branch again)
  | receive {channel other interval : Nat} {next again : Delivery R → Program W R}
      (rest : ∀ delivery, Twins same (some (channel, other)) (next delivery) (again delivery)) :
      Twins same (some (channel, other)) (.receive channel interval next) (.receive other interval again)
  | broken {own : Option (Nat × Nat)} (panic : Panic) : Twins same own (.broken panic) (.broken panic)
  | never {own : Option (Nat × Nat)} : Twins same own .never .never
  | exhausted {own : Option (Nat × Nat)} : Twins same own .exhausted .exhausted

/-- Nobody notices what the program does: its calls are hidden, and it only listens on channels of its own. `tired`
tells whether its allowance may be used up. -/
def Aside (same : W → W → Prop) (tired : Prop) : Program W R → (own : Option Nat) → Prop
  | .done _, _ => True
  | .call effect next, own => effect.Hidden same ∧ ∀ value, effect.Gives value → (next value).Aside same tired own
  | .clock next, own => ∀ readings, (next readings).Aside same tired own
  | .sleep _ next, _ => (next ()).Aside same tired none
  | .launch names branch next, _ =>
      (∀ place, ∀ name ∈ names, (branch place name).Aside same tired none) ∧
        ∀ channel, (next channel).Aside same tired (some channel)
  | .receive channel _ next, own => own = some channel ∧ ∀ delivery, (next delivery).Aside same tired own
  | .broken _, _ => True
  | .never, _ => True
  | .exhausted, _ => tired

theorem calls_of_forall {good : ∀ {γ : Type}, Effect W γ → Prop}
    (all : ∀ {γ : Type} (effect : Effect W γ), good effect)
    (program : Program W R) : program.Calls good := by
  induction program with
  | done result => trivial
  | call effect _ ih => exact ⟨all effect, fun value _ => ih value⟩
  | clock _ ih => exact ih
  | sleep millis _ ih => exact ih ()
  | launch names branch _ branchIh ih => exact ⟨fun place name _ => branchIh place name, ih⟩
  | receive channel interval _ ih => exact ih
  | broken panic => trivial
  | never => trivial
  | exhausted => trivial

namespace Twins
variable {same : W → W → Prop} {own : Option (Nat × Nat)} {program other : Program W R}

theorem bind (twins : Twins same own program other) {next again : R → Program W R}
    (rest : ∀ own result, Twins same own (next result) (again result)) :
    Twins same own (program.bind next) (other.bind again) := by
  induction twins with
  | done result => exact rest _ result
  | call respects _ ih => exact .call respects ih
  | clock _ ih => exact .clock ih
  | sleep _ ih => exact .sleep ih
  | launch branches _ _ ih => exact .launch branches ih
  | receive _ ih => exact .receive ih
  | broken panic => exact .broken panic
  | never => exact .never
  | exhausted => exact .exhausted

theorem perform {activity : Activity W α} {next again : α → Program W R}
    (rest : ∀ own value, Twins Eq own (next value) (again value)) :
    ∀ own, Twins Eq own (.perform activity next) (.perform activity again) := by
  induction activity with
  | done value => exact fun own => rest own value
  | call effect _ ih => exact fun own => .call (.refl effect) fun value _ => ih value own
  | sleep millis _ ih => exact fun own => .sleep (ih () none)
  | broken panic => exact fun own => .broken panic
  | never => exact fun own => .never

theorem time {next again : Nat → Program W R} (rest : ∀ now, Twins same own (next now) (again now)) :
    Twins same own (.time next) (.time again) :=
  .call (fun _ _ _ looks => ⟨rfl, looks⟩) fun now _ => rest now

theorem symm (twins : Twins same own program other) : Twins same (own.map Prod.swap) other program := by
  induction twins with
  | done result => exact .done result
  | call respects _ ih => exact .call respects ih
  | clock _ ih => exact .clock ih
  | sleep _ ih => exact .sleep ih
  | launch branches _ _ ih => exact .launch branches fun channel other => ih other channel
  | receive _ ih => exact .receive ih
  | broken panic => exact .broken panic
  | never => exact .never
  | exhausted => exact .exhausted

theorem respecting (twins : Twins same own program other) {view : W → W → Prop}
    (respects : program.Calls (Effect.Respects view)) : Twins view own program other := by
  induction twins with
  | done result => exact .done result
  | call _ _ ih => exact .call respects.1 fun value gives => ih value gives (respects.2 value gives)
  | clock _ ih => exact .clock fun readings => ih readings (respects readings)
  | sleep _ ih => exact .sleep (ih respects)
  | launch _ _ branchesIh ih =>
      exact .launch (fun place name member => branchesIh place name member (respects.1 place name member))
        fun channel other => ih channel other (respects.2 channel)
  | receive _ ih => exact .receive fun delivery => ih delivery (respects delivery)
  | broken panic => exact .broken panic
  | never => exact .never
  | exhausted => exact .exhausted

theorem aside (twins : Twins same own program other) {view : W → W → Prop}
    (hidden : program.Calls (Effect.Hidden view)) : program.Aside view True (own.map Prod.fst) := by
  induction twins with
  | done result => trivial
  | call _ _ ih => exact ⟨hidden.1, fun value gives => ih value gives (hidden.2 value gives)⟩
  | clock _ ih => exact fun readings => ih readings (hidden readings)
  | sleep _ ih => exact ih hidden
  | launch _ _ branchesIh ih =>
      exact ⟨fun place name member => branchesIh place name member (hidden.1 place name member),
        fun channel => ih channel channel (hidden.2 channel)⟩
  | receive _ ih => exact ⟨rfl, fun delivery => ih delivery (hidden delivery)⟩
  | broken panic => trivial
  | never => trivial
  | exhausted => trivial

end Twins
end Program

namespace Wait
variable {same : W → W → Prop}

/-- The strands wait for the same thing and go on as twins. `mates` pairs up the channels that they may listen
on. -/
inductive Twins (same : W → W → Prop) (mates : Nat → Nat → Prop) : Wait W R → Wait W R → Prop where
  | resting {next again : Unit → Program W R} (rest : Program.Twins same none (next ()) (again ())) :
      Twins same mates (.resting next) (.resting again)
  | listening {channel other : Nat} {next again : Delivery R → Program W R} (heard : mates channel other)
      (rest : ∀ delivery, Program.Twins same (some (channel, other)) (next delivery) (again delivery)) :
      Twins same mates (.listening channel next) (.listening other again)

def Aside (same : W → W → Prop) (tired : Prop) (quiet : Nat → Prop) : Wait W R → Prop
  | .resting next => (next ()).Aside same tired none
  | .listening channel next => quiet channel ∧ ∀ delivery, (next delivery).Aside same tired (some channel)

def Calls (good : ∀ {γ : Type}, Effect W γ → Prop) : Wait W R → Prop
  | .resting next => (next ()).Calls good
  | .listening _ next => ∀ delivery, (next delivery).Calls good

theorem calls_of_forall {good : ∀ {γ : Type}, Effect W γ → Prop}
    (all : ∀ {γ : Type} (effect : Effect W γ), good effect)
    (wait : Wait W R) : wait.Calls good := by
  cases wait with
  | resting next => exact Program.calls_of_forall all (next ())
  | listening channel next => exact fun delivery => Program.calls_of_forall all (next delivery)

theorem Twins.mono {mates more : Nat → Nat → Prop} {wait other : Wait W R} (twins : wait.Twins same mates other)
    (grows : ∀ channel other, mates channel other → more channel other) : wait.Twins same more other := by
  cases twins with
  | resting rest => exact .resting rest
  | listening heard rest => exact .listening (grows _ _ heard) rest

theorem Twins.symm {mates : Nat → Nat → Prop} {wait other : Wait W R} (twins : wait.Twins same mates other) :
    other.Twins same (flip mates) wait := by
  cases twins with
  | resting rest => exact .resting rest.symm
  | listening heard rest => exact .listening heard fun delivery => (rest delivery).symm

theorem Aside.mono {tired : Prop} {quiet more : Nat → Prop} {wait : Wait W R} (aside : wait.Aside same tired quiet)
    (grows : ∀ channel, quiet channel → more channel) : wait.Aside same tired more := by
  cases wait with
  | resting next => exact aside
  | listening channel next => exact ⟨grows _ aside.1, aside.2⟩

/-- The strand goes on with a program that does not care about the numbers of its channels. -/
def Anonymous (wait : Wait W R) : Prop := wait.Twins Eq Eq wait

theorem Anonymous.twins {wait : Wait W R} (anonymous : wait.Anonymous) (respects : wait.Calls (Effect.Respects same))
    {mates : Nat → Nat → Prop} (listens : ∀ channel next, wait = .listening channel next → mates channel channel) :
    wait.Twins same mates wait := by
  generalize copy : wait = again at anonymous
  cases anonymous with
  | resting rest =>
      subst copy
      exact .resting (rest.respecting respects)
  | listening alike rest =>
      subst copy
      exact .listening (alike ▸ listens _ _ rfl) fun delivery => (rest delivery).respecting (respects delivery)

theorem Anonymous.aside {wait : Wait W R} (anonymous : wait.Anonymous) (hidden : wait.Calls (Effect.Hidden same))
    {quiet : Nat → Prop} (listens : ∀ channel next, wait = .listening channel next → quiet channel) :
    wait.Aside same True quiet := by
  cases anonymous with
  | resting rest => exact rest.aside hidden
  | listening _ rest => exact ⟨listens _ _ rfl, fun delivery => (rest delivery).aside (hidden delivery)⟩

theorem anonymous_of_leads {own : Option (Nat × Nat)} {program other : Program W R}
    (twins : Program.Twins Eq own program other) (copy : other = program)
    {later : Wait W R} (leads : program.Leads later) : later.Anonymous := by
  induction leads generalizing own other with
  | sleep millis next =>
      subst copy
      cases twins with
      | sleep rest => exact .resting rest
  | receive channel interval next =>
      subst copy
      cases twins with
      | receive rest => exact .listening rfl rest
  | launch names branch next place member =>
      subst copy
      cases twins with
      | launch branches _ => exact .resting (branches place _ member)
  | called gives _ ih =>
      subst copy
      cases twins with
      | call _ rest => exact ih (rest _ gives) rfl
  | told readings _ ih =>
      subst copy
      cases twins with
      | clock rest => exact ih (rest readings) rfl
  | slept _ ih =>
      subst copy
      cases twins with
      | sleep rest => exact ih rest rfl
  | launched channel _ ih =>
      subst copy
      cases twins with
      | launch _ rest => exact ih (rest channel channel) rfl
  | received delivery _ ih =>
      subst copy
      cases twins with
      | receive rest => exact ih (rest delivery) rfl

theorem Anonymous.later {wait later : Wait W R} (anonymous : wait.Anonymous) (after : later.After wait) :
    later.Anonymous := by
  obtain ⟨program, opens, leads⟩ := after
  cases opens with
  | resting next =>
      cases anonymous with
      | resting rest => exact anonymous_of_leads rest rfl leads
  | listening channel next delivery =>
      cases anonymous with
      | listening _ rest => exact anonymous_of_leads (rest delivery) rfl leads

end Wait
end FlowGraph
