import FlowGraph.Proofs.Program.Prompt
import FlowGraph.Proofs.Program.Yields

/-!
Effects, activities and programs that come to the same. A supplied function that depends on its arguments only
agrees with itself: it gives one answer, at any time and in any world.
-/

namespace FlowGraph
variable {W α β γ δ ε ζ : Type}

inductive Paired (ends : ε → ζ → Prop) (values : α → β → Prop) : Except ε α → Except ζ β → Prop where
  | ok {value : α} {other : β} (related : values value other) : Paired ends values (.ok value) (.ok other)
  | error {early : ε} {other : ζ} (related : ends early other) : Paired ends values (.error early) (.error other)

theorem Paired.bind {ends : ε → ζ → Prop} {values : α → β → Prop} {results : γ → δ → Prop}
    {first : Except ε α} {second : Except ζ β} (paired : Paired ends values first second)
    {next : α → Except ε γ} {again : β → Except ζ δ}
    (rest : ∀ value other, values value other → Paired ends results (next value) (again other)) :
    Paired ends results (first >>= next) (second >>= again) := by
  cases paired with
  | ok related => exact rest _ _ related
  | error related => exact .error related

theorem Paired.of_eq {first second : Except ε α} (same : first = second) : Paired Eq Eq first second := by
  subst same
  cases first with
  | ok value => exact .ok rfl
  | error early => exact .error rfl

namespace Effect

def Agrees (effect other : Effect W α) : Prop :=
  ∀ value another, effect.Gives value → other.Gives another → value = another

end Effect

namespace Activity

def Agrees (activity other : Activity W α) : Prop :=
  ∀ attempt another, activity.MayEnd attempt → other.MayEnd another → attempt = another

theorem agrees_done (value : α) : Agrees (W := W) (.done value) (.done value) := by
  rintro _ _ rfl rfl
  rfl

theorem Agrees.call {effect other : Effect W β} (effects : effect.Agrees other)
    {next again : β → Activity W α} (rest : ∀ value, (next value).Agrees (again value)) :
    (Activity.call effect next).Agrees (.call other again) := by
  rintro attempt another ⟨value, gives, ends⟩ ⟨found, givesToo, endsToo⟩
  obtain rfl := effects _ _ gives givesToo
  exact rest value _ _ ends endsToo

theorem MayEnd.of_bind {activity : Activity W α} {next : α → Activity W β} {attempt : Attempt β}
    (may : (activity.bind next).MayEnd attempt) :
    (∃ value, activity.MayEnd (.ok value) ∧ (next value).MayEnd attempt) ∨
      ∃ panic, activity.MayEnd (.error panic) ∧ attempt = .error panic := by
  induction activity with
  | done value => exact .inl ⟨value, rfl, may⟩
  | call effect rest ih =>
      obtain ⟨found, gives, may⟩ := may
      rcases ih found may with ⟨value, first, last⟩ | ⟨panic, first, broken⟩
      · exact .inl ⟨value, ⟨found, gives, first⟩, last⟩
      · exact .inr ⟨panic, ⟨found, gives, first⟩, broken⟩
  | sleep millis rest ih => exact ih () may
  | broken panic => exact .inr ⟨panic, rfl, may⟩
  | never => exact may.elim

theorem Agrees.bind {activity other : Activity W α} (first : activity.Agrees other)
    {next again : α → Activity W β} (rest : ∀ value, (next value).Agrees (again value)) :
    (activity.bind next).Agrees (other.bind again) := by
  intro attempt another may mayToo
  rcases may.of_bind with ⟨value, one, ends⟩ | ⟨panic, one, rfl⟩
  · rcases mayToo.of_bind with ⟨found, two, endsToo⟩ | ⟨panic, two, rfl⟩
    · obtain ⟨⟩ := first _ _ one two
      exact rest value _ _ ends endsToo
    · cases first _ _ one two
  · rcases mayToo.of_bind with ⟨found, two, endsToo⟩ | ⟨found, two, rfl⟩
    · cases first _ _ one two
    · cases first _ _ one two
      rfl

theorem MayEnd.of_contained {activity : Activity W α} {replace : Panic → α} {attempt : Attempt α}
    (may : (activity.contained none replace).MayEnd attempt) :
    (∃ value, activity.MayEnd (.ok value) ∧ attempt = .ok value) ∨
      ∃ panic, activity.MayEnd (.error panic) ∧ attempt = .ok (replace panic) := by
  induction activity with
  | done value => exact .inl ⟨value, rfl, may⟩
  | call effect rest ih =>
      obtain ⟨found, gives, may⟩ := may
      rcases ih found may with ⟨value, first, same⟩ | ⟨panic, first, same⟩
      · exact .inl ⟨value, ⟨found, gives, first⟩, same⟩
      · exact .inr ⟨panic, ⟨found, gives, first⟩, same⟩
  | sleep millis rest ih => exact ih () may
  | broken panic => exact .inr ⟨panic, rfl, may⟩
  | never => exact may.elim

theorem Agrees.contained {activity other : Activity W α} (agrees : activity.Agrees other)
    (replace : Panic → α) : (activity.contained none replace).Agrees (other.contained none replace) := by
  intro attempt another may mayToo
  rcases may.of_contained with ⟨value, one, rfl⟩ | ⟨panic, one, rfl⟩ <;>
    rcases mayToo.of_contained with ⟨found, two, rfl⟩ | ⟨found, two, rfl⟩ <;>
      cases agrees _ _ one two <;> rfl

theorem Yields.of_mayEnd {activity : Activity W α} {ends : Attempt α → Prop} (yields : activity.Yields ends)
    {attempt : Attempt α} (may : activity.MayEnd attempt) : ends attempt := by
  induction activity with
  | done value => exact may ▸ yields
  | call effect rest ih =>
      obtain ⟨_, ⟨time, world, rfl⟩, may⟩ := may
      exact ih _ (yields time world) may
  | sleep millis rest ih => exact ih () yields may
  | broken panic => exact may ▸ yields
  | never => exact may.elim

end Activity

namespace Program
variable {R : Type} {clock : Nat → Readings} {now : Nat} {related : R → R → Prop}

/-- If both programs settle without waiting, their results are related. -/
def Agrees (clock : Nat → Readings) (now : Nat) (related : R → R → Prop) (program other : Program W R) : Prop :=
  ∀ result another, program.MaySettle clock now result → other.MaySettle clock now another →
    related result another

def unlessEnded (answer : Except R α) (next : α → Program W R) : Program W R :=
  match answer with
  | .ok value => next value
  | .error result => .done result

theorem agrees_done {result another : R} (holds : related result another) :
    Agrees clock now related (.done result : Program W R) (.done another) := by
  rintro _ _ rfl rfl
  exact holds

theorem agrees_call {effect : Effect W α} {other : Effect W β} {next : α → Program W R}
    {again : β → Program W R}
    (rest : ∀ value another, effect.Gives value → other.Gives another →
      Agrees clock now related (next value) (again another)) :
    Agrees clock now related (.call effect next) (.call other again) := by
  rintro result another ⟨world, may⟩ ⟨view, mayToo⟩
  exact rest _ _ ⟨now, world, rfl⟩ ⟨now, view, rfl⟩ _ _ may mayToo

theorem agrees_clock {next again : Readings → Program W R}
    (rest : ∀ asked later, Agrees clock now related (next (clock asked)) (again (clock later))) :
    Agrees clock now related (.clock next) (.clock again) := by
  rintro result another ⟨asked, may⟩ ⟨later, mayToo⟩
  exact rest asked later _ _ may mayToo

theorem agrees_time {next again : Nat → Program W R}
    (rest : Agrees clock now related (next now) (again now)) :
    Agrees clock now related (.time next) (.time again) := by
  rintro result another ⟨_, may⟩ ⟨_, mayToo⟩
  exact rest _ _ may mayToo

theorem Agrees.bind {between : R → R → Prop} {program other : Program W R}
    (first : Agrees clock now between program other) {next again : R → Program W R}
    (rest : ∀ result another, between result another →
      Agrees clock now related (next result) (again another)) :
    Agrees clock now related (program.bind next) (other.bind again) := by
  intro result another may mayToo
  obtain ⟨one, settles, may⟩ := may.of_bind
  obtain ⟨two, settlesToo, mayToo⟩ := mayToo.of_bind
  exact rest one two (first _ _ settles settlesToo) _ _ may mayToo

theorem agrees_perform {activity other : Activity W α} (same : activity.Agrees other)
    {next again : α → Program W R}
    (rest : ∀ value, activity.MayEnd (.ok value) → Agrees clock now related (next value) (again value)) :
    Agrees clock now related (perform activity next) (perform other again) := by
  intro result another may mayToo
  obtain ⟨value, one, may⟩ := may.of_perform
  obtain ⟨found, two, mayToo⟩ := mayToo.of_perform
  obtain ⟨⟩ := same _ _ one two
  exact rest value one _ _ may mayToo

theorem agrees_attempt {ends : Panic → Panic → Prop} {values : α → β → Prop} {attempt : Attempt α}
    {other : Attempt β} (paired : Paired ends values attempt other) {next : α → Program W R}
    {again : β → Program W R}
    (rest : ∀ value another, values value another → Agrees clock now related (next value) (again another)) :
    Agrees clock now related (ofAttempt attempt next) (ofAttempt other again) := by
  cases paired with
  | ok pair => exact rest _ _ pair
  | error _ => exact fun _ _ may => may.elim

theorem agrees_unlessEnded {values : α → β → Prop} {answer : Except R α} {other : Except R β}
    (paired : Paired related values answer other) {next : α → Program W R} {again : β → Program W R}
    (rest : ∀ value another, values value another → Agrees clock now related (next value) (again another)) :
    Agrees clock now related (unlessEnded answer next) (unlessEnded other again) := by
  cases paired with
  | ok pair => exact rest _ _ pair
  | error pair => exact agrees_done pair

end Program
end FlowGraph
