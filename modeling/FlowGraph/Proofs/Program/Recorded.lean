import FlowGraph.Proofs.Program.Follows

/-!
Activities that keep a record beside the world. The record only says what has been done: an activity ends in the
same ways with and without it.
-/

namespace FlowGraph
variable {W N α β : Type}

def Effect.recording (effect : Effect W α) (notes : α → List N) : Effect (W × List N) α := fun time world =>
  ((effect time world.1).1, (effect time world.1).2, world.2 ++ notes (effect time world.1).1)

namespace Activity

def noting (note : N) (next : Activity (W × List N) α) : Activity (W × List N) α :=
  .call ((Effect.pure ()).recording fun _ => [note]) fun _ => next

/-- The activity may come to this end and leave this record. In between, anything may happen to the world, but
not to the record. -/
def EndsNoting : Activity (W × List N) α → List N → Attempt α → List N → Prop
  | done value, notes, came, last => came = .ok value ∧ last = notes
  | call effect next, notes, came, last => ∃ time world,
      (next (effect time (world, notes)).1).EndsNoting (effect time (world, notes)).2.2 came last
  | sleep _ next, notes, came, last => (next ()).EndsNoting notes came last
  | broken panic, notes, came, last => came = .error panic ∧ last = notes
  | never, _, _, _ => False

theorem EndsNoting.of_bind {activity : Activity (W × List N) α} {next : α → Activity (W × List N) β}
    {came : Attempt β} {last : List N} :
    ∀ {notes : List N}, (activity.bind next).EndsNoting notes came last →
      (∃ value middle, activity.EndsNoting notes (.ok value) middle ∧ (next value).EndsNoting middle came last) ∨
        ∃ panic, activity.EndsNoting notes (.error panic) last ∧ came = .error panic := by
  induction activity with
  | done value => exact fun ends => .inl ⟨value, _, ⟨rfl, rfl⟩, ends⟩
  | call effect rest ih =>
      rintro notes ⟨time, world, ends⟩
      rcases ih _ ends with ⟨value, middle, first, onward⟩ | ⟨panic, first, same⟩
      · exact .inl ⟨value, middle, ⟨time, world, first⟩, onward⟩
      · exact .inr ⟨panic, ⟨time, world, first⟩, same⟩
  | sleep millis rest ih => exact fun ends => ih () ends
  | broken panic =>
      rintro notes ⟨rfl, rfl⟩
      exact .inr ⟨panic, ⟨rfl, rfl⟩, rfl⟩
  | never => exact fun ends => ends.elim

/-- The first activity does what the second one does, and keeps a record of it. -/
inductive Records : Activity (W × List N) α → Activity W α → Prop where
  | done (value : α) : Records (.done value) (.done value)
  | call {γ : Type} {effect : Effect W γ} {notes : γ → List N} {next : γ → Activity (W × List N) α}
      {plain : γ → Activity W α} (rest : ∀ value, Records (next value) (plain value)) :
      Records (.call (effect.recording notes) next) (.call effect plain)
  | noting {note : N} {next : Activity (W × List N) α} {plain : Activity W α} (rest : Records next plain) :
      Records (.noting note next) plain
  | sleep {millis : Nat} {next : Unit → Activity (W × List N) α} {plain : Unit → Activity W α}
      (rest : Records (next ()) (plain ())) : Records (.sleep millis next) (.sleep millis plain)
  | broken (panic : Panic) : Records (.broken panic) (.broken panic)
  | never : Records .never .never

theorem Records.mayEnd_iff {activity : Activity (W × List N) α} {plain : Activity W α}
    (records : Records activity plain) (world : W) {came : Attempt α} :
    ∀ {notes : List N}, plain.MayEnd came ↔ ∃ last, activity.EndsNoting notes came last := by
  induction records with
  | done value => exact ⟨fun same => ⟨_, same, rfl⟩, fun ⟨_, same, _⟩ => same⟩
  | call rest ih =>
      intro notes
      constructor
      · rintro ⟨_, ⟨time, view, rfl⟩, may⟩
        obtain ⟨last, ends⟩ := (ih _).mp may
        exact ⟨last, time, view, ends⟩
      · rintro ⟨last, time, view, ends⟩
        exact ⟨_, ⟨time, view, rfl⟩, (ih _).mpr ⟨last, ends⟩⟩
  | noting rest ih =>
      intro notes
      constructor
      · intro may
        obtain ⟨last, ends⟩ := ih.mp may
        exact ⟨last, 0, world, ends⟩
      · rintro ⟨last, _, _, ends⟩
        exact ih.mpr ⟨last, ends⟩
  | sleep rest ih => exact ih
  | broken panic => exact ⟨fun same => ⟨_, same, rfl⟩, fun ⟨_, same, _⟩ => same⟩
  | never => exact ⟨False.elim, fun ⟨_, ends⟩ => ends⟩

theorem Records.bind {activity : Activity (W × List N) α} {plain : Activity W α}
    (records : Records activity plain) {next : α → Activity (W × List N) β} {plainNext : α → Activity W β}
    (rest : ∀ value, Records (next value) (plainNext value)) :
    Records (activity.bind next) (plain.bind plainNext) := by
  induction records with
  | done value => exact rest value
  | call _ ih => exact .call ih
  | noting _ ih => exact .noting ih
  | sleep _ ih => exact .sleep ih
  | broken panic => exact .broken panic
  | never => exact .never

theorem Records.contained {activity : Activity (W × List N) α} {plain : Activity W α}
    (records : Records activity plain) (timers : Option String) (replace : Panic → α) :
    Records (activity.contained timers replace) (plain.contained timers replace) := by
  induction records with
  | done value => exact .done value
  | call _ ih => exact .call ih
  | noting _ ih => exact .noting ih
  | sleep _ ih =>
      cases timers with
      | none => exact .sleep ih
      | some text => exact .done (replace (.text text))
  | broken panic => exact .done (replace panic)
  | never => exact .never

/-- Does the same and notes how it ends. Where there are no timers, it ends as soon as it is to sleep. -/
def recorded (timers : Option String) (note : Attempt α → N) : Activity W α → Activity (W × List N) α
  | done value => .noting (note (.ok value)) (.done value)
  | call effect next => .call (effect.recording fun _ => []) fun value => (next value).recorded timers note
  | sleep millis next =>
    match timers with
    | none => .sleep millis fun _ => (next ()).recorded timers note
    | some text => .noting (note (.error (.text text))) (.sleep millis fun _ => (next ()).recorded timers note)
  | broken panic => .noting (note (.error panic)) (.broken panic)
  | never => .never

theorem recorded_records (timers : Option String) (note : Attempt α → N) (activity : Activity W α) :
    Records (activity.recorded timers note) activity := by
  induction activity with
  | done value => exact .noting (.done value)
  | call effect next ih => exact .call ih
  | sleep millis next ih =>
      cases timers with
      | none => exact .sleep (ih ())
      | some text => exact .noting (.sleep (ih ()))
  | broken panic => exact .noting (.broken panic)
  | never => exact .never

theorem endsNoting_recorded {timers : Option String} {note : Attempt α → N} {activity : Activity W α}
    {given : α → β} {broken : Panic → β} {came : Attempt β} {last : List N} :
    ∀ {notes : List N},
      (((activity.recorded timers note).bind fun value => .done (given value)).contained timers broken).EndsNoting
        notes came last →
      (∃ value, came = .ok (given value) ∧ last = notes ++ [note (.ok value)]) ∨
        ∃ panic, came = .ok (broken panic) ∧ last = notes ++ [note (.error panic)] := by
  induction activity with
  | done value =>
      rintro notes ⟨_, _, rfl, rfl⟩
      exact .inl ⟨value, rfl, rfl⟩
  | call effect next ih =>
      rintro notes ⟨time, world, ends⟩
      have onward := ih _ ends
      simpa only [Effect.recording, List.append_nil] using onward
  | sleep millis next ih =>
      intro notes ends
      cases timers with
      | none => exact ih () ends
      | some text =>
          obtain ⟨_, _, rfl, rfl⟩ := ends
          exact .inr ⟨.text text, rfl, rfl⟩
  | broken panic =>
      rintro notes ⟨_, _, rfl, rfl⟩
      exact .inr ⟨panic, rfl, rfl⟩
  | never => exact fun ends => ends.elim

end Activity
end FlowGraph
