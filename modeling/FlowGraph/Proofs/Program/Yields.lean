import FlowGraph.Program

/-!
What activities and programs can come to, whatever the world answers. A predicate on attempts speaks of
values and of panics at once.
-/

namespace FlowGraph

def Attempt.HandedOn {α β : Type} (next : α → Prop) (ends : Attempt β → Prop) : Attempt α → Prop
  | .ok value => next value
  | .error panic => ends (.error panic)

namespace Activity
variable {W α β : Type}

/-- Every end that the activity can come to satisfies the predicate. -/
def Yields (ends : Attempt α → Prop) : Activity W α → Prop
  | done value => ends (.ok value)
  | call effect next => ∀ time world, (next (effect time world).1).Yields ends
  | sleep _ next => (next ()).Yields ends
  | broken panic => ends (.error panic)
  | never => True

theorem Yields.mono {ends more : Attempt α → Prop} (implies : ∀ attempt, ends attempt → more attempt)
    {activity : Activity W α} (yields : activity.Yields ends) : activity.Yields more := by
  induction activity with
  | done value => exact implies _ yields
  | call effect next ih =>
      intro time world
      exact ih _ (yields time world)
  | sleep millis next ih => exact ih () yields
  | broken panic => exact implies _ yields
  | never => trivial

theorem Yields.bind {ends : Attempt β → Prop} {activity : Activity W α} {next : α → Activity W β}
    (yields : activity.Yields (Attempt.HandedOn (fun value => (next value).Yields ends) ends)) :
    (activity.bind next).Yields ends := by
  induction activity with
  | done value => exact yields
  | call effect rest ih =>
      intro time world
      exact ih _ (yields time world)
  | sleep millis rest ih => exact ih () yields
  | broken panic => exact yields
  | never => trivial

theorem Yields.contained {ends : Attempt α → Prop} {timers : Option String} {replace : Panic → α}
    (replaced : ∀ panic, ends (.ok (replace panic))) {activity : Activity W α}
    (yields : activity.Yields (Attempt.HandedOn (fun value => ends (.ok value)) fun _ : Attempt α => True)) :
    (activity.contained timers replace).Yields ends := by
  induction activity with
  | done value => exact yields
  | call effect rest ih =>
      intro time world
      exact ih _ (yields time world)
  | sleep millis rest ih =>
      cases timers with
      | none => exact ih () yields
      | some text => exact replaced (.text text)
  | broken panic => exact replaced panic
  | never => trivial

end Activity

namespace Program
variable {W R α : Type}

/-- Every end that the program itself can come to satisfies the predicate. Branches that it launches may
end as they like. -/
def Yields (ends : Attempt R → Prop) : Program W R → Prop
  | done result => ends (.ok result)
  | call effect next => ∀ time world, (next (effect time world).1).Yields ends
  | clock next => ∀ readings, (next readings).Yields ends
  | sleep _ next => (next ()).Yields ends
  | launch _ _ next => ∀ channel, (next channel).Yields ends
  | receive _ _ next => ∀ delivery, (next delivery).Yields ends
  | broken panic => ends (.error panic)
  | never => True
  | exhausted => True

theorem Yields.bind {ends : Attempt R → Prop} {program : Program W R} {next : R → Program W R}
    (yields : program.Yields (Attempt.HandedOn (fun result => (next result).Yields ends) ends)) :
    (program.bind next).Yields ends := by
  induction program with
  | done result => exact yields
  | call effect rest ih =>
      intro time world
      exact ih _ (yields time world)
  | clock rest ih =>
      intro readings
      exact ih readings (yields readings)
  | sleep millis rest ih => exact ih () yields
  | launch names branch rest _ ih =>
      intro channel
      exact ih channel (yields channel)
  | receive channel interval rest ih =>
      intro delivery
      exact ih delivery (yields delivery)
  | broken panic => exact yields
  | never => trivial
  | exhausted => trivial

theorem Yields.perform {ends : Attempt R → Prop} {activity : Activity W α} {next : α → Program W R}
    (yields : activity.Yields (Attempt.HandedOn (fun value => (next value).Yields ends) ends)) :
    (perform activity next).Yields ends := by
  induction activity with
  | done value => exact yields
  | call effect rest ih =>
      intro time world
      exact ih _ (yields time world)
  | sleep millis rest ih => exact ih () yields
  | broken panic => exact yields
  | never => trivial

theorem Yields.time {ends : Attempt R → Prop} {next : Nat → Program W R}
    (yields : ∀ now, (next now).Yields ends) : (time next).Yields ends := by
  intro now world
  exact yields now

theorem Yields.mono {ends more : Attempt R → Prop} (implies : ∀ attempt, ends attempt → more attempt)
    {program : Program W R} (yields : program.Yields ends) : program.Yields more := by
  induction program with
  | done result => exact implies _ yields
  | call effect rest ih =>
      intro time world
      exact ih _ (yields time world)
  | clock rest ih =>
      intro readings
      exact ih readings (yields readings)
  | sleep millis rest ih => exact ih () yields
  | launch names branch rest _ ih =>
      intro channel
      exact ih channel (yields channel)
  | receive channel interval rest ih =>
      intro delivery
      exact ih delivery (yields delivery)
  | broken panic => exact implies _ yields
  | never => trivial
  | exhausted => trivial

end Program

end FlowGraph
