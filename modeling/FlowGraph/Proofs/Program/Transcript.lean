import FlowGraph.Proofs.Program.Yields

/-!
Transcripts: the answers that a program gets from its surroundings, one for each thing it asks for. A ledger
keeps, for each channel that the program has opened, the branches that may still report there, so no branch
reports twice.
-/

namespace FlowGraph

inductive Answer (W R : Type) where
  | called (time : Nat) (world : W)
  | read (readings : Readings)
  | woken
  | launched (channel : Nat)
  | delivered (delivery : Delivery R)

def Answer.report? {W R : Type} : Answer W R → Option (NodeId × R)
  | delivered (.report branch result) => some (branch, result)
  | _ => none

/-- The branches that have not reported yet, for each channel that was opened. On any other channel
everybody may report. -/
abbrev Ledger := Nat → Option (List NodeId)

namespace Ledger

def blank : Ledger := fun _ => none

def opened (ledger : Ledger) (channel : Nat) (names : List NodeId) : Ledger := fun other =>
  if other = channel then some names else ledger other

def mayReport (ledger : Ledger) (channel : Nat) (branch : NodeId) : Bool :=
  match ledger channel with
  | some names => names.contains branch
  | none => true

def reported (ledger : Ledger) (channel : Nat) (branch : NodeId) : Ledger := fun other =>
  if other = channel then (ledger channel).map (·.erase branch) else ledger other

end Ledger

namespace Program
variable {W R : Type}

def answer (ledger : Ledger) : Program W R → Answer W R → Option (Ledger × Program W R)
  | call effect next, .called time world => some (ledger, next (effect time world).1)
  | clock next, .read readings => some (ledger, next readings)
  | sleep _ next, .woken => some (ledger, next ())
  | launch names _ next, .launched channel => some (ledger.opened channel names, next channel)
  | receive channel _ next, .delivered (.report branch result) =>
    if ledger.mayReport channel branch then
      some (ledger.reported channel branch, next (.report branch result))
    else none
  | receive _ _ next, .delivered .closed => some (ledger, next .closed)
  | receive _ _ next, .delivered .quiet => some (ledger, next .quiet)
  | _, _ => none

/-- Where the program stands after these answers, if each fits what it asks for. -/
def after (ledger : Ledger) : List (Answer W R) → Program W R → Option (Ledger × Program W R)
  | [], program => some (ledger, program)
  | first :: rest, program =>
    match program.answer ledger first with
    | some (ledger, program) => program.after ledger rest
    | none => none

/-- Whether the program asks its surroundings for something. -/
def Asks : Program W R → Prop
  | done _ | broken _ | never | exhausted => False
  | _ => True

theorem ne_done_of_asks {program : Program W R} (asks : program.Asks) (result : R) :
    program ≠ .done result := by
  rintro rfl
  exact asks

theorem after_append (first second : List (Answer W R)) :
    ∀ (ledger : Ledger) (program : Program W R), program.after ledger (first ++ second) =
      (program.after ledger first).bind fun reached => reached.2.after reached.1 second := by
  induction first with
  | nil =>
      intro ledger program
      rfl
  | cons answer rest ih =>
      intro ledger program
      simp only [List.cons_append, after]
      cases program.answer ledger answer with
      | none => rfl
      | some reached => exact ih reached.1 reached.2

theorem after_cons_eq_some {ledger last : Ledger} {program final : Program W R} {first : Answer W R}
    {rest : List (Answer W R)} (followed : program.after ledger (first :: rest) = some (last, final)) :
    ∃ later next, program.answer ledger first = some (later, next) ∧
      next.after later rest = some (last, final) := by
  simp only [after] at followed
  split at followed
  · rename_i later next taken
    exact ⟨later, next, taken, followed⟩
  · cases followed

section
variable {β : Type} {ledger : Ledger} {first : Answer W R} {rest : List (Answer W R)}
  {reached : Ledger × Program W R}

theorem after_call {effect : Effect W β} {next : β → Program W R}
    (followed : (call effect next).after ledger (first :: rest) = some reached) :
    ∃ time world, first = .called time world ∧
      (next (effect time world).1).after ledger rest = some reached := by
  cases first with
  | called time world => exact ⟨time, world, rfl, followed⟩
  | read readings => cases followed
  | woken => cases followed
  | launched channel => cases followed
  | delivered delivery => cases followed

theorem after_clock {next : Readings → Program W R}
    (followed : (clock next).after ledger (first :: rest) = some reached) :
    ∃ readings, first = .read readings ∧ (next readings).after ledger rest = some reached := by
  cases first with
  | called time world => cases followed
  | read readings => exact ⟨readings, rfl, followed⟩
  | woken => cases followed
  | launched channel => cases followed
  | delivered delivery => cases followed

theorem after_launch {names : List NodeId} {branch : Nat → NodeId → Program W R}
    {next : Nat → Program W R}
    (followed : (launch names branch next).after ledger (first :: rest) = some reached) :
    ∃ channel, first = .launched channel ∧
      (next channel).after (ledger.opened channel names) rest = some reached := by
  cases first with
  | called time world => cases followed
  | read readings => cases followed
  | woken => cases followed
  | launched channel => exact ⟨channel, rfl, followed⟩
  | delivered delivery => cases followed

theorem after_receive {channel interval : Nat} {next : Delivery R → Program W R}
    (followed : (receive channel interval next).after ledger (first :: rest) = some reached) :
    (∃ branch result, first = .delivered (.report branch result) ∧
        ledger.mayReport channel branch = true ∧
        (next (.report branch result)).after (ledger.reported channel branch) rest = some reached) ∨
      (first = .delivered .closed ∧ (next .closed).after ledger rest = some reached) ∨
      (first = .delivered .quiet ∧ (next .quiet).after ledger rest = some reached) := by
  cases first with
  | called time world => cases followed
  | read readings => cases followed
  | woken => cases followed
  | launched channel => cases followed
  | delivered delivery =>
      cases delivery with
      | report branch result =>
          by_cases may : ledger.mayReport channel branch = true
          · simp only [after, answer, may, ↓reduceIte] at followed
            exact .inl ⟨branch, result, rfl, may, followed⟩
          · simp only [after, answer, may, Bool.false_eq_true, ↓reduceIte] at followed
            cases followed
      | closed => exact .inr (.inl ⟨rfl, followed⟩)
      | quiet => exact .inr (.inr ⟨rfl, followed⟩)

theorem after_done {result : R} {history : List (Answer W R)}
    (followed : (done result).after ledger history = some reached) :
    history = [] ∧ reached = (ledger, .done result) := by
  cases history with
  | nil =>
      cases followed
      exact ⟨rfl, rfl⟩
  | cons first rest => cases followed

end

theorem asks_of_answer_bind {ledger : Ledger} {program : Program W R} {next : R → Program W R}
    {first : Answer W R} {reached : Ledger × Program W R}
    (taken : (program.bind next).answer ledger first = some reached) :
    program.Asks ∨ ∃ result, program = .done result := by
  cases program with
  | done result => exact .inr ⟨result, rfl⟩
  | broken panic => cases taken
  | never => cases taken
  | exhausted => cases taken
  | call effect next => exact .inl trivial
  | clock next => exact .inl trivial
  | sleep millis next => exact .inl trivial
  | launch names branch next => exact .inl trivial
  | receive channel interval next => exact .inl trivial

theorem answer_bind (ledger : Ledger) (program : Program W R) (next : R → Program W R)
    (first : Answer W R) (asks : program.Asks) :
    (program.bind next).answer ledger first =
      (program.answer ledger first).map fun reached => (reached.1, reached.2.bind next) := by
  cases program with
  | done result => exact asks.elim
  | broken panic => exact asks.elim
  | never => exact asks.elim
  | exhausted => exact asks.elim
  | call effect rest => cases first <;> rfl
  | clock rest => cases first <;> rfl
  | sleep millis rest => cases first <;> rfl
  | launch names branch rest => cases first <;> rfl
  | receive channel interval rest =>
      rcases first with _ | _ | _ | _ | ⟨branch, result⟩ | _ | _
      case delivered.report =>
        simp only [bind, answer]
        split <;> rfl
      all_goals rfl

theorem Yields.answer {ends : Attempt R → Prop} {ledger later : Ledger} {program next : Program W R}
    {first : Answer W R} (yields : program.Yields ends)
    (taken : program.answer ledger first = some (later, next)) : next.Yields ends := by
  cases program with
  | done result => cases taken
  | broken panic => cases taken
  | never => cases taken
  | exhausted => cases taken
  | call effect rest =>
      cases first <;> cases taken
      exact yields _ _
  | clock rest =>
      cases first <;> cases taken
      exact yields _
  | sleep millis rest =>
      cases first <;> cases taken
      exact yields
  | launch names branch rest =>
      cases first <;> cases taken
      exact yields _
  | receive channel interval rest =>
      rcases first with _ | _ | _ | _ | ⟨branch, result⟩ | _ | _
      case delivered.report =>
        simp only [Program.answer] at taken
        split at taken
        · cases taken
          exact yields _
        · cases taken
      all_goals cases taken
      all_goals exact yields _

theorem Yields.after {ends : Attempt R → Prop} (history : List (Answer W R)) :
    ∀ {ledger last : Ledger} {program final : Program W R}, program.Yields ends →
      program.after ledger history = some (last, final) → final.Yields ends := by
  induction history with
  | nil =>
      intro ledger last program final yields followed
      cases followed
      exact yields
  | cons first rest ih =>
      intro ledger last program final yields followed
      obtain ⟨later, next, taken, behind⟩ := after_cons_eq_some followed
      exact ih (yields.answer taken) behind

end Program

end FlowGraph
