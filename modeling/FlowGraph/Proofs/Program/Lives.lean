import FlowGraph.Proofs.Program.Transcript

/-!
Transcripts with times. A program is answered at once, but for its sleep, which takes as long as it says, and for
what it receives, which comes within the interval.
-/

namespace FlowGraph

abbrev TimedAnswer (W R : Type) := Nat × Answer W R

def TimedAnswer.report? {W R : Type} (answer : TimedAnswer W R) : Option (Nat × NodeId × R) :=
  answer.2.report?.map fun report => (answer.1, report)

namespace Program
variable {W R : Type}

/-- From a time on the program gets these answers, with the last of which it stands at another one. -/
inductive Lives : (now : Nat) → Program W R → List (TimedAnswer W R) → (later : Nat) → Program W R → Prop where
  | still (now : Nat) (program : Program W R) : Lives now program [] now program
  | call {now later : Nat} {β : Type} {effect : Effect W β} {next : β → Program W R} {world : W}
      {history : List (TimedAnswer W R)} {final : Program W R}
      (rest : Lives now (next (effect now world).1) history later final) :
      Lives now (.call effect next) ((now, .called now world) :: history) later final
  | clock {now later : Nat} {next : Readings → Program W R} {readings : Readings}
      {history : List (TimedAnswer W R)} {final : Program W R}
      (rest : Lives now (next readings) history later final) :
      Lives now (.clock next) ((now, .read readings) :: history) later final
  | sleep {now later millis : Nat} {next : Unit → Program W R} {history : List (TimedAnswer W R)}
      {final : Program W R} (rest : Lives (now + millis) (next ()) history later final) :
      Lives now (.sleep millis next) ((now + millis, .woken) :: history) later final
  | launch {now later channel : Nat} {names : List NodeId} {branch : Nat → NodeId → Program W R}
      {next : Nat → Program W R} {history : List (TimedAnswer W R)} {final : Program W R}
      (rest : Lives now (next channel) history later final) :
      Lives now (.launch names branch next) ((now, .launched channel) :: history) later final
  | receive {now time later channel interval : Nat} {next : Delivery R → Program W R} {delivery : Delivery R}
      {history : List (TimedAnswer W R)} {final : Program W R} (after : now ≤ time)
      (inTime : time ≤ now + interval) (rest : Lives time (next delivery) history later final) :
      Lives now (.receive channel interval next) ((time, .delivered delivery) :: history) later final

/-- When at the latest the program gets its answer, if it asks now. -/
def due (now : Nat) : Program W R → Nat
  | sleep millis _ => now + millis
  | receive _ interval _ => now + interval
  | _ => now

namespace Lives
variable {now middle later : Nat} {program between final : Program W R} {history behind : List (TimedAnswer W R)}

theorem append (first : Lives now program history middle between) :
    Lives middle between behind later final → Lives now program (history ++ behind) later final := by
  intro second
  induction first with
  | still now program => exact second
  | call _ ih => exact .call (ih second)
  | clock _ ih => exact .clock (ih second)
  | sleep _ ih => exact .sleep (ih second)
  | launch _ ih => exact .launch (ih second)
  | receive after inTime _ ih => exact .receive after inTime (ih second)

theorem bind (lives : Lives now program history later final) (next : R → Program W R) :
    Lives now (program.bind next) history later (final.bind next) := by
  induction lives with
  | still now program => exact .still now _
  | call _ ih => exact .call ih
  | clock _ ih => exact .clock ih
  | sleep _ ih => exact .sleep ih
  | launch _ ih => exact .launch ih
  | receive after inTime _ ih => exact .receive after inTime ih

end Lives

/-- A life of a program with a continuation: the program has come to its result and the continuation goes on, or
the program is still under way. -/
inductive Parts (next : R → Program W R) (now : Nat) (program : Program W R) (later : Nat) (final : Program W R) :
    List (TimedAnswer W R) → Prop where
  | ended {own behind : List (TimedAnswer W R)} {middle : Nat} {result : R}
      (lives : Lives now program own middle (.done result))
      (onward : Lives middle (next result) behind later final) :
      Parts next now program later final (own ++ behind)
  | underWay {history : List (TimedAnswer W R)} {reached : Program W R}
      (lives : Lives now program history later reached) (unfinished : ∀ result, reached ≠ .done result)
      (same : final = reached.bind next) :
      Parts next now program later final history

section
variable {next : R → Program W R} {now middle later : Nat} {program between final : Program W R}
  {answer : TimedAnswer W R} {history : List (TimedAnswer W R)}

theorem Parts.here (unfinished : ∀ result, program ≠ .done result) :
    Parts next now program now (program.bind next) [] := .underWay (.still now program) unfinished rfl

theorem Parts.behind (parts : Parts next middle between later final history)
    (lives : Lives now program [answer] middle between) :
    Parts next now program later final (answer :: history) := by
  cases parts with
  | ended first onward => exact .ended (lives.append first) onward
  | underWay first unfinished same => exact .underWay (lives.append first) unfinished same

end

theorem lives_bind {next : R → Program W R} (program : Program W R) :
    ∀ {now later : Nat} {history : List (TimedAnswer W R)} {final : Program W R},
      Lives now (program.bind next) history later final → Parts next now program later final history := by
  induction program with
  | done result =>
      intro now later history final lives
      exact .ended (.still now _) lives
  | call effect rest ih =>
      intro now later history final lives
      cases lives with
      | still => exact .here nofun
      | call onward => exact (ih _ onward).behind (.call (.still now _))
  | clock rest ih =>
      intro now later history final lives
      cases lives with
      | still => exact .here nofun
      | clock onward => exact (ih _ onward).behind (.clock (.still now _))
  | sleep millis rest ih =>
      intro now later history final lives
      cases lives with
      | still => exact .here nofun
      | sleep onward => exact (ih _ onward).behind (.sleep (.still _ _))
  | launch names branch rest _ ih =>
      intro now later history final lives
      cases lives with
      | still => exact .here nofun
      | launch onward => exact (ih _ onward).behind (.launch (.still now _))
  | receive channel interval rest ih =>
      intro now later history final lives
      cases lives with
      | still => exact .here nofun
      | receive after inTime onward => exact (ih _ onward).behind (.receive after inTime (.still _ _))
  | broken panic =>
      intro now later history final lives
      cases lives with
      | still => exact .here nofun
  | never =>
      intro now later history final lives
      cases lives with
      | still => exact .here nofun
  | exhausted =>
      intro now later history final lives
      cases lives with
      | still => exact .here nofun

end Program
end FlowGraph
