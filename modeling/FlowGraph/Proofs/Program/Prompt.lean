import FlowGraph.Program.Scheduler
import FlowGraph.Proofs.Program.Follows

/-!
Programs that come to their result without waiting. They neither sleep nor start branches nor listen, so time
stands still while they run, and all that they leave behind is the world and how often the clock was asked.
-/

namespace FlowGraph.Program
variable {W R α : Type} {clock : Nat → Readings} {now : Nat}

/-- The program may come to this result without waiting, in some world and with some reading of the clock. -/
def MaySettle (clock : Nat → Readings) (now : Nat) : Program W R → R → Prop
  | .done result, settled => settled = result
  | .call effect next, settled => ∃ world, (next (effect now world).1).MaySettle clock now settled
  | .clock next, settled => ∃ asked, (next (clock asked)).MaySettle clock now settled
  | _, _ => False

/-- In every world and with every reading of the clock, the program comes to a result without waiting. -/
def Prompt (clock : Nat → Readings) (now : Nat) : Program W R → Prop
  | .done _ => True
  | .call effect next => ∀ world, (next (effect now world).1).Prompt clock now
  | .clock next => ∀ asked, (next (clock asked)).Prompt clock now
  | _ => False

theorem bind_done (program : Program W R) : program.bind .done = program := by
  induction program with
  | done result => rfl
  | call effect rest ih => exact congrArg (call effect) (funext ih)
  | clock rest ih => exact congrArg Program.clock (funext ih)
  | sleep millis rest ih => exact congrArg (sleep millis) (funext ih)
  | launch names branch rest _ ih => exact congrArg (launch names branch) (funext ih)
  | receive channel interval rest ih => exact congrArg (receive channel interval) (funext ih)
  | broken panic => rfl
  | never => rfl
  | exhausted => rfl

theorem MaySettle.of_bind {program : Program W R} {next : R → Program W R} {settled : R}
    (may : (program.bind next).MaySettle clock now settled) :
    ∃ result, program.MaySettle clock now result ∧ (next result).MaySettle clock now settled := by
  induction program with
  | done result => exact ⟨result, rfl, may⟩
  | call effect rest ih =>
      obtain ⟨world, may⟩ := may
      obtain ⟨result, first, last⟩ := ih _ may
      exact ⟨result, ⟨world, first⟩, last⟩
  | clock rest ih =>
      obtain ⟨asked, may⟩ := may
      obtain ⟨result, first, last⟩ := ih _ may
      exact ⟨result, ⟨asked, first⟩, last⟩
  | sleep => exact may.elim
  | launch => exact may.elim
  | receive => exact may.elim
  | broken => exact may.elim
  | never => exact may.elim
  | exhausted => exact may.elim

theorem MaySettle.of_perform {activity : Activity W α} {next : α → Program W R} {settled : R}
    (may : (perform activity next).MaySettle clock now settled) :
    ∃ value, activity.MayEnd (.ok value) ∧ (next value).MaySettle clock now settled := by
  induction activity with
  | done value => exact ⟨value, rfl, may⟩
  | call effect rest ih =>
      obtain ⟨world, may⟩ := may
      obtain ⟨value, first, last⟩ := ih _ may
      exact ⟨value, ⟨_, ⟨now, world, rfl⟩, first⟩, last⟩
  | sleep => exact may.elim
  | broken => exact may.elim
  | never => exact may.elim

theorem Prompt.advance {program : Program W R} (prompt : program.Prompt clock now) : ∀ (world : W) (asked : Nat),
    ∃ result view later, program.MaySettle clock now result ∧
      ∀ (machine : Machine W R) (next : R → Program W R),
        Machine.advance clock (program.bind next) { machine with time := now, world, asked } =
          Machine.advance clock (next result) { machine with time := now, world := view, asked := later } := by
  induction program with
  | done result => exact fun world asked => ⟨result, world, asked, rfl, fun _ _ => rfl⟩
  | call effect rest ih =>
      intro world asked
      obtain ⟨result, view, later, may, runs⟩ := ih _ (prompt world) (effect now world).2 asked
      exact ⟨result, view, later, ⟨world, may⟩, runs⟩
  | clock rest ih =>
      intro world asked
      obtain ⟨result, view, later, may, runs⟩ := ih _ (prompt asked) world (asked + 1)
      exact ⟨result, view, later, ⟨asked, may⟩, runs⟩
  | sleep => exact prompt.elim
  | launch => exact prompt.elim
  | receive => exact prompt.elim
  | broken => exact prompt.elim
  | never => exact prompt.elim
  | exhausted => exact prompt.elim

theorem Prompt.settles {program : Program W R} (prompt : program.Prompt clock now) (world : W) (asked : Nat) :
    ∃ result view later, program.MaySettle clock now result ∧ ∀ machine : Machine W R,
      Machine.advance clock program { machine with time := now, world, asked } =
        (.settled result, { machine with time := now, world := view, asked := later }) := by
  obtain ⟨result, view, later, may, runs⟩ := prompt.advance world asked
  refine ⟨result, view, later, may, fun machine => ?_⟩
  have whole := runs machine .done
  rwa [bind_done] at whole

end FlowGraph.Program
