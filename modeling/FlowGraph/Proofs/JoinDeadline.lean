import FlowGraph.Proofs.Fork.Punctual
import FlowGraph.Proofs.Program.Chronicle

/-!
A waiting join neither gives up early nor waits forever. The bounds hold for every transcript with times, and every
strand of a run lives along one of those.
-/

namespace FlowGraph.Engine
variable {W S : Type}

/-- A fork never times out before its timeout has passed since it started, and it fails with that timeout and the
node at which its first branch joined. If its branches report on a channel, then it is decided one interval behind
the timeout at the latest, provided that this was known in time. As long as it waits it does nothing but to look at
its deadline and to listen for one interval, in turn.

The second half is why this covers all runs: whatever they come to, each of their strands has lived along such a
transcript and is not overdue, and so has one that comes to its end. -/
theorem waiting_join_is_punctual (engine : Engine W S) (branch : Snapshot S → Program W (Outcome S)) (room : Nat)
    (request : ForkRequest S) (next : Snapshot S → Program W (Outcome S)) (timers : engine.timers = none) :
    (∀ k started later history final,
      Program.Lives started ((engine.fork branch room request next).bind k) history later final →
        Fares engine request next k started room (HeardBy branch request started) (engine.Awaits branch request)
          started (engine.fork branch room request next) later final history) ∧
    ∀ {ρ : Type} (attached : Bool) (clock : Nat → Readings) (close : Outcome S → Effect W ρ) (world : W)
      (root : Program W (Outcome S)) (rounds : Nat),
      let machine := (Machine.round attached clock close)^[rounds] (.start world root)
      (∀ strand ∈ machine.strands, strand.Alive root machine.time) ∧
        ∀ strand ready result, machine.ready = strand :: ready →
          (Machine.resume clock strand.wait { machine with ready }).1 = .settled result →
            root.Reaches machine.time (.done result) := by
  constructor
  · intro k started later history final lives
    exact fork_fares timers branch room lives
  · intro ρ attached clock close world root rounds machine
    have chronicled := Machine.chronicled_rounds attached clock close world root rounds
    refine ⟨fun strand member => chronicled.alive member, ?_⟩
    intro strand ready result queue settled
    have halts := (chronicled.turn queue clock).1
    rwa [settled] at halts

section
def impatient : Engine Unit Unit := { plainEngine with config := { defaultJoinTimeout := 40 } }

/-- The fork starts two branches and looks at its deadline after 0, 25 and 50 milliseconds. -/
def silentHistory : List (TimedAnswer Unit (Outcome Unit)) :=
  [(0, .called 0 ()), (0, .read default), (0, .called 0 ()), (0, .called 0 ()), (0, .launched 0),
    (0, .called 0 ()), (25, .delivered .quiet), (25, .called 25 ()), (50, .delivered .quiet), (50, .called 50 ())]

theorem silentHistory_lives :
    Program.Lives 0 ((impatient.fork (fun _ => .never) 3 pairFork (.done <| .completed ·)).bind .done)
      silentHistory 50 (.done (.failed (.joinTimeout firstTarget (.ofMillis 40)) (some atFirst))) := by
  rw [fork_startBranches (by decide), Program.bind_done]
  refine .call (.clock (.call (.call (.launch ?_))))
  rw [gather_waiting rfl _ _ _ _ _ rfl]
  refine .call (.receive (by decide) (by decide) ?_)
  rw [heard, gather_waiting rfl _ _ _ _ _ rfl]
  refine .call (.receive (by decide) (by decide) ?_)
  rw [heard, gather_waiting rfl _ _ _ _ _ rfl]
  exact .call (.still 50 _)

theorem silent_pair_times_out :
    impatient.timers = none ∧
      Fares impatient pairFork (.done <| .completed ·) .done 0 3 (HeardBy (fun _ => .never) pairFork 0)
        (impatient.Awaits (fun _ => .never) pairFork) 0
          (impatient.fork (fun _ => .never) 3 pairFork (.done <| .completed ·)) 50
        (.done (.failed (.joinTimeout firstTarget (.ofMillis 40)) (some atFirst))) silentHistory :=
  ⟨rfl, (waiting_join_is_punctual impatient (fun _ => .never) 3 pairFork (.done <| .completed ·) rfl).1 _ _ _ _ _
    silentHistory_lives⟩
end

end FlowGraph.Engine
