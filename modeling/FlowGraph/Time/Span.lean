/-! Spans of time, exact to the nanosecond. -/

namespace FlowGraph

structure Span where
  seconds : Nat
  nanos : Nat
  nanos_lt : nanos < 1000000000 := by decide
  deriving DecidableEq

namespace Span

def ofMillis (millis : Nat) : Span where
  seconds := millis / 1000
  nanos := millis % 1000 * 1000000
  nanos_lt := by omega

/-- The seconds of a span must fit into 64 bits. -/
def ofParts? (seconds nanos : Nat) : Option Span :=
  let total := seconds + nanos / 1000000000
  if total < 0x10000000000000000 then some ⟨total, nanos % 1000000000, by omega⟩ else none

def toNanos (span : Span) : Nat := span.seconds * 1000000000 + span.nanos

def fraction (width value : Nat) : List Char :=
  let digits := Nat.toDigits 10 value
  let padded := List.replicate (width - digits.length) '0' ++ digits
  let kept := (padded.reverse.dropWhile (· == '0')).reverse
  if kept.isEmpty then [] else '.' :: kept

def withUnit (whole width part : Nat) (unit : String) : String :=
  toString whole ++ String.ofList (fraction width part) ++ unit

/-- The span in the largest unit that is not longer than it. -/
def text (span : Span) : String :=
  if 0 < span.seconds then withUnit span.seconds 9 span.nanos "s"
  else if 1000000 ≤ span.nanos then
    withUnit (span.nanos / 1000000) 6 (span.nanos % 1000000) "ms"
  else if 1000 ≤ span.nanos then withUnit (span.nanos / 1000) 3 (span.nanos % 1000) "µs"
  else withUnit span.nanos 0 0 "ns"

end Span

end FlowGraph
