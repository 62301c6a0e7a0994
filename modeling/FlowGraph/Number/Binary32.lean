import FlowGraph.Number.Binary64

/-!
Binary floating point numbers of 32 bits. Each of them is a number of 64 bits as well; the other way,
numbers are rounded.
-/

namespace FlowGraph

structure Binary32 where
  bits : UInt32
  deriving DecidableEq

namespace Binary32

def signBit : Nat := 0x80000000
def fractionLimit : Nat := 0x800000
def infiniteMagnitude : Nat := 0x7F800000

def fractionUnit : Nat := 0x20000000

def exponentShift : Nat := 896 * Binary64.fractionLimit

def isNegative (x : Binary32) : Bool := signBit ≤ x.bits.toNat

def magnitude (x : Binary32) : Nat := x.bits.toNat % signBit

def ofMagnitude (negative : Bool) (magnitude : Nat) : Binary32 :=
  ⟨.ofNat ((if negative then signBit else 0) + magnitude)⟩

/-- A finite number is `significand * 2 ^ scale` up to its sign. -/
def significand (x : Binary32) : Nat :=
  if x.magnitude < fractionLimit then x.magnitude else x.magnitude % fractionLimit + fractionLimit

def scale (x : Binary32) : Int := max (x.magnitude / fractionLimit) 1 - 150

/-- The magnitude of the same number with 64 bits. A number below the least normal one is normal there. -/
def wideMagnitude (magnitude : Nat) : Nat :=
  if infiniteMagnitude ≤ magnitude then
    Binary64.infiniteMagnitude + (magnitude - infiniteMagnitude) * fractionUnit
  else if fractionLimit ≤ magnitude then magnitude * fractionUnit + exponentShift
  else if magnitude = 0 then 0
  else (magnitude.log2 + 873) * Binary64.fractionLimit + magnitude * Nat.pow 2 (52 - magnitude.log2)

def widen (x : Binary32) : Binary64 := .ofMagnitude x.isNegative (wideMagnitude x.magnitude)

def isFinite (x : Binary32) : Bool := x.widen.isFinite

/-- The magnitude of the nearest number. Numbers beyond the largest one become infinite. -/
def nearestMagnitude (x : Binary64) : Nat :=
  if x.isNaN then infiniteMagnitude + 0x400000
  else if exponentShift + Binary64.fractionLimit ≤ x.magnitude then
    min (Binary64.roundDiv (x.magnitude - exponentShift) fractionUnit) infiniteMagnitude
  else Binary64.roundDiv x.significand (Nat.pow 2 (-149 - x.scale).toNat)

def narrow (x : Binary64) : Binary32 := ofMagnitude x.isNegative (nearestMagnitude x)

def ofInt (n : Int) : Binary32 :=
  let digits := n.natAbs.log2
  let significand :=
    if digits ≤ 23 then n.natAbs * Nat.pow 2 (23 - digits)
    else Binary64.roundDiv n.natAbs (Nat.pow 2 (digits - 23))
  let magnitude := if n = 0 then 0 else (digits + 126) * fractionLimit + significand
  ofMagnitude (n < 0) (min magnitude infiniteMagnitude)

def same (a b : Binary32) : Bool := a.widen.same b.widen

end Binary32

end FlowGraph
