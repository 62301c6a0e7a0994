/-!
Binary floating point numbers of 64 bits. A finite number is an integer significand times a power of
two, so rounding and comparison are exact integer arithmetic.
-/

namespace FlowGraph

structure Binary64 where
  bits : UInt64
  deriving DecidableEq

namespace Binary64

def signBit : Nat := 0x8000000000000000
def fractionLimit : Nat := 0x10000000000000
def infiniteMagnitude : Nat := 0x7FF0000000000000

def isNegative (x : Binary64) : Bool := signBit ≤ x.bits.toNat

def magnitude (x : Binary64) : Nat := x.bits.toNat % signBit

def isNaN (x : Binary64) : Bool := infiniteMagnitude < x.magnitude

def isFinite (x : Binary64) : Bool := x.magnitude < infiniteMagnitude

def isZero (x : Binary64) : Bool := x.magnitude == 0

def ofMagnitude (negative : Bool) (magnitude : Nat) : Binary64 :=
  ⟨.ofNat ((if negative then signBit else 0) + magnitude)⟩

def zero : Binary64 := ofMagnitude false 0
def infinity : Binary64 := ofMagnitude false infiniteMagnitude
def nan : Binary64 := ofMagnitude false (infiniteMagnitude + 0x8000000000000)

instance : Inhabited Binary64 := ⟨zero⟩

def neg (x : Binary64) : Binary64 := ofMagnitude (!x.isNegative) x.magnitude

instance : Neg Binary64 := ⟨neg⟩

def significand (x : Binary64) : Nat :=
  if x.magnitude < fractionLimit then x.magnitude else x.magnitude % fractionLimit + fractionLimit

def scale (x : Binary64) : Int := max (x.magnitude / fractionLimit) 1 - 1075

def roundDiv (num den : Nat) : Nat :=
  let quotient := num / den
  let twice := 2 * (num % den)
  if twice < den then quotient
  else if den < twice then quotient + 1
  else quotient + quotient % 2

def roundScaled (num den : Nat) (power : Int) : Nat :=
  if 0 ≤ power then roundDiv num (den * Nat.pow 2 power.toNat)
  else roundDiv (num * Nat.pow 2 (-power).toNat) den

def unitPower (num den : Nat) : Int :=
  let guess : Int := (num.log2 : Int) - den.log2 - 52
  let below :=
    if 0 ≤ guess then num < den * Nat.pow 2 (guess.toNat + 52)
    else num * Nat.pow 2 (-guess).toNat < den * fractionLimit
  max (if below then guess - 1 else guess) (-1074)

def ofRatio (negative : Bool) (num den : Nat) : Binary64 :=
  if num = 0 then ofMagnitude negative 0
  else
    let power := unitPower num den
    let magnitude := (power + 1074).toNat * fractionLimit + roundScaled num den power
    ofMagnitude negative (min magnitude infiniteMagnitude)

def ofNat (n : Nat) : Binary64 := ofRatio false n 1

def ofInt (n : Int) : Binary64 := ofRatio (n < 0) n.natAbs 1

def numerator (x : Binary64) : Nat := x.significand * Nat.pow 2 x.scale.toNat
def denominator (x : Binary64) : Nat := Nat.pow 2 (-x.scale).toNat

def mul (a b : Binary64) : Binary64 :=
  ofRatio (a.isNegative != b.isNegative) (a.numerator * b.numerator)
    (a.denominator * b.denominator)

def div (a b : Binary64) : Binary64 :=
  ofRatio (a.isNegative != b.isNegative) (a.numerator * b.denominator)
    (a.denominator * b.numerator)

def rank (x : Binary64) : Int := if x.isNegative then -(x.magnitude : Int) else x.magnitude

def lt (a b : Binary64) : Bool := !a.isNaN && !b.isNaN && a.rank < b.rank

def same (a b : Binary64) : Bool := !a.isNaN && !b.isNaN && a.rank == b.rank

end Binary64

end FlowGraph
