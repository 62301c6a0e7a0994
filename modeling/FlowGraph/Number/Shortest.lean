import FlowGraph.Number.Binary32

/-!
The shortest decimal that rounds to a given number. Of several decimals with the fewest digits the
nearest one counts; a rule decides between two at the same distance.
-/

namespace FlowGraph

structure Decimal where
  digits : Nat
  exponent : Int
  deriving DecidableEq

namespace Decimal

def digitCount (n : Nat) : Nat := (Nat.toDigits 10 n).length

def stripped (digits : Nat) (exponent : Int) : (places : Nat) → Decimal
  | 0 => ⟨digits, exponent⟩
  | places + 1 =>
    if digits % 10 = 0 then stripped (digits / 10) (exponent + 1) places else ⟨digits, exponent⟩

def leading (x : Decimal) : Int := x.exponent + digitCount x.digits - 1

end Decimal

/-- Which of two neighbouring decimals counts when both are equally near. -/
inductive TieRule where
  | larger
  | even
  deriving DecidableEq

def TieRule.takesLower (tie : TieRule) (digits : Nat) : Bool :=
  match tie with
  | .larger => false
  | .even => digits % 2 == 0

def leadingPower (num den : Nat) : Int :=
  if den ≤ num then Decimal.digitCount (num / den) - 1
  else -(Decimal.digitCount ((den + num - 1) / num - 1) : Int)

/-- The numbers that round to a positive finite number, as fractions over `denominator`. -/
structure Neighbourhood where
  low : Nat
  centre : Nat
  high : Nat
  denominator : Nat
  closed : Bool

/-- The neighbourhood of `significand * 2 ^ scale`. The next number below is nearer at a power of two. -/
def Neighbourhood.around (significand : Nat) (scale : Int) (isPower : Bool) : Neighbourhood :=
  let unit := Nat.pow 2 scale.toNat
  { low := (4 * significand - if isPower then 1 else 2) * unit
    centre := 4 * significand * unit
    high := (4 * significand + 2) * unit
    denominator := 4 * Nat.pow 2 (-scale).toNat
    closed := significand % 2 = 0 }

def Neighbourhood.holds (around : Neighbourhood) (digits step grid : Nat) : Bool :=
  let point := digits * step * around.denominator
  if around.closed then around.low * grid ≤ point && point ≤ around.high * grid
  else around.low * grid < point && point < around.high * grid

/-- The decimal of at most `places` digits next to the centre, if one lies in the neighbourhood. -/
def Neighbourhood.decimal? (around : Neighbourhood) (tie : TieRule) (top : Int) (places : Nat) :
    Option Decimal :=
  let exponent := top - places + 1
  let step := Nat.pow 10 exponent.toNat
  let grid := Nat.pow 10 (-exponent).toNat
  let below := around.centre * grid / (step * around.denominator)
  let belowFits := around.holds below step grid
  let aboveFits := around.holds (below + 1) step grid
  let twiceCentre := 2 * around.centre * grid
  let middle := (2 * below + 1) * step * around.denominator
  let belowNearer :=
    twiceCentre < middle || (twiceCentre == middle && tie.takesLower below)
  if belowFits && (!aboveFits || belowNearer) then some ⟨below, exponent⟩
  else if aboveFits then some ⟨below + 1, exponent⟩
  else none

def decimalWithin (around : Neighbourhood) (tie : TieRule) (top : Int) (places : Nat) :
    (more : Nat) → Decimal
  | 0 => ⟨around.centre, 0⟩
  | more + 1 =>
    match around.decimal? tie top places with
    | some decimal => Decimal.stripped decimal.digits decimal.exponent 20
    | none => decimalWithin around tie top (places + 1) more

def Neighbourhood.shortest (around : Neighbourhood) (tie : TieRule) : Decimal :=
  decimalWithin around tie (leadingPower around.centre around.denominator) 1 17

def Binary64.shortest (x : Binary64) (tie : TieRule) : Decimal :=
  if x.isZero then ⟨0, 0⟩
  else
    let isPower := x.magnitude % fractionLimit = 0 && fractionLimit < x.magnitude
    (Neighbourhood.around x.significand x.scale isPower).shortest tie

def Binary32.shortest (x : Binary32) (tie : TieRule) : Decimal :=
  if x.magnitude = 0 then ⟨0, 0⟩
  else
    let isPower := x.magnitude % fractionLimit = 0 && fractionLimit < x.magnitude
    (Neighbourhood.around x.significand x.scale isPower).shortest tie

end FlowGraph
