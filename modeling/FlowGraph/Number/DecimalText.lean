import FlowGraph.Number.Shortest

/-! Texts of floating point numbers: the shortest digits, laid out in one of three styles. -/

namespace FlowGraph

structure DecimalStyle where
  /-- Whether a number with its leading digit at this power of ten is written without an exponent. -/
  positional : Int → Bool
  pointZero : Bool
  exponentPlus : Bool
  tie : TieRule

namespace DecimalStyle

def plain : DecimalStyle where
  positional _ := true
  pointZero := false
  exponentPlus := false
  tie := .larger

def described : DecimalStyle where
  positional power := -4 ≤ power && power ≤ 15
  pointZero := true
  exponentPlus := false
  tie := .larger

def data : DecimalStyle where
  positional power := -5 ≤ power && power ≤ 15
  pointZero := true
  exponentPlus := true
  tie := .even

def zeros (count : Int) : List Char := List.replicate count.toNat '0'

def positionalText (style : DecimalStyle) (x : Decimal) : List Char :=
  let digits := Nat.toDigits 10 x.digits
  if 0 ≤ x.exponent then
    digits ++ zeros x.exponent ++ (if style.pointZero then ['.', '0'] else [])
  else if 0 ≤ x.leading then
    digits.take (x.leading.toNat + 1) ++ ['.'] ++ digits.drop (x.leading.toNat + 1)
  else ['0', '.'] ++ zeros (-x.leading - 1) ++ digits

def exponentText (style : DecimalStyle) (x : Decimal) : List Char :=
  let digits := Nat.toDigits 10 x.digits
  let plus := if style.exponentPlus && 0 ≤ x.leading then ['+'] else []
  digits.take 1 ++ (if digits.length = 1 then [] else ['.'] ++ digits.drop 1) ++ ['e'] ++ plus ++
    (toString x.leading).toList

def magnitudeText (style : DecimalStyle) (x : Decimal) : List Char :=
  if x.digits = 0 || style.positional x.leading then style.positionalText x else style.exponentText x

def signedText (style : DecimalStyle) (negative : Bool) (magnitude : Option Decimal) : String :=
  let sign := if negative then ['-'] else []
  let body :=
    match magnitude with
    | some decimal => style.magnitudeText decimal
    | none => ['i', 'n', 'f']
  String.ofList (sign ++ body)

def text (style : DecimalStyle) (x : Binary64) : String :=
  if x.isNaN then "NaN"
  else style.signedText x.isNegative (if x.isFinite then some (x.shortest style.tie) else none)

def text32 (style : DecimalStyle) (x : Binary32) : String :=
  if x.widen.isNaN then "NaN"
  else style.signedText x.isNegative (if x.isFinite then some (x.shortest style.tie) else none)

end DecimalStyle

end FlowGraph
