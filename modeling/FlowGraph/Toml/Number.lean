import FlowGraph.Json.Reader
import FlowGraph.Time.Stamp

/-!
Numbers, dates and times in TOML texts. Integers must fit into 64 bits. A date or time is an object whose
only field holds its text.
-/

namespace FlowGraph.Toml

def takeDigits (isDigit : Char → Bool) : List Char → List Char × List Char
  | '_' :: c :: rest =>
    if isDigit c then
      let (digits, rest) := takeDigits isDigit rest
      (c :: digits, rest)
    else ([], '_' :: c :: rest)
  | c :: rest =>
    if isDigit c then
      let (digits, rest) := takeDigits isDigit rest
      (c :: digits, rest)
    else ([], c :: rest)
  | [] => ([], [])

def readDigits (isDigit : Char → Bool) (text : List Char) : Option (List Char × List Char) :=
  if text.head?.any isDigit then some (takeDigits isDigit text) else none

def integer (value : Int) : Option Json :=
  if -0x8000000000000000 ≤ value && value < 0x8000000000000000 then some (.int value) else none

def readInBase (base : Nat) (text : List Char) : Option (Json × List Char) := do
  let isDigit (c : Char) : Bool := (Json.hexDigit c).any (· < base)
  let (digits, text) ← readDigits isDigit text
  let value := digits.foldl (fun sum c => sum * base + ((Json.hexDigit c).getD 0)) 0
  some (← integer value, text)

/-- Digits times a power of ten. Very large and very small powers settle the value by themselves. -/
def decimalFloat (negative : Bool) (digits : List Char) (power : Int) : Binary64 :=
  let significand := Instant.digitsValue digits
  let size := digits.length + power
  if significand = 0 || size < -400 then .ofRatio negative 0 1
  else if 0 ≤ power then
    if 400 < power then Json.signed negative .infinity
    else .ofRatio negative (significand * Nat.pow 10 power.toNat) 1
  else .ofRatio negative significand (Nat.pow 10 (-power).toNat)

def readPower : List Char → Option (Int × List Char)
  | 'e' :: text | 'E' :: text => do
    let (negative, text) :=
      match text with
      | '+' :: rest => (false, rest)
      | '-' :: rest => (true, rest)
      | _ => (false, text)
    let (digits, text) ← readDigits Char.isDigit text
    let power : Int := Instant.digitsValue digits
    some (if negative then -power else power, text)
  | text => some (0, text)

/-- A number behind its sign. Only a negative one may be infinite by its size. -/
def readUnsigned (negative : Bool) : List Char → Option (Json × List Char)
  | 'i' :: 'n' :: 'f' :: rest => some (.float (Json.signed negative .infinity), rest)
  | 'n' :: 'a' :: 'n' :: rest => some (.float .nan, rest)
  | text => do
    let (whole, text) ←
      match text with
      | '0' :: rest => some (['0'], rest)
      | _ => readDigits Char.isDigit text
    let float (fraction text : List Char) : Option (Json × List Char) := do
      let (power, text) ← readPower text
      let value := decimalFloat negative (whole ++ fraction) (power - fraction.length)
      if value = .infinity then none else some (.float value, text)
    match text with
    | '.' :: rest =>
      let (fraction, rest) ← readDigits Char.isDigit rest
      float fraction rest
    | 'e' :: _ | 'E' :: _ => float [] text
    | _ =>
      let value : Int := Instant.digitsValue whole
      some (← integer (if negative then -value else value), text)

def readPart (width low high : Nat) (text : List Char) : Option (Nat × List Char) :=
  let digits := text.take width
  let value := Instant.digitsValue digits
  if digits.length = width && digits.all Char.isDigit && low ≤ value && value ≤ high then
    some (value, text.drop width)
  else none

def skipMark (mark : Char) : List Char → Option (List Char)
  | c :: rest => if c = mark then some rest else none
  | [] => none

def skipDate (text : List Char) : Option (List Char) := do
  let (year, text) ← readPart 4 0 9999 text
  let (month, text) ← readPart 2 1 12 (← skipMark '-' text)
  let (day, text) ← readPart 2 1 31 (← skipMark '-' text)
  if (⟨year, month, day⟩ : CalendarDay).valid then some text else none

def skipFraction : List Char → List Char
  | '.' :: c :: rest => if c.isDigit then rest.dropWhile Char.isDigit else '.' :: c :: rest
  | text => text

def skipTime (text : List Char) : Option (List Char) := do
  let (_, text) ← readPart 2 0 23 text
  let (_, text) ← readPart 2 0 59 (← skipMark ':' text)
  let (_, text) ← readPart 2 0 60 (← skipMark ':' text)
  some (skipFraction text)

def skipOffset : List Char → Option (List Char)
  | 'Z' :: rest | 'z' :: rest => some rest
  | '+' :: text | '-' :: text => do
    let (_, text) ← readPart 2 0 23 text
    let (_, text) ← readPart 2 0 59 (← skipMark ':' text)
    some text
  | _ => none

def skipTimeOfDate (text : List Char) : List Char :=
  match text with
  | 'T' :: rest | 't' :: rest | ' ' :: rest =>
    match skipTime rest with
    | some rest => (skipOffset rest).getD rest
    | none => text
  | _ => text

def skipMoment (text : List Char) : Option (List Char) :=
  match skipDate text with
  | some rest => some (skipTimeOfDate rest)
  | none => skipTime text

def moment (text : List Char) : Json := .object [("moment", .string (String.ofList text))]

def readNumber (text : List Char) : Option (Json × List Char) :=
  match skipMoment text with
  | some rest => some (moment (text.take (text.length - rest.length)), rest)
  | none =>
    match text with
    | '0' :: 'x' :: rest => readInBase 16 rest
    | '0' :: 'o' :: rest => readInBase 8 rest
    | '0' :: 'b' :: rest => readInBase 2 rest
    | '+' :: rest => readUnsigned false rest
    | '-' :: rest => readUnsigned true rest
    | _ => readUnsigned false text

end FlowGraph.Toml
