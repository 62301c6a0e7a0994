import FlowGraph.Json.Basic

/-!
Reading JSON texts. Containers nest at most 127 deep. The digits of a number count as long as they fit
into 64 bits; what follows only moves the point, and the power of ten is applied by rounding steps of
at most `1e308`.
-/

namespace FlowGraph.Json

def isSpace (c : Char) : Bool := c = ' ' || c = '\n' || c = '\t' || c = '\r'

def skipSpace (text : List Char) : List Char := text.dropWhile isSpace

def significandLimit : Nat := 0x10000000000000000

/-- Appends digits as long as the significand stays below the limit; also counts what it took. -/
def takeDigits (significand taken : Nat) : List Char → Nat × Nat
  | [] => (significand, taken)
  | digit :: rest =>
    let next := significand * 10 + (digit.toNat - '0'.toNat)
    if next < significandLimit then takeDigits next (taken + 1) rest else (significand, taken)

def powerOfTen (power : Nat) : Binary64 := .ofNat (Nat.pow 10 power)

def scaled (x : Binary64) (power : Int) : (rounds : Nat) → Option Binary64
  | 0 => some .zero
  | rounds + 1 =>
    if power.natAbs ≤ 308 then
      if 0 ≤ power then
        let product := x.mul (powerOfTen power.natAbs)
        if product.isFinite then some product else none
      else some (x.div (powerOfTen power.natAbs))
    else if x.isZero then some x
    else if 0 ≤ power then none
    else scaled (x.div (powerOfTen 308)) (power + 308) rounds

def signed (negative : Bool) (x : Binary64) : Binary64 := if negative then -x else x

def floatOf (negative : Bool) (significand : Nat) (power : Int) : Option Json :=
  (scaled (.ofNat significand) power 4).map fun x => .float (signed negative x)

def readExponent (text : List Char) : Option (Int × List Char) :=
  let (negative, text) :=
    match text with
    | '+' :: rest => (false, rest)
    | '-' :: rest => (true, rest)
    | _ => (false, text)
  let digits := text.takeWhile Char.isDigit
  if digits.isEmpty then none
  else
    let size : Int := digits.foldl (fun sum digit => sum * 10 + (digit.toNat - '0'.toNat)) 0
    some (if negative then -size else size, text.dropWhile Char.isDigit)

def finishFloat (negative : Bool) (significand : Nat) (power : Int) (text : List Char) :
    Option (Json × List Char) := do
  let (exponent, text) ←
    match text with
    | 'e' :: rest | 'E' :: rest => readExponent rest
    | _ => some (0, text)
  (floatOf negative significand (power + exponent)).map (·, text)

def wholeNumber (negative : Bool) (significand : Nat) : Json :=
  if !negative then .int significand
  else if significand = 0 || 0x8000000000000000 < significand then .float (-.ofNat significand)
  else .int (-significand)

def readUnsigned (negative : Bool) (text : List Char) : Option (Json × List Char) :=
  let digits := text.takeWhile Char.isDigit
  let rest := text.dropWhile Char.isDigit
  if digits.isEmpty || (digits.head? = some '0' && digits.length ≠ 1) then none
  else
    let (significand, taken) := takeDigits 0 0 digits
    let dropped : Int := digits.length - taken
    match rest with
    | '.' :: rest =>
      let digits := rest.takeWhile Char.isDigit
      let (significand, taken) := takeDigits significand 0 digits
      if digits.isEmpty then none
      else finishFloat negative significand (dropped - taken) (rest.dropWhile Char.isDigit)
    | 'e' :: _ | 'E' :: _ => finishFloat negative significand dropped rest
    | _ =>
      if dropped = 0 then some (wholeNumber negative significand, rest)
      else (floatOf negative significand dropped).map (·, rest)

def readNumber : List Char → Option (Json × List Char)
  | '-' :: rest => readUnsigned true rest
  | text => readUnsigned false text

def hexDigit (c : Char) : Option Nat :=
  if c.isDigit then some (c.toNat - '0'.toNat)
  else if 'a' ≤ c && c ≤ 'f' then some (c.toNat - 'a'.toNat + 10)
  else if 'A' ≤ c && c ≤ 'F' then some (c.toNat - 'A'.toNat + 10)
  else none

def hexNumber (digits : List Char) : Option Nat :=
  digits.foldlM (fun sum digit => (hexDigit digit).map (sum * 16 + ·)) 0

def namedEscape : Char → Option Char
  | '"' => some '"'
  | '\\' => some '\\'
  | '/' => some '/'
  | 'b' => some '\x08'
  | 'f' => some '\x0c'
  | 'n' => some '\n'
  | 'r' => some '\r'
  | 't' => some '\t'
  | _ => none

def paired (high low : Nat) : Option Char :=
  if 0xD800 ≤ high && high < 0xDC00 && 0xDC00 ≤ low && low < 0xE000 then
    some (.ofNat (0x10000 + (high - 0xD800) * 0x400 + (low - 0xDC00)))
  else none

def single (code : Nat) : Option Char :=
  if 0xD800 ≤ code && code < 0xE000 then none else some (.ofNat code)

def readString (done : List Char) : List Char → Option (String × List Char)
  | '"' :: rest => some (String.ofList done.reverse, rest)
  | '\\' :: 'u' :: a :: b :: c :: d :: '\\' :: 'u' :: e :: f :: g :: h :: rest =>
    match hexNumber [a, b, c, d] with
    | none => none
    | some code =>
      match single code with
      | some letter => readString (letter :: done) ('\\' :: 'u' :: e :: f :: g :: h :: rest)
      | none =>
        match (hexNumber [e, f, g, h]).bind (paired code) with
        | some letter => readString (letter :: done) rest
        | none => none
  | '\\' :: 'u' :: a :: b :: c :: d :: rest =>
    match (hexNumber [a, b, c, d]).bind single with
    | some letter => readString (letter :: done) rest
    | none => none
  | '\\' :: c :: rest =>
    match namedEscape c with
    | some letter => readString (letter :: done) rest
    | none => none
  | c :: rest => if c.toNat < 0x20 || c = '\\' then none else readString (c :: done) rest
  | [] => none
termination_by text => text.length

def readItems (item : List Char → Option (Json × List Char)) :
    (budget : Nat) → List Char → Option (List Json × List Char)
  | 0, _ => none
  | budget + 1, text => do
    let (value, text) ← item (skipSpace text)
    match skipSpace text with
    | ',' :: rest =>
      let (items, rest) ← readItems item budget rest
      some (value :: items, rest)
    | ']' :: rest => some ([value], rest)
    | _ => none

def readFields (item : List Char → Option (Json × List Char)) :
    (budget : Nat) → List Char → Option (List (String × Json) × List Char)
  | 0, _ => none
  | budget + 1, text => do
    let (name, text) ←
      match skipSpace text with
      | '"' :: rest => readString [] rest
      | _ => none
    let text ←
      match skipSpace text with
      | ':' :: rest => some rest
      | _ => none
    let (value, text) ← item (skipSpace text)
    match skipSpace text with
    | ',' :: rest =>
      let (fields, rest) ← readFields item budget rest
      some ((name, value) :: fields, rest)
    | '\x7d' :: rest => some ([(name, value)], rest)
    | _ => none

/-- One value that begins the text, with at most `nesting` containers around any part of it. -/
def readValue (nesting : Nat) (text : List Char) : Option (Json × List Char) :=
  match text with
  | 'n' :: 'u' :: 'l' :: 'l' :: rest => some (.null, rest)
  | 't' :: 'r' :: 'u' :: 'e' :: rest => some (.bool true, rest)
  | 'f' :: 'a' :: 'l' :: 's' :: 'e' :: rest => some (.bool false, rest)
  | '"' :: rest => (readString [] rest).map fun (value, rest) => (.string value, rest)
  | '[' :: rest =>
    match nesting with
    | 0 => none
    | nesting + 1 =>
      match skipSpace rest with
      | ']' :: rest => some (.array [], rest)
      | _ =>
        (readItems (readValue nesting) rest.length rest).map fun (items, rest) =>
          (.array items, rest)
  | '\x7b' :: rest =>
    match nesting with
    | 0 => none
    | nesting + 1 =>
      match skipSpace rest with
      | '\x7d' :: rest => some (.object [], rest)
      | _ =>
        (readFields (readValue nesting) rest.length rest).map fun (fields, rest) =>
          (ofFields fields, rest)
  | _ => readNumber text

def read (text : String) : Option Json :=
  match readValue 127 (skipSpace text.toList) with
  | some (value, rest) => if (skipSpace rest).isEmpty then some value else none
  | none => none

end FlowGraph.Json
