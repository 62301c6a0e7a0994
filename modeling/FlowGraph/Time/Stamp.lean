import FlowGraph.Text.Blank
import FlowGraph.Time.Instant

/-!
Texts of instants such as `2020-01-02T03:04:05.5Z`. Written texts are in universal time; texts to read
may have blanks between their parts, any offset, and years of any length after a sign.
-/

namespace FlowGraph.Instant

def padded (width n : Nat) : List Char :=
  let digits := Nat.toDigits 10 n
  List.replicate (width - digits.length) '0' ++ digits

def yearText (year : Int) : List Char :=
  if 0 ≤ year && year ≤ 9999 then padded 4 year.toNat
  else (if year < 0 then '-' else '+') :: padded 4 year.natAbs

def fractionText (nanos : Nat) : List Char :=
  if nanos = 0 then []
  else if nanos % 1000000 = 0 then '.' :: padded 3 (nanos / 1000000)
  else if nanos % 1000 = 0 then '.' :: padded 6 (nanos / 1000)
  else '.' :: padded 9 nanos

def stamp (instant : Instant) : String :=
  let day := CalendarDay.ofDays (instant.seconds.fdiv 86400)
  let second := (instant.seconds - instant.seconds.fdiv 86400 * 86400).toNat
  let leap := instant.nanos / 1000000000
  String.ofList <|
    yearText day.year ++ ['-'] ++ padded 2 day.month ++ ['-'] ++ padded 2 day.day ++ ['T'] ++
      padded 2 (second / 3600) ++ [':'] ++ padded 2 (second / 60 % 60) ++ [':'] ++
      padded 2 (second % 60 + leap) ++ fractionText (instant.nanos % 1000000000) ++ ['Z']

def digitsValue (digits : List Char) : Nat :=
  digits.foldl (fun sum digit => sum * 10 + (digit.toNat - '0'.toNat)) 0

def readNumber (width : Nat) (text : List Char) : Option (Nat × List Char) :=
  let digits := (text.take width).takeWhile Char.isDigit
  if digits.isEmpty then none else some (digitsValue digits, text.drop digits.length)

def readField (low high : Nat) (text : List Char) : Option (Nat × List Char) := do
  let (value, rest) ← readNumber 2 (Text.trimStartChars text)
  if low ≤ value && value ≤ high then some (value, rest) else none

/-- A year: four digits at most, or any number of them after a sign. -/
def readYear (text : List Char) : Option (Int × List Char) :=
  match Text.trimStartChars text with
  | '-' :: rest => (readNumber rest.length rest).map fun (year, rest) => (-year, rest)
  | '+' :: rest => (readNumber rest.length rest).map fun (year, rest) => (year, rest)
  | text => (readNumber 4 text).map fun (year, rest) => (year, rest)

def skipMark (mark : Char) (text : List Char) : Option (List Char) :=
  match Text.trimStartChars text with
  | c :: rest => if c = mark then some rest else none
  | [] => none

def readFraction : List Char → Option (Nat × List Char)
  | '.' :: text => do
    let (value, _) ← readNumber 9 text
    let count := ((text.take 9).takeWhile Char.isDigit).length
    some (value * Nat.pow 10 (9 - count), text.dropWhile Char.isDigit)
  | text => some (0, text)

def skipOffsetMarks (text : List Char) : List Char :=
  text.dropWhile fun c => c = ':' || Text.isBlank c

def readOffsetSize (text : List Char) : Option (Nat × List Char) := do
  let hours := (text.take 2).takeWhile Char.isDigit
  let text := skipOffsetMarks (text.drop 2)
  let minutes := (text.take 2).takeWhile Char.isDigit
  if hours.length = 2 && minutes.length = 2 && digitsValue minutes < 60 &&
      digitsValue hours < 24 then
    some (digitsValue hours * 3600 + digitsValue minutes * 60, text.drop 2)
  else none

def readOffset : List Char → Option (Int × List Char)
  | 'Z' :: rest | 'z' :: rest => some (0, rest)
  | '+' :: rest => (readOffsetSize rest).map fun (size, rest) => ((size : Int), rest)
  | '-' :: rest | '\u2212' :: rest =>
    (readOffsetSize rest).map fun (size, rest) => (-(size : Int), rest)
  | a :: b :: c :: rest =>
    if [a.toUpper, b.toUpper, c.toUpper] = ['U', 'T', 'C'] then some (0, rest) else none
  | _ => none

def ofStamp (text : String) : Option Instant := do
  let (year, text) ← readYear text.toList
  let (month, text) ← readField 1 12 (← skipMark '-' text)
  let (day, text) ← readField 1 31 (← skipMark '-' text)
  let text ←
    match text with
    | 'T' :: rest | 't' :: rest | ' ' :: rest => some rest
    | _ => none
  let (hour, text) ← readField 0 23 text
  let (minute, text) ← readField 0 59 (← skipMark ':' text)
  let (second, text) ← readField 0 60 (← skipMark ':' text)
  let (nanos, text) ← readFraction text
  let (offset, text) ← readOffset (Text.trimStartChars text)
  let date : CalendarDay := ⟨year, month, day⟩
  let clock : Int := hour * 3600 + minute * 60 + min second 59
  let localTime : Instant :=
    ⟨date.toDays * 86400 + clock, nanos + (if second = 60 then 1000000000 else 0)⟩
  let instant : Instant := ⟨localTime.seconds - offset, localTime.nanos⟩
  if date.valid && localTime.inCalendar && instant.inCalendar && text.all Text.isBlank then
    some instant
  else none

end FlowGraph.Instant
