/-!
Instants of universal time and the calendar. Seconds count from the beginning of 1970; a leap second
is the second before it with more than `10^9` nanoseconds.
-/

namespace FlowGraph

structure Instant where
  seconds : Int
  nanos : Nat
  deriving DecidableEq, Inhabited

namespace Instant

def before (a b : Instant) : Bool := a.seconds < b.seconds || (a.seconds == b.seconds && a.nanos < b.nanos)

def later (a b : Instant) : Instant := if a.before b then b else a

end Instant

structure CalendarDay where
  year : Int
  month : Nat
  day : Nat
  deriving DecidableEq

namespace CalendarDay

def isLeapYear (year : Int) : Bool := year % 4 == 0 && (year % 100 != 0 || year % 400 == 0)

def monthLength (year : Int) (month : Nat) : Nat :=
  if month = 2 then (if isLeapYear year then 29 else 28)
  else if month = 4 || month = 6 || month = 9 || month = 11 then 30
  else 31

def valid (date : CalendarDay) : Bool :=
  1 ≤ date.month && date.month ≤ 12 && 1 ≤ date.day && date.day ≤ monthLength date.year date.month

/-- Days since the first of January 1970. Years are counted from March, so a leap day ends its year. -/
def toDays (date : CalendarDay) : Int :=
  let year := if date.month ≤ 2 then date.year - 1 else date.year
  let era := year.fdiv 400
  let yearOfEra := year - era * 400
  let month := if date.month ≤ 2 then date.month + 9 else date.month - 3
  let dayOfYear : Int := (153 * month + 2) / 5 + date.day - 1
  era * 146097 + yearOfEra * 365 + yearOfEra.fdiv 4 - yearOfEra.fdiv 100 + dayOfYear - 719468

def ofDays (days : Int) : CalendarDay :=
  let shifted := days + 719468
  let era := shifted.fdiv 146097
  let dayOfEra := shifted - era * 146097
  let yearOfEra :=
    (dayOfEra - dayOfEra.fdiv 1460 + dayOfEra.fdiv 36524 - dayOfEra.fdiv 146096).fdiv 365
  let dayOfYear := (dayOfEra - (365 * yearOfEra + yearOfEra.fdiv 4 - yearOfEra.fdiv 100)).toNat
  let month := (5 * dayOfYear + 2) / 153
  let day := dayOfYear - (153 * month + 2) / 5 + 1
  let year := yearOfEra + era * 400
  if month < 10 then ⟨year, month + 3, day⟩ else ⟨year + 1, month - 9, day⟩

end CalendarDay

def Instant.inCalendar (instant : Instant) : Bool :=
  let year := (CalendarDay.ofDays (instant.seconds.fdiv 86400)).year
  year ≤ 262142 && -262143 ≤ year

end FlowGraph
