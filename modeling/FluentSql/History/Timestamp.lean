import FluentSql.Calendar
import FluentSql.Number.Numeral
import FluentSql.Text.Blank

/-!
# Points in time

A point in time is a date and a time of day in UTC, with a fraction down to nanoseconds. A minute
may have a leap second, number 60. Texts follow RFC 3339, and blanks between the parts are read.
-/

namespace FluentSql

/-- A point in time, in UTC. -/
structure Timestamp where
  /-- The year. -/
  year : Int
  /-- The month, from 1. -/
  month : Nat
  /-- The day of the month, from 1. -/
  day : Nat
  /-- The hour. -/
  hour : Nat
  /-- The minute. -/
  minute : Nat
  /-- The second, up to 60. -/
  second : Nat
  /-- The nanoseconds after the second. -/
  nanos : Nat
deriving DecidableEq

namespace Timestamp

/-- The first year that can be told. -/
def minYear : Int := -262143

/-- The last year that can be told. -/
def maxYear : Int := 262142

/-- All parts are in range. -/
def isValid (t : Timestamp) : Bool :=
  minYear ≤ t.year && t.year ≤ maxYear && Calendar.isDate t.year t.month t.day && t.hour < 24 &&
    t.minute < 60 && t.second ≤ 60 && t.nanos < 1000000000

/-- The same time on the next day. -/
def nextDay (t : Timestamp) : Timestamp :=
  if t.day < Calendar.daysInMonth t.year t.month then { t with day := t.day + 1 }
  else if t.month < 12 then { t with month := t.month + 1, day := 1 }
  else { t with year := t.year + 1, month := 1, day := 1 }

/-- The same time on the day before. -/
def previousDay (t : Timestamp) : Timestamp :=
  if 1 < t.day then { t with day := t.day - 1 }
  else if 1 < t.month then
    { t with month := t.month - 1, day := Calendar.daysInMonth t.year (t.month - 1) }
  else { t with year := t.year - 1, month := 12, day := 31 }

/-- The time with the minutes of its day counted from midnight. -/
def atMinute (t : Timestamp) (minutes : Nat) : Timestamp :=
  { t with hour := minutes / 60, minute := minutes % 60 }

/-- The time a number of minutes earlier; the number is less than a day, of either sign. -/
def minus (t : Timestamp) (minutes : Int) : Timestamp :=
  let shifted : Int := t.hour * 60 + t.minute - minutes
  if shifted < 0 then t.previousDay.atMinute (shifted + 1440).toNat
  else if shifted < 1440 then t.atMinute shifted.toNat
  else t.nextDay.atMinute (shifted - 1440).toNat

/-! ### Writing -/

/-- A number with zeros in front, up to a number of digits. -/
def padded (width n : Nat) : List Char :=
  let digits := Nat.toDigits 10 n
  List.replicate (width - digits.length) '0' ++ digits

/-- The year, with four digits and, outside of these, a sign. -/
def yearText (year : Int) : List Char :=
  if 0 ≤ year ∧ year ≤ 9999 then padded 4 year.toNat
  else (if year < 0 then '-' else '+') :: padded 4 year.natAbs

/-- The fraction of a second, in thousandths, millionths or thousand-millionths as needed. -/
def fractionText (nanos : Nat) : List Char :=
  if nanos = 0 then []
  else if nanos % 1000000 = 0 then '.' :: padded 3 (nanos / 1000000)
  else if nanos % 1000 = 0 then '.' :: padded 6 (nanos / 1000)
  else '.' :: padded 9 nanos

/-- The text of a point in time. -/
def toText (t : Timestamp) : String :=
  String.ofList (yearText t.year ++ '-' :: padded 2 t.month ++ '-' :: padded 2 t.day ++
    'T' :: padded 2 t.hour ++ ':' :: padded 2 t.minute ++ ':' :: padded 2 t.second ++
    fractionText t.nanos ++ ['Z'])

/-! ### Reading -/

/-- Skips blanks. -/
def skip (cs : List Char) : List Char :=
  cs.dropWhile Text.isBlank

/-- Takes a character. -/
def takeChar (expected : Char) : List Char → Option (List Char)
  | c :: cs => if c = expected then some cs else none
  | [] => none

/-- Takes a number of at most `width` digits, and of one at least. -/
def takeNumber (width : Nat) (cs : List Char) : Option (Nat × List Char) :=
  match (cs.take width).takeWhile Char.isDigit with
  | [] => none
  | digits => some (Numeral.digitsValue digits, cs.drop digits.length)

/-- Takes a number of two digits after blanks, and the separator after it and blanks. -/
def takePart (separator : Char) (cs : List Char) : Option (Nat × List Char) := do
  let (n, rest) ← takeNumber 2 (skip cs)
  return (n, ← takeChar separator (skip rest))

/-- Takes a year: four digits at most, or a sign and any number of digits. -/
def takeYear (cs : List Char) : Option (Int × List Char) :=
  match cs with
  | '-' :: rest => (takeNumber rest.length rest).map fun (n, rest) => (-(n : Int), rest)
  | '+' :: rest => (takeNumber rest.length rest).map fun (n, rest) => ((n : Int), rest)
  | _ => (takeNumber 4 cs).map fun (n, rest) => ((n : Int), rest)

/-- Takes the fraction of a second, if there is one. Digits past the ninth do not count. -/
def takeNanos (cs : List Char) : Option (Nat × List Char) :=
  match cs with
  | '.' :: rest =>
    match rest.takeWhile Char.isDigit with
    | [] => none
    | digits =>
      let counted := digits.take 9
      let nanos := Numeral.digitsValue counted * Nat.pow 10 (9 - counted.length)
      some (nanos, rest.dropWhile Char.isDigit)
  | _ => some (0, cs)

/-- Takes the letter or the blank between a date and a time. -/
def takeDivider : List Char → Option (List Char)
  | c :: cs => if c = 'T' ∨ c = 't' ∨ c = ' ' then some cs else none
  | [] => none

/-- Takes the two-digit hours and minutes of an offset, which has to be less than a day. -/
def takeOffsetTime : List Char → Option (Nat × List Char)
  | h :: h' :: rest =>
    match rest.dropWhile fun c => c == ':' || Text.isBlank c with
    | m :: m' :: rest =>
      if [h, h', m, m'].all Char.isDigit && m < '6' then
        let minutes := Numeral.digitsValue [h, h'] * 60 + Numeral.digitsValue [m, m']
        if minutes < 1440 then some (minutes, rest) else none
      else none
    | _ => none
  | _ => none

/-- Takes the offset from UTC, in minutes. -/
def takeOffset (cs : List Char) : Option (Int × List Char) :=
  if (cs.take 3).map Char.toLower = ['u', 't', 'c'] then some (0, cs.drop 3)
  else
    match cs with
    | [] => none
    | c :: rest =>
      if c = 'Z' ∨ c = 'z' then some (0, rest)
      else if c = '+' then (takeOffsetTime rest).map fun (n, rest) => ((n : Int), rest)
      else if c = '-' ∨ c = '−' then
        (takeOffsetTime rest).map fun (n, rest) => (-(n : Int), rest)
      else none

/-- Reads a point in time. -/
def ofText? (text : String) : Option Timestamp := do
  let (year, rest) ← takeYear (skip text.toList)
  let rest ← takeChar '-' (skip rest)
  let (month, rest) ← takePart '-' rest
  let (day, rest) ← takeNumber 2 (skip rest)
  let rest ← takeDivider rest
  let (hour, rest) ← takePart ':' rest
  let (minute, rest) ← takePart ':' rest
  let (second, rest) ← takeNumber 2 (skip rest)
  let (nanos, rest) ← takeNanos rest
  let (offset, rest) ← takeOffset (skip rest)
  let clock : Timestamp := { year, month, day, hour, minute, second, nanos }
  let utc := clock.minus offset
  if (skip rest).isEmpty && clock.isValid && utc.isValid then return utc else none

end Timestamp

end FluentSql
