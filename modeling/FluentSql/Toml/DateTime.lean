import FluentSql.Calendar
import FluentSql.Number.Numeral

/-!
# Dates and times in TOML

A date, a time of day, or both, and in the last case perhaps an offset from UTC. No setting is a
date, so only the extent of the text matters.
-/

namespace FluentSql.Toml

/-- Takes a number of exactly `width` digits. -/
def takeDigits (width : Nat) (cs : List Char) : Option (Nat × List Char) :=
  let digits := cs.take width
  if digits.length = width ∧ digits.all Char.isDigit then
    some (Numeral.digitsValue digits, cs.drop width)
  else none

/-- Takes a number of two digits after a mark. -/
def takeMarked (mark : Char) : List Char → Option (Nat × List Char)
  | [] => none
  | c :: rest => if c = mark then takeDigits 2 rest else none

/-- Skips a date. -/
def skipDate (cs : List Char) : Option (List Char) := do
  let (year, rest) ← takeDigits 4 cs
  let (month, rest) ← takeMarked '-' rest
  let (day, rest) ← takeMarked '-' rest
  if Calendar.isDate year month day then return rest else none

/-- Skips the fraction of a second, if there is one. -/
def skipSecondFraction (cs : List Char) : List Char :=
  match cs with
  | '.' :: rest =>
    match Numeral.digitRun rest with
    | ([], _) => cs
    | (_, rest) => rest
  | _ => cs

/-- Skips a time of day. -/
def skipTime (cs : List Char) : Option (List Char) := do
  let (hour, rest) ← takeDigits 2 cs
  let (minute, rest) ← takeMarked ':' rest
  let (second, rest) ← takeMarked ':' rest
  if hour < 24 && minute < 60 && second ≤ 60 then return skipSecondFraction rest else none

/-- Skips hours and minutes. -/
def skipHourMinute (cs : List Char) : Option (List Char) := do
  let (hour, rest) ← takeDigits 2 cs
  let (minute, rest) ← takeMarked ':' rest
  if hour < 24 && minute < 60 then return rest else none

/-- Skips an offset from UTC, if there is one. -/
def skipOffset (cs : List Char) : List Char :=
  match cs with
  | [] => []
  | c :: rest =>
    if c = 'Z' ∨ c = 'z' then rest
    else if c = '+' ∨ c = '-' then (skipHourMinute rest).getD cs
    else cs

/-- Skips what follows a date: perhaps a letter or a blank, a time, and an offset. -/
def skipTimeAfterDate (cs : List Char) : List Char :=
  match cs with
  | [] => []
  | c :: rest =>
    if c = 'T' ∨ c = 't' ∨ c = ' ' then ((skipTime rest).map skipOffset).getD cs else cs

/-- Skips a date, a time, or both. -/
def skipDateTime (cs : List Char) : Option (List Char) :=
  match skipDate cs with
  | some rest => some (skipTimeAfterDate rest)
  | none => skipTime cs

end FluentSql.Toml
