import FluentSql.Number.Double

/-!
# Numerals

The written form of integers and of finite binary64 numbers: an optional minus sign, digits, and
then perhaps a fraction and an exponent.
-/

namespace FluentSql

/-- The parts of a written number. -/
structure Numeral where
  /-- A minus sign stands in front. -/
  negative : Bool
  /-- The digits before the point. -/
  whole : List Char
  /-- The digits after the point; a point needs at least one. -/
  fraction : List Char
  /-- The sign and the digits of the exponent. -/
  exponent : Option (Bool × List Char)
deriving DecidableEq

namespace Numeral

/-- A run of digits at the head of the characters, and what follows it. -/
def digitRun (cs : List Char) : List Char × List Char :=
  (cs.takeWhile Char.isDigit, cs.dropWhile Char.isDigit)

/-- Takes a point and the digits after it, if both are there. -/
def takeFraction (cs : List Char) : List Char × List Char :=
  match cs with
  | '.' :: rest =>
    match digitRun rest with
    | ([], _) => ([], cs)
    | (digits, rest) => (digits, rest)
  | _ => ([], cs)

/-- Takes a sign, if there is one: whether it is a minus, and what follows. -/
def takeSign : List Char → Bool × List Char
  | '-' :: rest => (true, rest)
  | '+' :: rest => (false, rest)
  | cs => (false, cs)

/-- Takes an exponent, if one with at least one digit is there. -/
def takeExponent (cs : List Char) : Option (Bool × List Char) × List Char :=
  match cs with
  | c :: rest =>
    if c = 'e' ∨ c = 'E' then
      let (negative, rest) := takeSign rest
      match digitRun rest with
      | ([], _) => (none, cs)
      | (digits, rest) => (some (negative, digits), rest)
    else (none, cs)
  | [] => (none, cs)

/-- Takes the longest numeral at the head of the characters. -/
def scan (cs : List Char) : Option (Numeral × List Char) :=
  let (negative, unsigned) := match cs with
    | '-' :: rest => (true, rest)
    | _ => (false, cs)
  match digitRun unsigned with
  | ([], _) => none
  | (whole, rest) =>
    let (fraction, rest) := takeFraction rest
    let (exponent, rest) := takeExponent rest
    some (⟨negative, whole, fraction, exponent⟩, rest)

/-- The numeral has neither a fraction nor an exponent. -/
def isInteger (n : Numeral) : Bool :=
  n.fraction.isEmpty && n.exponent.isNone

/-- The natural number with the given decimal digits. -/
def digitsValue (digits : List Char) : Nat :=
  Nat.ofDigitChars 10 digits 0

/-- The value of a hexadecimal digit. -/
def hexValue? (c : Char) : Option Nat :=
  if c.isDigit then some (c.toNat - '0'.toNat)
  else if 'a' ≤ c ∧ c ≤ 'f' then some (c.toNat - 'a'.toNat + 10)
  else if 'A' ≤ c ∧ c ≤ 'F' then some (c.toNat - 'A'.toNat + 10)
  else none

/-- The integer before the point. -/
def toInt (n : Numeral) : Int :=
  if n.negative then -(digitsValue n.whole : Int) else digitsValue n.whole

/-- The integer before the point as a signed 64-bit number, if it is in range. -/
def toInt64? (n : Numeral) : Option Int64 :=
  if Int64.minValue.toInt ≤ n.toInt ∧ n.toInt ≤ Int64.maxValue.toInt then
    some (Int64.ofInt n.toInt)
  else none

/-- The power of ten that the exponent calls for. -/
def power (n : Numeral) : Int :=
  match n.exponent with
  | none => 0
  | some (true, digits) => -(digitsValue digits : Int)
  | some (false, digits) => digitsValue digits

/-- The nearest binary64 number. -/
def toDouble (n : Numeral) : Double :=
  .ofDecimal n.negative (digitsValue (n.whole ++ n.fraction)) (n.power - n.fraction.length)

end Numeral

/-- The number of decimal digits with perhaps a sign, a point and an exponent, or of a name of one
that is not finite, in any letter case. -/
def Double.ofText? (s : String) : Option Double :=
  let (negative, unsigned) := Numeral.takeSign s.toList
  let word := String.ofList (unsigned.map Char.toLower)
  if word = "nan" then some .nan
  else if word = "inf" ∨ word = "infinity" then some (.infinite negative)
  else
    let (whole, rest) := Numeral.digitRun unsigned
    let (fraction, rest) := match rest with
      | '.' :: rest => Numeral.digitRun rest
      | _ => ([], rest)
    match Numeral.takeExponent rest with
    | (exponent, []) =>
      if whole.isEmpty && fraction.isEmpty then none
      else some (Numeral.toDouble ⟨negative, whole, fraction, exponent⟩)
    | _ => none

end FluentSql
