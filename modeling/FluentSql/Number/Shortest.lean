import FluentSql.Number.Double

/-!
# The shortest text of a number

A finite number is written with the fewest decimal digits that read back as the number, and among
the candidates of that length with the nearest one, the larger of two that are equally near.
Numbers from `10 ^ -4` up to `10 ^ 16` are written positionally, all others with an exponent, and a
point or an exponent is always there.
-/

namespace FluentSql

/-- A positive number in decimal: `digits * 10 ^ scale`. -/
structure Decimal where
  /-- All digits, as one natural number. -/
  digits : Nat
  /-- The power of ten of the last digit. -/
  scale : Int
deriving DecidableEq

namespace Double

/-- The decimal reads back as the magnitude of rank `rank`. -/
def readsBack (rank : Nat) (d : Decimal) : Bool :=
  match ofDecimal false d.digits d.scale with
  | .finite _ r => r.val == rank
  | _ => false

/-- The number of digits before the point of the magnitude `num / den`, or minus the number of
zeros after the point of a magnitude below one tenth. -/
def pointPosition (num den : Nat) : Int :=
  let low : Int := decimalLength num - decimalLength den
  if den * Nat.pow 10 low.toNat ≤ num * Nat.pow 10 (-low).toNat then low + 1 else low

/-- The decimal of the given scale that stands for the magnitude of a rank, if one does: of the two
grid points around the magnitude the one that reads back, of two such the nearer. -/
def onGrid (rank : Nat) (scale : Int) : Option Decimal :=
  let num := scaledMagnitude rank * Nat.pow 10 (-scale).toNat
  let den := leastDenominator * Nat.pow 10 scale.toNat
  let low : Decimal := ⟨num / den, scale⟩
  let high : Decimal := ⟨num / den + 1, scale⟩
  match readsBack rank low, readsBack rank high with
  | true, true => if 2 * (num % den) < den then some low else some high
  | true, false => some low
  | false, true => some high
  | false, false => none

/-- The magnitude of a rank as a decimal, all digits written out. -/
def exact (rank : Nat) : Decimal :=
  ⟨scaledMagnitude rank * Nat.pow 5 1074, -1074⟩

/-- The shortest decimal that reads back as the magnitude of a positive rank. Seventeen digits
always suffice. -/
def shortest (rank : Nat) : Decimal :=
  let point := pointPosition (scaledMagnitude rank) leastDenominator
  ((List.range 17).findSome? fun k : Nat => onGrid rank (point - k - 1)).getD (exact rank)

end Double

namespace Decimal

/-- The digits without zeros at the end. -/
def significantDigits (d : Decimal) : List Char :=
  ((Nat.toDigits 10 d.digits).reverse.dropWhile (· == '0')).reverse

/-- The place of the point relative to the first digit. -/
def point (d : Decimal) : Int :=
  (Nat.toDigits 10 d.digits).length + d.scale

/-- Digits and point, with zeros filled in on either side. -/
def positional (digits : List Char) (point : Int) : List Char :=
  if point ≤ 0 then
    '0' :: '.' :: List.replicate (-point).toNat '0' ++ digits
  else if point.toNat < digits.length then
    digits.take point.toNat ++ '.' :: digits.drop point.toNat
  else
    digits ++ List.replicate (point.toNat - digits.length) '0' ++ ['.', '0']

/-- One digit before the point, the others after it, and the power of ten. -/
def scientific (digits : List Char) (point : Int) : List Char :=
  digits.take 1 ++ (if digits.length ≤ 1 then [] else '.' :: digits.drop 1) ++
    'e' :: (toString (point - 1)).toList

/-- The text of a positive decimal. -/
def text (d : Decimal) : List Char :=
  if -4 < d.point ∧ d.point ≤ 16 then positional d.significantDigits d.point
  else scientific d.significantDigits d.point

end Decimal

namespace Double

/-- The text of a magnitude. -/
def magnitudeText (rank : Nat) : List Char :=
  if rank = 0 then ['0', '.', '0'] else (shortest rank).text

/-- The text of a number, which the reader of numerals takes back to the number. -/
def text : Double → String
  | .nan => "NaN"
  | .infinite false => "Infinity"
  | .infinite true => "-Infinity"
  | .finite negative rank =>
    String.ofList ((if negative then ['-'] else []) ++ magnitudeText rank)

end Double

end FluentSql
