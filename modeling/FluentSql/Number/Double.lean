/-!
# Binary64 numbers

A finite number is a sign and a magnitude, and a magnitude is its rank among the finite magnitudes
in increasing order: zero has rank 0 and each next rank is the next number. All arithmetic is exact,
on natural numbers, so rounding is a definition and not a property of a machine.
-/

namespace FluentSql

/-- The number of magnitudes with one exponent, `2 ^ 52`. -/
def binade : Nat := 0x10000000000000

/-- The number of finite magnitudes: there are 2047 exponents. -/
def finiteMagnitudes : Nat := 2047 * binade

/-- The least positive magnitude is one over this, `2 ^ 1074`. -/
def leastDenominator : Nat := Nat.pow 2 1074

/-- A binary64 number, where all values that are not a number are one. -/
inductive Double
  /-- Not a number. -/
  | nan
  /-- An infinity. -/
  | infinite (negative : Bool)
  /-- A sign and the rank of the magnitude. -/
  | finite (negative : Bool) (rank : Fin finiteMagnitudes)
deriving DecidableEq

namespace Double

/-- The magnitude of rank `rank` is this times a power of two. -/
def significand (rank : Nat) : Nat :=
  if rank < binade then rank else binade + rank % binade

/-- The magnitude of rank `rank` is its significand times `2 ^ shift rank`, over
`leastDenominator`. -/
def shift (rank : Nat) : Nat :=
  rank / binade - 1

/-- The numerator of the magnitude of a rank, over `leastDenominator`. -/
def scaledMagnitude (rank : Nat) : Nat :=
  significand rank * Nat.pow 2 (shift rank)

/-- The quotient rounded to the nearest natural number, a half to the even neighbour. -/
def roundQuotient (num den : Nat) : Nat :=
  let quotient := num / den
  let rest := num % den
  if 2 * rest < den then quotient
  else if den < 2 * rest then quotient + 1
  else quotient + quotient % 2

/-- The rank of the number nearest to `num / den`, of two the one of even rank. A rank that is no
finite magnitude's stands for a number beyond them. -/
def nearestRank (num den : Nat) : Nat :=
  -- The quotient in units of the least magnitude; its size fixes how many bits have to go.
  let units := num * leastDenominator / den
  let dropped := (Nat.log2 units + 1) - 53
  roundQuotient (num * leastDenominator) (den * Nat.pow 2 dropped) + dropped * binade

/-- The number of decimal digits of a positive natural number. -/
def decimalLength (n : Nat) : Nat :=
  (Nat.toDigits 10 n).length

/-- The number nearest to `digits * 10 ^ scale`, with the given sign. -/
def ofDecimal (negative : Bool) (digits : Nat) (scale : Int) : Double :=
  let size := decimalLength digits + scale
  if digits = 0 ∨ size < -330 then .finite negative ⟨0, by decide⟩
  else if 310 < size then .infinite negative
  else
    let rank := nearestRank (digits * Nat.pow 10 scale.toNat) (Nat.pow 10 (-scale).toNat)
    if h : rank < finiteMagnitudes then .finite negative ⟨rank, h⟩ else .infinite negative

end Double

end FluentSql
