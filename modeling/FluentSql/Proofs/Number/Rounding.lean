import FluentSql.Number.Shortest
import Mathlib.Tactic.Ring

/-!
# Decimals that stand for numbers

What number a decimal stands for depends on its value alone, and not on zeros at its end. Every
finite magnitude is the number nearest to itself, so the shortest decimal of a magnitude stands for
it.
-/

namespace FluentSql

namespace Double

/-! ### The length of digits -/

/-- A zero at the end is one more digit. -/
theorem decimalLength_mul_ten {n : Nat} (hn : 0 < n) :
    decimalLength (n * 10) = decimalLength n + 1 := by
  have happend := Nat.toDigits_append_toDigits (by decide : 1 < 10) hn (by decide : 0 < 10)
  simp only [decimalLength, Nat.mul_comm n 10]
  rw [Nat.add_zero] at happend
  simp [← happend]

/-- Zeros at the end are as many more digits. -/
theorem decimalLength_mul_pow {n : Nat} (hn : 0 < n) (k : Nat) :
    decimalLength (n * 10 ^ k) = decimalLength n + k := by
  induction k with
  | zero => simp
  | succ k ih =>
    have hpos : 0 < n * 10 ^ k := Nat.mul_pos hn (Nat.pow_pos (by decide))
    rw [Nat.pow_succ, ← Nat.mul_assoc, decimalLength_mul_ten hpos, ih, Nat.add_assoc]

/-! ### The value of a decimal -/

/-- A common factor does not change a rounded quotient. -/
theorem roundQuotient_mul_left {factor : Nat} (hfactor : 0 < factor) (num den : Nat) :
    roundQuotient (factor * num) (factor * den) = roundQuotient num den := by
  have hlow : 2 * (factor * (num % den)) < factor * den ↔ 2 * (num % den) < den := by
    rw [Nat.mul_left_comm, Nat.mul_lt_mul_left hfactor]
  have hhigh : factor * den < 2 * (factor * (num % den)) ↔ den < 2 * (num % den) := by
    rw [Nat.mul_left_comm, Nat.mul_lt_mul_left hfactor]
  simp only [roundQuotient, Nat.mul_div_mul_left _ _ hfactor, Nat.mul_mod_mul_left, hlow, hhigh]

/-- A common factor does not change the nearest number. -/
theorem nearestRank_mul_left {factor : Nat} (hfactor : 0 < factor) (num den : Nat) :
    nearestRank (factor * num) (factor * den) = nearestRank num den := by
  simp only [nearestRank, Nat.mul_assoc, Nat.mul_div_mul_left _ _ hfactor,
    roundQuotient_mul_left hfactor]

/-- Equal quotients have the same nearest number. -/
theorem nearestRank_congr {num den num' den' : Nat} (hden : 0 < den) (hden' : 0 < den')
    (h : num * den' = num' * den) : nearestRank num den = nearestRank num' den' := by
  rw [← nearestRank_mul_left hden' num den, Nat.mul_comm den' num, h,
    ← nearestRank_mul_left hden num' den', Nat.mul_comm num' den, Nat.mul_comm den' den]

/-- Zeros at the end of a decimal do not change what it stands for. -/
theorem ofDecimal_mul_pow (negative : Bool) {digits : Nat} (hdigits : 0 < digits) (k : Nat)
    (scale : Int) :
    ofDecimal negative (digits * 10 ^ k) (scale - k) = ofDecimal negative digits scale := by
  have hsize : (decimalLength (digits * 10 ^ k) : Int) + (scale - k) =
      decimalLength digits + scale := by
    rw [decimalLength_mul_pow hdigits]
    omega
  have hzero : digits * 10 ^ k = 0 ↔ digits = 0 := by simp
  have hrank : nearestRank (digits * 10 ^ k * 10 ^ (scale - k).toNat) (10 ^ (-(scale - k)).toNat) =
      nearestRank (digits * 10 ^ scale.toNat) (10 ^ (-scale).toNat) := by
    refine nearestRank_congr (Nat.pow_pos (by decide)) (Nat.pow_pos (by decide)) ?_
    simp only [Nat.mul_assoc, ← Nat.pow_add]
    congr 2
    omega
  simp only [ofDecimal, hsize, hzero, Nat.pow_eq, hrank]

/-! ### Finite magnitudes -/

/-- The unit of magnitudes is positive. -/
theorem leastDenominator_pos : 0 < leastDenominator := by
  decide +kernel

/-- A natural number is its own rounded quotient. -/
theorem roundQuotient_one (n : Nat) : roundQuotient n 1 = n := by
  simp [roundQuotient, Nat.mod_one]

/-- The nearest number to so many units, of which the given bits go. -/
theorem nearestRank_units {units dropped : Nat} (hdropped : Nat.log2 units + 1 - 53 = dropped) :
    nearestRank units leastDenominator = roundQuotient units (2 ^ dropped) + dropped * binade := by
  simp only [nearestRank, Nat.mul_div_cancel _ leastDenominator_pos, hdropped, Nat.pow_eq]
  rw [Nat.mul_comm units, roundQuotient_mul_left leastDenominator_pos]

/-- A finite magnitude is the number nearest to itself. -/
theorem nearestRank_scaledMagnitude (rank : Nat) :
    nearestRank (scaledMagnitude rank) leastDenominator = rank := by
  by_cases hsmall : rank < binade
  · have hscaled : scaledMagnitude rank = rank := by
      simp [scaledMagnitude, significand, shift, hsmall, Nat.div_eq_of_lt hsmall]
    have hdropped : Nat.log2 rank + 1 - 53 = 0 := by
      by_cases hzero : rank = 0
      · simp [hzero]
      · have hlog := (Nat.log2_lt hzero).mpr (show rank < 2 ^ 52 from hsmall)
        omega
    rw [hscaled, nearestRank_units hdropped]
    simp [roundQuotient_one]
  · have hbinade : 0 < binade := by decide
    have hlt := Nat.mod_lt rank hbinade
    have hdiv : 1 ≤ rank / binade := (Nat.one_le_div_iff hbinade).mpr (by omega)
    have hscaled : scaledMagnitude rank = 2 ^ shift rank * (binade + rank % binade) := by
      simp [scaledMagnitude, significand, hsmall, Nat.mul_comm]
    have hdropped : Nat.log2 (scaledMagnitude rank) + 1 - 53 = shift rank := by
      have hlog : Nat.log2 (scaledMagnitude rank) = shift rank + 52 := by
        have hpow : (2 : Nat) ^ 52 = binade := rfl
        have hpos : 0 < 2 ^ shift rank := Nat.pow_pos (by decide)
        rw [hscaled, Nat.log2_eq_iff (Nat.mul_pos hpos (by omega)).ne', Nat.pow_add, Nat.add_assoc,
          Nat.pow_add, Nat.mul_le_mul_left_iff hpos, Nat.mul_lt_mul_left hpos]
        omega
      omega
    rw [nearestRank_units hdropped, hscaled]
    have hround := roundQuotient_mul_left (Nat.pow_pos (by decide : 0 < 2) : 0 < 2 ^ shift rank)
      (binade + rank % binade) 1
    rw [Nat.mul_one] at hround
    rw [hround, roundQuotient_one]
    obtain ⟨above, habove⟩ := Nat.exists_eq_add_of_le hdiv
    calc binade + rank % binade + shift rank * binade
        = binade * (rank / binade) + rank % binade := by
          rw [shift, habove, Nat.add_sub_cancel_left]
          ring
      _ = rank := Nat.div_add_mod rank binade

/-- A finite magnitude has at most 2098 bits. -/
theorem scaledMagnitude_lt {rank : Nat} (h : rank < finiteMagnitudes) :
    ∃ top, top ≤ 2045 ∧ scaledMagnitude rank < 2 ^ 53 * 2 ^ top := by
  have hbinade : 0 < binade := by decide
  have hsignificand : significand rank < 2 ^ 53 := by
    have hlt := Nat.mod_lt rank hbinade
    have hpow : (2 : Nat) ^ 53 = 2 * binade := rfl
    unfold significand
    split <;> omega
  have hshift : shift rank ≤ 2045 := by
    have hdiv : rank / binade < 2047 := Nat.div_lt_of_lt_mul (by rwa [Nat.mul_comm])
    unfold shift
    omega
  exact ⟨shift rank, hshift, Nat.mul_lt_mul_of_pos_right hsignificand (Nat.two_pow_pos _)⟩

/-- A positive rank has a positive magnitude. -/
theorem scaledMagnitude_pos {rank : Nat} (h : 0 < rank) : 0 < scaledMagnitude rank := by
  refine Nat.mul_pos ?_ (Nat.pow_pos (by decide))
  have hbinade : 0 < binade := by decide
  unfold significand
  split <;> omega

/-! ### Reading back -/

/-- A decimal of moderate size stands for the nearest finite magnitude. -/
theorem ofDecimal_of_nearestRank (d : Decimal) {rank : Nat} (hdigits : 0 < d.digits)
    (hlow : -330 ≤ decimalLength d.digits + d.scale)
    (hhigh : decimalLength d.digits + d.scale ≤ 310)
    (hnearest : nearestRank (d.digits * 10 ^ d.scale.toNat) (10 ^ (-d.scale).toNat) = rank)
    (hrank : rank < finiteMagnitudes) (negative : Bool) :
    ofDecimal negative d.digits d.scale = .finite negative ⟨rank, hrank⟩ := by
  have hsmall : ¬ (d.digits = 0 ∨ decimalLength d.digits + d.scale < -330) := by omega
  have hlarge : ¬ 310 < decimalLength d.digits + d.scale := by omega
  unfold ofDecimal
  simp only [hsmall, hlarge, if_false, Nat.pow_eq, hnearest, hrank, dif_pos]

/-- What reads back as a positive magnitude stands for it with either sign. -/
theorem ofDecimal_of_readsBack {rank : Nat} {d : Decimal} (hpos : 0 < rank)
    (h : readsBack rank d = true) : 0 < d.digits ∧ ∃ hrank : rank < finiteMagnitudes,
      ∀ negative, ofDecimal negative d.digits d.scale = .finite negative ⟨rank, hrank⟩ := by
  unfold readsBack at h
  cases hd : ofDecimal false d.digits d.scale with
  | nan | infinite => simp [hd] at h
  | finite sign r =>
    have hr : r.val = rank := by simpa [hd] using h
    subst hr
    unfold ofDecimal at hd
    dsimp only at hd
    split at hd
    · cases hd
      exact absurd hpos (Nat.lt_irrefl 0)
    · next hsmall =>
      split at hd
      · cases hd
      · next hlarge =>
        split at hd
        · next hrank =>
          cases hd
          have hdigits : 0 < d.digits := by omega
          exact ⟨hdigits, hrank,
            ofDecimal_of_nearestRank d hdigits (by omega) (by omega) rfl hrank⟩
        · cases hd

/-- A decimal that stands for a magnitude reads back as it. -/
theorem readsBack_of_ofDecimal (d : Decimal) {negative : Bool} {rank : Nat}
    {hrank : rank < finiteMagnitudes}
    (h : ofDecimal false d.digits d.scale = .finite negative ⟨rank, hrank⟩) :
    readsBack rank d = true := by
  simp [readsBack, h]

/-- The number of digits is over a bound from a power of ten on. -/
theorem lt_decimalLength_iff {n k : Nat} (hk : 0 < k) : k < decimalLength n ↔ 10 ^ k ≤ n := by
  have h : decimalLength n ≤ k ↔ n < 10 ^ k := Nat.length_toDigits_le_iff (by decide) hk
  rw [← Nat.not_le, h, Nat.not_lt]

/-- Written out, a magnitude has all its places after the point. -/
private theorem exact_digits (rank : Nat) :
    ∃ places, places = 1074 ∧ (exact rank).digits = scaledMagnitude rank * Nat.pow 5 places :=
  ⟨1074, rfl, rfl⟩

/-- Written out, a positive magnitude has at least 745 digits, most of them after the point. -/
private theorem lt_decimalLength_exact {rank : Nat} (hpos : 0 < rank) :
    744 < decimalLength (exact rank).digits := by
  have hfive : 10 ^ 744 ≤ Nat.pow 5 1074 := by decide +kernel
  have hunits := scaledMagnitude_pos hpos
  exact (lt_decimalLength_iff (by decide)).mpr (hfive.trans (Nat.le_mul_of_pos_left _ hunits))

/-- Written out, a finite magnitude has at most 1384 digits. -/
private theorem decimalLength_exact_le {rank : Nat} (h : rank < finiteMagnitudes) :
    decimalLength (exact rank).digits ≤ 1384 := by
  -- The exponents have names, so that no step but the last one evaluates a power.
  obtain ⟨limit, hlimit⟩ : ∃ n, n = 2045 := ⟨_, rfl⟩
  obtain ⟨places, hplaces, hdigits⟩ := exact_digits rank
  obtain ⟨top, htop, hunits⟩ := scaledMagnitude_lt h
  have hlt : scaledMagnitude rank < 2 ^ 53 * Nat.pow 2 limit := by
    have hmono : 2 ^ top ≤ Nat.pow 2 limit := Nat.pow_le_pow_right (by decide) (by omega)
    exact hunits.trans_le (Nat.mul_le_mul_left _ hmono)
  have hfive : 0 < Nat.pow 5 places := Nat.pow_pos (by decide)
  rw [← Nat.not_lt, lt_decimalLength_iff (by decide), Nat.not_le, hdigits]
  refine (Nat.mul_lt_mul_of_pos_right hlt hfive).trans_le ?_
  subst hlimit hplaces
  decide +kernel

/-- Written out, a magnitude is nearest to itself. -/
private theorem nearestRank_exact (rank : Nat) :
    nearestRank ((exact rank).digits * 10 ^ (exact rank).scale.toNat)
      (10 ^ (-(exact rank).scale).toNat) = rank := by
  obtain ⟨places, hplaces, hdigits⟩ := exact_digits rank
  have hup : (exact rank).scale.toNat = 0 := rfl
  have hdown : (-(exact rank).scale).toNat = places := hplaces.symm
  have hten : Nat.pow 5 places * leastDenominator = 10 ^ places := by
    subst hplaces
    decide +kernel
  rw [hdigits, hup, hdown, Nat.pow_zero, Nat.mul_one]
  refine Eq.trans ?_ (nearestRank_scaledMagnitude rank)
  refine nearestRank_congr (Nat.pow_pos (by decide)) leastDenominator_pos ?_
  rw [Nat.mul_assoc, hten]

/-- Written out, a positive finite magnitude is of moderate size. -/
private theorem size_exact {rank : Nat} (hpos : 0 < rank) (h : rank < finiteMagnitudes) :
    -330 ≤ decimalLength (exact rank).digits + (exact rank).scale ∧
      decimalLength (exact rank).digits + (exact rank).scale ≤ 310 := by
  have hlow := lt_decimalLength_exact hpos
  have hhigh := decimalLength_exact_le h
  have hscale : (exact rank).scale = -1074 := rfl
  rw [hscale]
  generalize decimalLength (exact rank).digits = size at hlow hhigh
  omega

/-- All digits of a finite magnitude read back. -/
theorem readsBack_exact {rank : Nat} (hpos : 0 < rank) (h : rank < finiteMagnitudes) :
    readsBack rank (exact rank) = true := by
  have hdigits : 0 < (exact rank).digits := by
    obtain ⟨places, -, hdigits⟩ := exact_digits rank
    rw [hdigits]
    exact Nat.mul_pos (scaledMagnitude_pos hpos) (Nat.pow_pos (by decide))
  obtain ⟨hlow, hhigh⟩ := size_exact hpos h
  have hnearest := nearestRank_exact rank
  exact readsBack_of_ofDecimal (exact rank)
    (ofDecimal_of_nearestRank (exact rank) hdigits hlow hhigh hnearest h false)

/-- A decimal on a grid reads back. -/
theorem readsBack_of_onGrid {rank : Nat} {scale : Int} {d : Decimal}
    (h : onGrid rank scale = some d) : readsBack rank d = true := by
  unfold onGrid at h
  dsimp only at h
  split at h
  · next hlow hhigh =>
    split at h <;> cases h
    · exact hlow
    · exact hhigh
  · next hlow _ =>
    cases h
    exact hlow
  · next _ hhigh =>
    cases h
    exact hhigh
  · cases h

/-- A decimal that reads back, or else another one that does. -/
private theorem readsBack_getD {rank : Nat} {found : Option Decimal} {other : Decimal}
    (hfound : ∀ d, found = some d → readsBack rank d = true)
    (hother : readsBack rank other = true) :
    readsBack rank (found.getD other) = true := by
  cases found with
  | none => exact hother
  | some d => exact hfound d rfl

/-- The shortest decimal of a finite magnitude reads back. -/
theorem readsBack_shortest {rank : Nat} (hpos : 0 < rank) (h : rank < finiteMagnitudes) :
    readsBack rank (shortest rank) = true := by
  refine readsBack_getD (fun d hd => ?_) (readsBack_exact hpos h)
  obtain ⟨k, -, hgrid⟩ := List.exists_of_findSome?_eq_some hd
  exact readsBack_of_onGrid hgrid

end Double

end FluentSql
