import FluentSql.Number.Numeral
import FluentSql.Proofs.Number.Rounding
import FluentSql.Text.Name

/-!
# Written numbers are read back

A numeral is written as a sign, digits, a fraction and an exponent. The scanner takes exactly what
was written, whatever follows that could not belong to it, and the texts of integers and of finite
numbers stand for what they were made from.
-/

namespace FluentSql

namespace Numeral

/-- The characters are digits, and there is one at least. -/
def IsDigits (cs : List Char) : Prop :=
  cs ≠ [] ∧ ∀ c ∈ cs, c.isDigit = true

/-- A fraction as written: nothing, or a point and digits. -/
inductive WritesFraction : List Char → List Char → Prop
  | none : WritesFraction [] []
  | some {digits : List Char} (hdigits : IsDigits digits) : WritesFraction digits ('.' :: digits)

/-- The sign of an exponent as written; the plus sign may be left out. -/
inductive WritesSign : Bool → List Char → Prop
  | minus : WritesSign true ['-']
  | plus : WritesSign false ['+']
  | bare : WritesSign false []

/-- An exponent as written: nothing, or a letter, a sign and digits. -/
inductive WritesExponent : Option (Bool × List Char) → List Char → Prop
  | none : WritesExponent none []
  | some {mark : Char} {negative : Bool} {sign digits : List Char} (hmark : mark = 'e' ∨ mark = 'E')
      (hsign : WritesSign negative sign) (hdigits : IsDigits digits) :
      WritesExponent (some (negative, digits)) (mark :: sign ++ digits)

/-- A numeral as written. -/
inductive Writes : Numeral → List Char → Prop
  | mk {negative : Bool} {whole fraction fractionText exponentText : List Char}
      {exponent : Option (Bool × List Char)} (hwhole : IsDigits whole)
      (hfraction : WritesFraction fraction fractionText)
      (hexponent : WritesExponent exponent exponentText) :
      Writes ⟨negative, whole, fraction, exponent⟩
        ((if negative then ['-'] else []) ++ whole ++ fractionText ++ exponentText)

/-- A numeral as written has a digit at least. -/
theorem Writes.length_pos {n : Numeral} {text : List Char} (h : n.Writes text) :
    0 < text.length := by
  cases h with
  | mk hwhole =>
    have hpos := List.length_pos_iff.mpr hwhole.1
    simp only [List.length_append]
    omega

/-- The characters cannot go on with a number or a name that ends right before them. -/
structure Apart (rest : List Char) : Prop where
  /-- They do not start with a letter, a digit or an underscore. -/
  name : ∀ c ∈ rest.head?, Text.isNameChar c = false
  /-- They do not start with a point and a digit. -/
  point : ∀ c tail, rest = '.' :: c :: tail → c.isDigit = false

/-- A character that is neither part of a name nor a point is apart from what is before it. -/
theorem apart_cons {c : Char} (hname : Text.isNameChar c = false) (hpoint : c ≠ '.')
    (rest : List Char) : Apart (c :: rest) := by
  constructor
  · simpa using hname
  · intro d tail heq
    exact absurd (List.head_eq_of_cons_eq heq) hpoint

/-- A digit may stand in a name. -/
theorem isNameChar_of_isDigit {c : Char} (h : c.isDigit = true) : Text.isNameChar c = true := by
  simp [Text.isNameChar, Char.isAlphanum, h]

/-- A run of digits ends where no digit follows. -/
theorem digitRun_append {digits rest : List Char} (hdigits : ∀ c ∈ digits, c.isDigit = true)
    (hrest : ∀ c ∈ rest.head?, c.isDigit = false) : digitRun (digits ++ rest) = (digits, rest) := by
  obtain ⟨htake, hdrop⟩ := Text.run_append hdigits hrest
  rw [digitRun, htake, hdrop]

/-- No digit follows. -/
theorem Apart.digit {rest : List Char} (h : Apart rest) : ∀ c ∈ rest.head?, c.isDigit = false := by
  intro c hc
  rw [Bool.eq_false_iff]
  intro hdigit
  have hname := h.name c hc
  rw [isNameChar_of_isDigit hdigit] at hname
  cases hname

/-- A written exponent is taken. -/
theorem takeExponent_append {exponent : Option (Bool × List Char)} {text rest : List Char}
    (h : WritesExponent exponent text) (hrest : Apart rest) :
    takeExponent (text ++ rest) = (exponent, rest) := by
  cases h with
  | none =>
    cases rest with
    | nil => rfl
    | cons c cs =>
      have hname := hrest.name c rfl
      have hmark : ¬ (c = 'e' ∨ c = 'E') := by
        rintro (rfl | rfl) <;> exact absurd hname (by decide)
      simp [takeExponent, hmark]
  | @some mark negative sign digits hmark hsign hdigits =>
    obtain ⟨hne, hall⟩ := hdigits
    have hsigned : takeSign (sign ++ digits ++ rest) = (negative, digits ++ rest) := by
      cases hsign with
      | minus | plus => rfl
      | bare =>
        obtain ⟨c, cs, rfl⟩ := List.exists_cons_of_ne_nil hne
        have hc := hall c List.mem_cons_self
        have hplus : c ≠ '+' := by
          rintro rfl
          cases hc
        have hminus : c ≠ '-' := by
          rintro rfl
          cases hc
        simp [takeSign, hplus, hminus]
    have hrun : digitRun (digits ++ rest) = (digits, rest) := digitRun_append hall hrest.digit
    obtain ⟨c, cs, rfl⟩ := List.exists_cons_of_ne_nil hne
    rw [List.cons_append, List.cons_append]
    simp only [takeExponent, hmark, if_true, hsigned, hrun]

/-- No digit follows before an exponent. -/
theorem WritesExponent.digit {exponent : Option (Bool × List Char)} {text rest : List Char}
    (h : WritesExponent exponent text) (hrest : Apart rest) :
    ∀ c ∈ (text ++ rest).head?, c.isDigit = false := by
  cases h with
  | none => exact hrest.digit
  | some hmark =>
    rcases hmark with rfl | rfl <;> simp

/-- No fraction is taken where none can follow. -/
theorem Apart.takeFraction {rest : List Char} (h : Apart rest) :
    takeFraction rest = ([], rest) := by
  match rest, h with
  | [], _ => rfl
  | [c], _ =>
    by_cases hc : c = '.'
    · subst hc
      rfl
    · simp [Numeral.takeFraction, hc]
  | c :: d :: tail, h =>
    by_cases hc : c = '.'
    · subst hc
      have hrun : digitRun (d :: tail) = ([], d :: tail) := by
        simp [digitRun, h.point d tail rfl]
      simp [Numeral.takeFraction, hrun]
    · simp [Numeral.takeFraction, hc]

/-- A written fraction is taken. -/
theorem takeFraction_append {fraction text exponentText rest : List Char}
    {exponent : Option (Bool × List Char)} (h : WritesFraction fraction text)
    (hexponent : WritesExponent exponent exponentText) (hrest : Apart rest) :
    takeFraction (text ++ (exponentText ++ rest)) = (fraction, exponentText ++ rest) := by
  cases h with
  | some hdigits =>
    obtain ⟨hne, hall⟩ := hdigits
    obtain ⟨c, cs, rfl⟩ := List.exists_cons_of_ne_nil hne
    have hrun := digitRun_append hall (hexponent.digit hrest)
    simp only [List.cons_append] at hrun ⊢
    simp only [takeFraction, hrun]
  | none =>
    cases hexponent with
    | none => exact hrest.takeFraction
    | some hmark => rcases hmark with rfl | rfl <;> rfl

/-- A written numeral is scanned. -/
theorem scan_append {n : Numeral} {text rest : List Char} (h : n.Writes text)
    (hrest : Apart rest) : scan (text ++ rest) = some (n, rest) := by
  cases h with
  | @mk negative whole fraction fractionText exponentText exponent hwhole hfraction hexponent =>
    obtain ⟨hne, hall⟩ := hwhole
    obtain ⟨c, cs, rfl⟩ := List.exists_cons_of_ne_nil hne
    have hdigit : ∀ c ∈ (fractionText ++ (exponentText ++ rest)).head?, c.isDigit = false := by
      cases hfraction with
      | none => exact hexponent.digit hrest
      | some => simp
    have hrun := digitRun_append hall hdigit
    have hfractional := takeFraction_append hfraction hexponent hrest
    have hexponential := takeExponent_append hexponent hrest
    cases negative with
    | true =>
      simp only [if_true, List.append_assoc, List.cons_append, List.nil_append] at hrun ⊢
      simp only [scan, hrun, hfractional, hexponential]
    | false =>
      have hc : c ≠ '-' := by
        rintro rfl
        cases hall '-' List.mem_cons_self
      simp only [Bool.false_eq_true, if_false, List.append_assoc, List.cons_append,
        List.nil_append] at hrun ⊢
      simp [scan, hc, hrun, hfractional, hexponential]

/-! ### What is scanned -/

/-- A run of digits is digits, and nothing is lost. -/
theorem eq_append_of_digitRun {cs digits rest : List Char} (h : digitRun cs = (digits, rest)) :
    cs = digits ++ rest ∧ ∀ c ∈ digits, c.isDigit = true := by
  obtain ⟨rfl, rfl⟩ := Prod.mk.inj h
  exact ⟨List.takeWhile_append_dropWhile.symm, List.all_eq_true.mp List.all_takeWhile⟩

/-- A fraction that is taken was written. -/
theorem eq_append_of_takeFraction {cs fraction rest : List Char}
    (h : takeFraction cs = (fraction, rest)) :
    ∃ text, WritesFraction fraction text ∧ cs = text ++ rest := by
  unfold takeFraction at h
  split at h
  · next tail =>
    split at h
    · obtain ⟨rfl, rfl⟩ := Prod.mk.inj h
      exact ⟨[], .none, rfl⟩
    · next digits after hne hrun =>
      obtain ⟨rfl, rfl⟩ := Prod.mk.inj h
      obtain ⟨rfl, hall⟩ := eq_append_of_digitRun hrun
      exact ⟨'.' :: digits, .some ⟨hne, hall⟩, rfl⟩
  · obtain ⟨rfl, rfl⟩ := Prod.mk.inj h
    exact ⟨[], .none, rfl⟩

/-- A sign that is taken was written. -/
theorem eq_append_of_takeSign {cs rest : List Char} {negative : Bool}
    (h : takeSign cs = (negative, rest)) :
    ∃ sign, WritesSign negative sign ∧ cs = sign ++ rest := by
  unfold takeSign at h
  split at h <;> obtain ⟨rfl, rfl⟩ := Prod.mk.inj h
  · exact ⟨['-'], .minus, rfl⟩
  · exact ⟨['+'], .plus, rfl⟩
  · exact ⟨[], .bare, rfl⟩

/-- An exponent that is taken was written. -/
theorem eq_append_of_takeExponent {cs rest : List Char} {exponent : Option (Bool × List Char)}
    (h : takeExponent cs = (exponent, rest)) :
    ∃ text, WritesExponent exponent text ∧ cs = text ++ rest := by
  have hnone (cs : List Char) : ∃ text, WritesExponent none text ∧ cs = text ++ cs :=
    ⟨[], .none, rfl⟩
  unfold takeExponent at h
  split at h
  · next mark tail =>
    split at h
    · next hmark =>
      generalize hsigned : takeSign tail = signed at h
      obtain ⟨negative, after⟩ := signed
      dsimp only at h
      split at h
      · obtain ⟨rfl, rfl⟩ := Prod.mk.inj h
        exact hnone _
      · next digits after hne hrun =>
        obtain ⟨rfl, rfl⟩ := Prod.mk.inj h
        obtain ⟨rfl, hall⟩ := eq_append_of_digitRun hrun
        obtain ⟨sign, hsign, rfl⟩ := eq_append_of_takeSign hsigned
        exact ⟨mark :: sign ++ digits, .some hmark hsign ⟨hne, hall⟩, by simp⟩
    · obtain ⟨rfl, rfl⟩ := Prod.mk.inj h
      exact hnone _
  · obtain ⟨rfl, rfl⟩ := Prod.mk.inj h
    exact hnone _

/-- A numeral that is scanned was written. -/
theorem eq_append_of_scan {cs rest : List Char} {n : Numeral} (h : scan cs = some (n, rest)) :
    ∃ text, n.Writes text ∧ cs = text ++ rest := by
  unfold scan at h
  split at h
  next negative unsigned hsign =>
  split at h
  · cases h
  · next whole after hne hrun =>
    obtain ⟨rfl, hall⟩ := eq_append_of_digitRun hrun
    generalize htakeFraction : takeFraction after = fractional at h
    obtain ⟨fraction, between⟩ := fractional
    dsimp only at h
    generalize htakeExponent : takeExponent between = exponential at h
    obtain ⟨exponent, last⟩ := exponential
    obtain ⟨rfl, rfl⟩ := Prod.mk.inj (Option.some.inj h)
    obtain ⟨fractionText, hfraction, rfl⟩ := eq_append_of_takeFraction htakeFraction
    obtain ⟨exponentText, hexponent, rfl⟩ := eq_append_of_takeExponent htakeExponent
    refine ⟨_, .mk ⟨hne, hall⟩ hfraction hexponent, ?_⟩
    split at hsign
    · obtain ⟨rfl, rfl⟩ := Prod.mk.inj hsign
      simp
    · obtain ⟨rfl, rfl⟩ := Prod.mk.inj hsign
      simp

/-! ### Integers -/

/-- The digits of a natural number are digits. -/
theorem isDigits_toDigits (k : Nat) : IsDigits (Nat.toDigits 10 k) :=
  ⟨Nat.toDigits_ne_nil, fun _ hc => Nat.isDigit_of_mem_toDigits (by decide) (by decide) hc⟩

/-- The text of an integer is a sign and the digits of its magnitude. -/
theorem toList_toString (z : Int) :
    (toString z).toList = (if z < 0 then ['-'] else []) ++ Nat.toDigits 10 z.natAbs := by
  cases z with
  | ofNat k => simp [Int.toString_eq_repr, Int.repr]
  | negSucc k => simp [Int.toString_eq_repr, Int.repr]

/-- The numeral of an integer. -/
def ofInt (z : Int) : Numeral :=
  ⟨decide (z < 0), Nat.toDigits 10 z.natAbs, [], none⟩

/-- The text of an integer is its numeral. -/
theorem writes_toString (z : Int) : (ofInt z).Writes (toString z).toList := by
  have h : (ofInt z).Writes _ := .mk (isDigits_toDigits z.natAbs) .none .none
  rw [toList_toString]
  simpa using h

/-- The numeral of an integer stands for it. -/
theorem toInt_ofInt (z : Int) : (ofInt z).toInt = z := by
  have hvalue : digitsValue (Nat.toDigits 10 z.natAbs) = z.natAbs := Nat.ofDigitChars_ten_toDigits
  simp only [toInt, ofInt, hvalue, decide_eq_true_eq]
  split <;> omega

/-- The numeral of an integer in range is read as it. -/
theorem toInt64?_ofInt {z : Int} (hlow : Int64.minValue.toInt ≤ z)
    (hhigh : z ≤ Int64.maxValue.toInt) :
    (ofInt z).toInt64? = some (Int64.ofInt z) := by
  rw [toInt64?, toInt_ofInt, if_pos ⟨hlow, hhigh⟩]

end Numeral

/-! ### Finite numbers -/

namespace Decimal

open Numeral

/-- The digits of a decimal are its significant digits and zeros. -/
theorem toDigits_eq (d : Decimal) : ∃ zeros, Nat.toDigits 10 d.digits =
    d.significantDigits ++ List.replicate zeros '0' := by
  let reversed := (Nat.toDigits 10 d.digits).reverse
  refine ⟨(reversed.takeWhile (· == '0')).length, ?_⟩
  have hzeros : reversed.takeWhile (· == '0') =
      List.replicate (reversed.takeWhile (· == '0')).length '0' :=
    List.eq_replicate_of_mem fun c hc => by simpa using List.all_eq_true.mp List.all_takeWhile c hc
  have hsplit : reversed.takeWhile (· == '0') ++ reversed.dropWhile (· == '0') = reversed :=
    List.takeWhile_append_dropWhile
  have hreverse := congrArg List.reverse hsplit
  rw [List.reverse_append, hzeros, List.reverse_replicate] at hreverse
  simpa [significantDigits, reversed] using hreverse.symm

/-- The significant digits are digits. -/
theorem isDigit_significantDigits (d : Decimal) : ∀ c ∈ d.significantDigits, c.isDigit = true := by
  obtain ⟨zeros, hzeros⟩ := d.toDigits_eq
  intro c hc
  refine (isDigits_toDigits d.digits).2 c ?_
  rw [hzeros]
  exact List.mem_append_left _ hc

/-- Zeros at the end multiply by powers of ten. -/
theorem digitsValue_append_zeros (digits : List Char) (zeros : Nat) :
    digitsValue (digits ++ List.replicate zeros '0') = digitsValue digits * 10 ^ zeros := by
  rw [digitsValue, Nat.ofDigitChars_append, Nat.ofDigitChars_replicate_zero, Nat.mul_comm]
  rfl

/-- Zeros in front change nothing. -/
theorem digitsValue_zeros_append (zeros : Nat) (digits : List Char) :
    digitsValue (List.replicate zeros '0' ++ digits) = digitsValue digits := by
  rw [digitsValue, Nat.ofDigitChars_append, Nat.ofDigitChars_replicate_zero, Nat.mul_zero]
  rfl

/-- The significant digits stand for what the decimal stands for, up to zeros. -/
theorem ofDecimal_significantDigits {d : Decimal} (hd : 0 < d.digits) (negative : Bool)
    (zeros : Nat)
    {scale : Int} (hscale : scale = d.point - d.significantDigits.length - zeros) :
    Double.ofDecimal negative (digitsValue d.significantDigits * 10 ^ zeros) scale =
      Double.ofDecimal negative d.digits d.scale := by
  obtain ⟨more, hmore⟩ := d.toDigits_eq
  have hlength : d.point = d.significantDigits.length + more + d.scale := by
    simp [point, hmore]
  have hvalue : d.digits = digitsValue d.significantDigits * 10 ^ more := by
    rw [← digitsValue_append_zeros, ← hmore]
    exact Nat.ofDigitChars_ten_toDigits.symm
  have hpos : 0 < digitsValue d.significantDigits := by
    rw [hvalue] at hd
    exact Nat.pos_of_mul_pos_right hd
  have htop : scale = d.scale + more - zeros := by omega
  rw [htop, Double.ofDecimal_mul_pow negative hpos, hvalue,
    ← Double.ofDecimal_mul_pow negative hpos more, Int.add_sub_cancel]

/-- There is a significant digit. -/
theorem significantDigits_ne_nil {d : Decimal} (hd : 0 < d.digits) : d.significantDigits ≠ [] := by
  intro hnil
  obtain ⟨zeros, hzeros⟩ := d.toDigits_eq
  have hvalue : digitsValue (Nat.toDigits 10 d.digits) = d.digits := Nat.ofDigitChars_ten_toDigits
  rw [hzeros, hnil, digitsValue_append_zeros] at hvalue
  simp [digitsValue] at hvalue
  omega

/-- With a sign in front, the text is a numeral, and no integer, that stands for what the decimal
stands for. -/
def ReadsBack (d : Decimal) (text : List Char) : Prop :=
  ∀ negative : Bool, ∃ n : Numeral, n.Writes ((if negative then ['-'] else []) ++ text) ∧
    n.isInteger = false ∧ n.toDouble = .ofDecimal negative d.digits d.scale

/-- The parts of a numeral read back when their digits are the significant ones and zeros, and the
scale agrees. -/
theorem readsBack_of_parts {d : Decimal} (hd : 0 < d.digits)
    {whole fraction fractionText exponentText : List Char} {exponent : Option (Bool × List Char)}
    (hwhole : IsDigits whole) (hfraction : WritesFraction fraction fractionText)
    (hexponent : WritesExponent exponent exponentText)
    (hpoint : fraction.isEmpty = false ∨ exponent.isNone = false) (zeros : Nat)
    (hvalue : digitsValue (whole ++ fraction) = digitsValue d.significantDigits * 10 ^ zeros)
    (hscale : power ⟨false, whole, fraction, exponent⟩ - fraction.length =
      d.point - d.significantDigits.length - zeros) :
    d.ReadsBack (whole ++ fractionText ++ exponentText) := by
  intro negative
  refine ⟨⟨negative, whole, fraction, exponent⟩, ?_, ?_, ?_⟩
  · simpa using Numeral.Writes.mk hwhole hfraction hexponent
  · rcases hpoint with h | h <;> simp [isInteger, h]
  · rw [toDouble, hvalue]
    exact ofDecimal_significantDigits hd negative zeros hscale

/-- Zeros are digits. -/
theorem isDigit_zeros (count : Nat) : ∀ c ∈ List.replicate count '0', c.isDigit = true := by
  intro c hc
  rw [List.eq_of_mem_replicate hc]
  rfl

/-- Digits and a point read back. -/
theorem readsBack_positional {d : Decimal} (hd : 0 < d.digits) :
    d.ReadsBack (positional d.significantDigits d.point) := by
  have hall := d.isDigit_significantDigits
  have hne := significantDigits_ne_nil hd
  unfold positional
  split
  · next hpoint =>
    -- Zeros stand between the point and the first digit.
    have hwhole : IsDigits ['0'] := ⟨by simp, by simp⟩
    have hfraction : IsDigits (List.replicate (-d.point).toNat '0' ++ d.significantDigits) :=
      ⟨by simp [hne], List.forall_mem_append.mpr ⟨isDigit_zeros _, hall⟩⟩
    have hvalue := digitsValue_zeros_append ((-d.point).toNat + 1) d.significantDigits
    have h := readsBack_of_parts hd hwhole (.some hfraction) .none (by simp [hne]) 0
      (by simpa [List.replicate_succ] using hvalue) (by simp [power]; omega)
    simpa using h
  · next hpoint =>
    split
    · next hinside =>
      -- The point stands between two digits.
      have hwhole : IsDigits (d.significantDigits.take d.point.toNat) :=
        ⟨by simp [hne]; omega, fun c hc => hall c (List.mem_of_mem_take hc)⟩
      have hfraction : IsDigits (d.significantDigits.drop d.point.toNat) :=
        ⟨by simp; omega, fun c hc => hall c (List.mem_of_mem_drop hc)⟩
      have h := readsBack_of_parts hd hwhole (.some hfraction) .none (by simp; omega) 0
        (by simp) (by simp [power]; omega)
      simpa using h
    · next houtside =>
      -- Zeros stand between the last digit and the point.
      have hwhole : IsDigits (d.significantDigits ++
          List.replicate (d.point.toNat - d.significantDigits.length) '0') :=
        ⟨by simp [hne], List.forall_mem_append.mpr ⟨hall, isDigit_zeros _⟩⟩
      have hfraction : IsDigits ['0'] := ⟨by simp, by simp⟩
      have hvalue := digitsValue_append_zeros d.significantDigits
        (d.point.toNat - d.significantDigits.length + 1)
      have h := readsBack_of_parts hd hwhole (.some hfraction) .none (by simp)
        (d.point.toNat - d.significantDigits.length + 1)
        (by simpa [List.replicate_succ'] using hvalue) (by simp [power]; omega)
      simpa using h

/-- The text of an exponent is a sign and digits. -/
theorem writesExponent_toString (z : Int) : ∃ exponent, exponent.isNone = false ∧
    WritesExponent exponent ('e' :: (toString z).toList) ∧
    ∀ whole fraction, power ⟨false, whole, fraction, exponent⟩ = z := by
  have hvalue : digitsValue (Nat.toDigits 10 z.natAbs) = z.natAbs := Nat.ofDigitChars_ten_toDigits
  rw [toList_toString]
  by_cases hneg : z < 0
  · refine ⟨some (true, Nat.toDigits 10 z.natAbs), rfl, ?_, ?_⟩
    · rw [if_pos hneg]
      exact .some (.inl rfl) .minus (isDigits_toDigits z.natAbs)
    · intro whole fraction
      simp only [power, hvalue]
      omega
  · refine ⟨some (false, Nat.toDigits 10 z.natAbs), rfl, ?_, ?_⟩
    · rw [if_neg hneg]
      exact .some (.inl rfl) .bare (isDigits_toDigits z.natAbs)
    · intro whole fraction
      simp only [power, hvalue]
      omega

/-- Digits with an exponent read back. -/
theorem readsBack_scientific {d : Decimal} (hd : 0 < d.digits) :
    d.ReadsBack (scientific d.significantDigits d.point) := by
  have hall := d.isDigit_significantDigits
  have hne := significantDigits_ne_nil hd
  obtain ⟨exponent, hsome, hexponent, hpower⟩ := writesExponent_toString (d.point - 1)
  have hwhole : IsDigits (d.significantDigits.take 1) :=
    ⟨by simp [hne], fun c hc => hall c (List.mem_of_mem_take hc)⟩
  have hlength := List.length_pos_iff.mpr hne
  have hfraction : WritesFraction (d.significantDigits.drop 1)
      (if d.significantDigits.length ≤ 1 then [] else '.' :: d.significantDigits.drop 1) := by
    split
    · next hshort =>
      rw [List.drop_eq_nil_of_le hshort]
      exact .none
    · next hlong =>
      have hrest : d.significantDigits.drop 1 ≠ [] := by
        rw [ne_eq, List.drop_eq_nil_iff]
        exact hlong
      exact .some ⟨hrest, fun c hc => hall c (List.mem_of_mem_drop hc)⟩
  have hscale : d.point - 1 - (d.significantDigits.drop 1).length =
      d.point - d.significantDigits.length - (0 : Nat) := by
    rw [List.length_drop]
    omega
  refine readsBack_of_parts hd hwhole hfraction hexponent (.inr hsome) 0 ?_ ?_
  · rw [List.take_append_drop, Nat.pow_zero, Nat.mul_one]
  · rw [hpower, hscale]

/-- The text of a decimal reads back. -/
theorem readsBack_text {d : Decimal} (hd : 0 < d.digits) : d.ReadsBack d.text := by
  unfold text
  split
  · exact readsBack_positional hd
  · exact readsBack_scientific hd

end Decimal

namespace Double

open Numeral

/-- The text of a finite number is a numeral, and no integer, that stands for it. -/
theorem writes_text (negative : Bool) (rank : Fin finiteMagnitudes) :
    ∃ n : Numeral, n.Writes (text (.finite negative rank)).toList ∧ n.isInteger = false ∧
      n.toDouble = .finite negative rank := by
  obtain ⟨rank, hrank⟩ := rank
  by_cases hzero : rank = 0
  · subst hzero
    have hdigits : IsDigits ['0'] := ⟨by simp, by simp⟩
    have h : Numeral.Writes ⟨negative, ['0'], ['0'], none⟩ _ :=
      .mk hdigits (.some hdigits) .none
    refine ⟨⟨negative, ['0'], ['0'], none⟩, ?_, rfl, rfl⟩
    simpa [text, magnitudeText] using h
  · have hpos := Nat.pos_of_ne_zero hzero
    obtain ⟨hdigits, hrank', hdecimal⟩ :=
      ofDecimal_of_readsBack hpos (readsBack_shortest hpos hrank)
    obtain ⟨n, hn, hinteger, hdouble⟩ := Decimal.readsBack_text hdigits negative
    refine ⟨n, ?_, hinteger, hdouble.trans (hdecimal negative)⟩
    simpa [text, magnitudeText, hzero] using hn

end Double

end FluentSql
