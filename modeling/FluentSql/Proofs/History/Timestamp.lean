import FluentSql.History.Timestamp
import FluentSql.Proofs.Number.Reading

/-!
# Points in time are read back

The text of a valid point in time is read back to it, and every point in time that is read is valid.
-/

namespace FluentSql.Timestamp

open Numeral

/-! ### Numbers with zeros in front -/

/-- A padded number is written with digits. -/
theorem isDigits_padded (width n : Nat) : IsDigits (padded width n) := by
  obtain ⟨hne, hdigit⟩ := isDigits_toDigits n
  refine ⟨fun hnil => hne (List.append_eq_nil_iff.mp hnil).2, fun c hc => ?_⟩
  rcases List.mem_append.mp hc with hzero | hmem
  · exact Decimal.isDigit_zeros _ c hzero
  · exact hdigit c hmem

/-- A padded number stands for the number. -/
theorem digitsValue_padded (width n : Nat) : digitsValue (padded width n) = n := by
  rw [padded, Decimal.digitsValue_zeros_append]
  exact Nat.ofDigitChars_ten_toDigits

/-- A padded number is as long as it should be, unless it is too large. -/
theorem length_padded {width n : Nat} (hwidth : 0 < width) (hn : n < 10 ^ width) :
    (padded width n).length = width := by
  have hlength := (Nat.length_toDigits_le_iff (by decide) hwidth).mpr hn
  rw [padded, List.length_append, List.length_replicate, Nat.sub_add_cancel hlength]

/-- A padded number starts with a digit. -/
theorem exists_padded_eq (width n : Nat) :
    ∃ c cs, padded width n = c :: cs ∧ c.isDigit = true := by
  obtain ⟨hne, hdigit⟩ := isDigits_padded width n
  obtain ⟨c, cs, hcs⟩ := List.exists_cons_of_ne_nil hne
  exact ⟨c, cs, hcs, hdigit c (hcs ▸ List.mem_cons_self)⟩

/-- Digits are taken up to the character after them. -/
theorem takeNumber_append {width : Nat} {digits rest : List Char} (hdigits : IsDigits digits)
    (hlength : digits.length ≤ width) (hrest : ∀ c ∈ rest.head?, c.isDigit = false) :
    takeNumber width (digits ++ rest) = some (digitsValue digits, rest) := by
  have hrun : ((digits ++ rest).take width).takeWhile Char.isDigit = digits := by
    rw [List.take_append, List.take_of_length_le hlength]
    refine (Text.run_append hdigits.2 fun c hc => hrest c ?_).1
    rw [List.head?_take] at hc
    split at hc
    · cases hc
    · exact hc
  obtain ⟨c, cs, rfl⟩ := List.exists_cons_of_ne_nil hdigits.1
  simp only [takeNumber, hrun, List.drop_left]

/-- A padded number is taken up to the character after it. -/
theorem takeNumber_padded {width n : Nat} {rest : List Char} (hwidth : 0 < width)
    (hn : n < 10 ^ width) (hrest : ∀ c ∈ rest.head?, c.isDigit = false) :
    takeNumber width (padded width n ++ rest) = some (n, rest) := by
  rw [takeNumber_append (isDigits_padded width n) (length_padded hwidth hn).le hrest,
    digitsValue_padded]

/-! ### The parts of a point in time -/

/-- Nothing is skipped where no blank stands. -/
theorem skip_eq_self {cs : List Char} (h : ∀ c ∈ cs.head?, Text.isBlank c = false) :
    skip cs = cs := by
  cases cs with
  | nil => rfl
  | cons c cs => rw [skip, List.dropWhile_cons_of_neg (by simp [h c rfl])]

/-- Nothing is skipped in front of a padded number. -/
theorem skip_padded (width n : Nat) (rest : List Char) :
    skip (padded width n ++ rest) = padded width n ++ rest := by
  obtain ⟨c, cs, hcs, hdigit⟩ := exists_padded_eq width n
  rw [hcs]
  refine skip_eq_self ?_
  rintro _ ⟨⟩
  rw [Bool.eq_false_iff]
  intro hblank
  rw [Text.isDigit_of_isBlank hblank] at hdigit
  cases hdigit

/-- A separator is neither a digit nor a blank. -/
def IsSeparator (c : Char) : Prop :=
  c.isDigit = false ∧ Text.isBlank c = false

/-- A part of two digits is taken with the separator after it. -/
theorem takePart_padded {n : Nat} {separator : Char} (hn : n < 100)
    (hseparator : IsSeparator separator) (rest : List Char) :
    takePart separator (padded 2 n ++ separator :: rest) = some (n, rest) := by
  have hnumber : takeNumber 2 (padded 2 n ++ separator :: rest) = some (n, separator :: rest) :=
    takeNumber_padded (by decide) hn (by simpa using hseparator.1)
  have hskip : skip (separator :: rest) = separator :: rest :=
    skip_eq_self (by simpa using hseparator.2)
  simp [takePart, skip_padded, hnumber, hskip, takeChar]

/-- A year that starts with a digit has no sign. -/
theorem takeYear_of_isDigit {c : Char} (hdigit : c.isDigit = true) (cs : List Char) :
    takeYear (c :: cs) = (takeNumber 4 (c :: cs)).map fun (n, rest) => ((n : Int), rest) := by
  unfold takeYear
  split
  · next heq =>
    rw [List.head_eq_of_cons_eq heq] at hdigit
    cases hdigit
  · next heq =>
    rw [List.head_eq_of_cons_eq heq] at hdigit
    cases hdigit
  · rfl

/-- A year is taken up to the hyphen after it. -/
theorem takeYear_yearText (year : Int) (rest : List Char) :
    takeYear (yearText year ++ '-' :: rest) = some (year, '-' :: rest) := by
  have hhyphen : ∀ c ∈ ('-' :: rest).head?, c.isDigit = false := by
    rintro _ ⟨⟩
    rfl
  unfold yearText
  split
  · next hyear =>
    have hnumber : takeNumber 4 (padded 4 year.toNat ++ '-' :: rest) =
        some (year.toNat, '-' :: rest) :=
      takeNumber_padded (by decide) (by omega) hhyphen
    obtain ⟨c, cs, hcs, hdigit⟩ := exists_padded_eq 4 year.toNat
    rw [hcs, List.cons_append] at hnumber ⊢
    rw [takeYear_of_isDigit hdigit, hnumber, Option.map_some]
    simp [hyear.1]
  · next hyear =>
    have hnumber : takeNumber (padded 4 year.natAbs ++ '-' :: rest).length
        (padded 4 year.natAbs ++ '-' :: rest) = some (year.natAbs, '-' :: rest) := by
      rw [takeNumber_append (isDigits_padded 4 year.natAbs) (by simp) hhyphen, digitsValue_padded]
    by_cases hneg : year < 0
    · simp only [if_pos hneg, List.cons_append, takeYear, hnumber, Option.map_some]
      congr 2
      omega
    · simp only [if_neg hneg, List.cons_append, takeYear, hnumber, Option.map_some]
      congr 2
      omega

/-- A fraction of some digits is taken up to the letter after it. -/
theorem takeNanos_padded {width n : Nat} (hwidth : 0 < width) (hnine : width ≤ 9)
    (hn : n < 10 ^ width) (rest : List Char) :
    takeNanos ('.' :: (padded width n ++ 'Z' :: rest)) =
      some (n * 10 ^ (9 - width), 'Z' :: rest) := by
  have hlength := length_padded hwidth hn
  have hletter : ∀ c ∈ ('Z' :: rest).head?, c.isDigit = false := by
    rintro _ ⟨⟩
    rfl
  obtain ⟨htake, hdrop⟩ := Text.run_append (isDigits_padded width n).2 hletter
  have hcounted : (padded width n).take 9 = padded width n :=
    List.take_of_length_le (hlength.trans_le hnine)
  have hvalue := digitsValue_padded width n
  obtain ⟨c, cs, hcs, -⟩ := exists_padded_eq width n
  rw [hcs] at htake hdrop hcounted hvalue hlength ⊢
  simp only [takeNanos, htake, hdrop, hcounted, hvalue, hlength]
  rfl

/-- The fraction of a second is taken up to the letter after it. -/
theorem takeNanos_fractionText {nanos : Nat} (hnanos : nanos < 1000000000) (rest : List Char) :
    takeNanos (fractionText nanos ++ 'Z' :: rest) = some (nanos, 'Z' :: rest) := by
  unfold fractionText
  split_ifs with hzero hmillis hmicros
  · rw [hzero]
    rfl
  · rw [List.cons_append, takeNanos_padded (by decide) (by decide) (by omega)]
    congr 2
    omega
  · rw [List.cons_append, takeNanos_padded (by decide) (by decide) (by omega)]
    congr 2
    omega
  · rw [List.cons_append, takeNanos_padded (by decide) (by decide) (by omega)]
    congr 2
    omega

/-- Nothing is subtracted. -/
theorem minus_zero {t : Timestamp} (hhour : t.hour < 24) (hminute : t.minute < 60) :
    t.minus 0 = t := by
  have hminutes : (t.hour * 60 + t.minute - 0 : Int).toNat = t.hour * 60 + t.minute := by omega
  have hdiv : (t.hour * 60 + t.minute) / 60 = t.hour := by omega
  have hmod : (t.hour * 60 + t.minute) % 60 = t.minute := by omega
  simp only [minus]
  rw [if_neg (by omega), if_pos (by omega), hminutes, atMinute, hdiv, hmod]

/-! ### Points in time -/

/-- A month or a day of a date has two digits at most. -/
theorem lt_of_isDate {year : Int} {month day : Nat} (h : Calendar.isDate year month day = true) :
    month < 100 ∧ day < 100 := by
  simp only [Calendar.isDate, Bool.and_eq_true, decide_eq_true_eq] at h
  have hmonth : Calendar.daysInMonth year month ≤ 31 := by
    unfold Calendar.daysInMonth
    split_ifs <;> omega
  omega

/-- Nothing is skipped in front of a year. -/
theorem skip_yearText (year : Int) (rest : List Char) :
    skip (yearText year ++ rest) = yearText year ++ rest := by
  unfold yearText
  split_ifs
  · exact skip_padded 4 year.toNat rest
  · exact skip_eq_self (by rintro _ ⟨⟩; rfl)
  · exact skip_eq_self (by rintro _ ⟨⟩; rfl)

/-- The fraction of a second does not start with a digit. -/
theorem head?_fractionText (nanos : Nat) :
    ∀ c ∈ (fractionText nanos ++ ['Z']).head?, c.isDigit = false := by
  unfold fractionText
  split_ifs <;> rintro _ ⟨⟩ <;> rfl

/-- The text of a point in time, part by part. -/
theorem toList_toText (t : Timestamp) :
    t.toText.toList = yearText t.year ++ '-' :: (padded 2 t.month ++ '-' :: (padded 2 t.day ++
      'T' :: (padded 2 t.hour ++ ':' :: (padded 2 t.minute ++ ':' :: (padded 2 t.second ++
        (fractionText t.nanos ++ ['Z'])))))) := by
  simp [toText]

/-- The text of a valid point in time is read back. -/
theorem ofText?_toText {t : Timestamp} (h : t.isValid = true) : ofText? t.toText = some t := by
  have hvalid := h
  simp only [isValid, Bool.and_eq_true, decide_eq_true_eq] at hvalid
  obtain ⟨⟨⟨⟨⟨-, hdate⟩, hhour⟩, hminute⟩, hsecond⟩, hnanos⟩ := hvalid
  obtain ⟨hmonth, hday⟩ := lt_of_isDate hdate
  have hhyphen : IsSeparator '-' := ⟨rfl, rfl⟩
  have hcolon : IsSeparator ':' := ⟨rfl, rfl⟩
  have hskip (cs : List Char) : skip ('-' :: cs) = '-' :: cs := rfl
  have hchar (cs : List Char) : takeChar '-' ('-' :: cs) = some cs := rfl
  have hdivider (cs : List Char) : takeDivider ('T' :: cs) = some cs := rfl
  have hdayNumber (cs : List Char) :
      takeNumber 2 (padded 2 t.day ++ 'T' :: cs) = some (t.day, 'T' :: cs) :=
    takeNumber_padded (by decide) hday (by rintro _ ⟨⟩; rfl)
  have hsecondNumber :
      takeNumber 2 (padded 2 t.second ++ (fractionText t.nanos ++ ['Z'])) =
        some (t.second, fractionText t.nanos ++ ['Z']) :=
    takeNumber_padded (by decide) (by omega) (head?_fractionText t.nanos)
  have hoffset : takeOffset (skip ['Z']) = some (0, []) := rfl
  rw [ofText?, toList_toText, skip_yearText, takeYear_yearText]
  simp only [Option.bind_eq_bind, Option.bind_some, hskip, hchar,
    takePart_padded hmonth hhyphen, skip_padded, hdayNumber, hdivider,
    takePart_padded (n := t.hour) (by omega) hcolon,
    takePart_padded (n := t.minute) (by omega) hcolon, hsecondNumber,
    takeNanos_fractionText hnanos, hoffset]
  rw [minus_zero hhour hminute, h]
  rfl

/-- What is read is valid. -/
theorem isValid_of_ofText? {text : String} {t : Timestamp} (h : ofText? text = some t) :
    t.isValid = true := by
  simp only [ofText?, Option.bind_eq_bind, Option.bind_eq_some_iff] at h
  obtain ⟨_, -, _, -, _, -, _, -, _, -, _, -, _, -, _, -, _, -, _, -, h⟩ := h
  split at h
  · next hvalid =>
    cases h
    exact ((Bool.and_eq_true _ _).mp hvalid).2
  · cases h

end FluentSql.Timestamp
