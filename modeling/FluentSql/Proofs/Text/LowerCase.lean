import FluentSql.Text.Case
import Mathlib.Data.List.Basic

/-!
# Lower case of parts of a text

A part of a text is made small as it would be alone, except for its capital sigmas: the small form
of a sigma depends on what surrounds it, also outside the part. So a text that contains a needle
need not contain it any more once both are made small. It does, whatever the text is, exactly if the
needle settles the form of each of its sigmas by itself.
-/

namespace FluentSql.Text

/-- A needle occurs among characters exactly if it is a run of neighbours there. -/
theorem occursIn_iff {needle cs : List Char} : occursIn needle cs = true ↔ needle <:+: cs := by
  induction cs with
  | nil => simp [occursIn]
  | cons c cs ih => simp [occursIn, ih, List.infix_cons_iff]

/-! ### What surrounds a sigma -/

/-- The character is ignored for case. -/
def isIgnorable (c : Char) : Bool :=
  inRanges caseIgnorableRanges c

/-- Whether characters start with a cased letter depends on the first one that is not ignored. -/
theorem startsCased_cons (c : Char) (cs : List Char) :
    startsCased (c :: cs) = if isIgnorable c then startsCased cs else inRanges casedRanges c := by
  unfold startsCased isIgnorable
  rw [List.dropWhile_cons]
  by_cases hc : inRanges caseIgnorableRanges c = true
  · rw [if_pos hc, if_pos hc]
  · rw [if_neg hc, if_neg hc]

/-- What comes behind characters matters only if all of them are ignored for case. -/
theorem startsCased_append (cs ds : List Char) :
    startsCased (cs ++ ds) = if cs.all isIgnorable then startsCased ds else startsCased cs := by
  induction cs with
  | nil => rfl
  | cons c cs ih =>
    rw [List.cons_append, startsCased_cons, startsCased_cons, List.all_cons, ih]
    by_cases hc : isIgnorable c = true <;> simp [hc]

/-- Characters that are all ignored for case do not start with a letter. -/
theorem startsCased_of_all {cs : List Char} (h : cs.all isIgnorable = true) :
    startsCased cs = false := by
  have happend := startsCased_append cs []
  rwa [List.append_nil, if_pos h] at happend

/-- The characters `before` (nearest first) and `after` a capital sigma settle its small form,
whatever stands farther away: the sigma may not be final just because nothing follows, nor lack a
letter in front just because nothing precedes. -/
def settlesSigma (before after : List Char) : Bool :=
  if before.all isIgnorable then startsCased after
  else !(startsCased before && after.all isIgnorable)

/-- A sigma is final exactly if there is a letter before it and none after it. -/
theorem smallSigma_eq_final_iff {before after : List Char} :
    smallSigma before after = 'ς' ↔ startsCased before = true ∧ startsCased after = false := by
  unfold smallSigma
  split <;> simp_all

/-- A sigma has one of two forms. -/
theorem smallSigma_ne_final_iff {before after : List Char} :
    smallSigma before after ≠ 'ς' ↔ smallSigma before after = 'σ' := by
  unfold smallSigma
  split <;> simp

/-- The form of a settled sigma is the same in all surroundings. -/
theorem smallSigma_append {before after : List Char} (h : settlesSigma before after = true)
    (farBefore farAfter : List Char) :
    smallSigma (before ++ farBefore) (after ++ farAfter) = smallSigma before after := by
  unfold settlesSigma at h
  unfold smallSigma
  by_cases hbefore : before.all isIgnorable = true
  · -- Nothing in front decides, but the letter behind does.
    rw [if_pos hbefore] at h
    have hafter : ¬ after.all isIgnorable = true := fun hall =>
      Bool.false_ne_true ((startsCased_of_all hall).symm.trans h)
    rw [startsCased_append after, if_neg hafter, h, startsCased_of_all hbefore]
    simp
  · rw [if_neg hbefore] at h
    rw [startsCased_append before, if_neg hbefore, startsCased_append after]
    by_cases hafter : after.all isIgnorable = true
    · have hnone : startsCased before = false := by simpa [hafter] using h
      rw [hnone, Bool.false_and, Bool.false_and]
    · rw [if_neg hafter]

/-! ### Lower case in surroundings -/

/-- Lower case of characters between others, which are `before` (nearest first) and `after`. -/
def lowerBetween (before after : List Char) : List Char → List Char
  | [] => []
  | c :: cs =>
    (if c = 'Σ' then [smallSigma before (cs ++ after)] else mapCase lowerRuns lowerExpansions c) ++
      lowerBetween (c :: before) after cs

/-- Lower case of characters with nothing after them. -/
theorem lowerAfter_eq (before cs : List Char) :
    lowerAfter before cs = lowerBetween before [] cs := by
  induction cs generalizing before with
  | nil => rfl
  | cons c cs ih => rw [lowerAfter, lowerBetween, ih, List.append_nil]

/-- Each part of a text is made small between what is before and after it. -/
theorem lowerBetween_append (before after cs ds : List Char) :
    lowerBetween before after (cs ++ ds) =
      lowerBetween before (ds ++ after) cs ++ lowerBetween (cs.reverse ++ before) after ds := by
  induction cs generalizing before with
  | nil => rfl
  | cons c cs ih =>
    rw [List.cons_append, lowerBetween, lowerBetween, ih, List.append_assoc, List.append_assoc,
      List.reverse_cons, List.append_assoc, List.singleton_append]

/-- Each capital sigma among the characters that follow `before` (nearest first) is settled. -/
def settlesSigmas (before : List Char) : List Char → Bool
  | [] => true
  | c :: cs => (c != 'Σ' || settlesSigma before cs) && settlesSigmas (c :: before) cs

/-- Without capital sigmas there is none to settle. -/
theorem settlesSigmas_of_notMem {before cs : List Char} (h : 'Σ' ∉ cs) :
    settlesSigmas before cs = true := by
  induction cs generalizing before with
  | nil => rfl
  | cons c cs ih =>
    obtain ⟨hc, hcs⟩ := List.ne_and_not_mem_of_not_mem_cons h
    rw [settlesSigmas, ih hcs, Bool.and_true, Bool.or_eq_true, bne_iff_ne]
    exact .inl hc.symm

/-- With all sigmas settled the surroundings do not matter. -/
theorem lowerBetween_of_settlesSigmas {before cs : List Char}
    (h : settlesSigmas before cs = true) (farBefore after : List Char) :
    lowerBetween (before ++ farBefore) after cs = lowerBetween before [] cs := by
  induction cs generalizing before with
  | nil => rfl
  | cons c cs ih =>
    rw [settlesSigmas, Bool.and_eq_true] at h
    obtain ⟨hfirst, hrest⟩ := h
    have hlater := ih hrest
    rw [List.cons_append] at hlater
    rw [lowerBetween, lowerBetween, hlater, List.append_nil]
    by_cases hc : c = 'Σ'
    · rw [if_pos hc, if_pos hc, smallSigma_append (by simpa [hc] using hfirst)]
    · rw [if_neg hc, if_neg hc]

/-- A sigma that is not settled stands somewhere. -/
theorem exists_of_settlesSigmas_eq_false {before cs : List Char}
    (h : settlesSigmas before cs = false) :
    ∃ front back, cs = front ++ 'Σ' :: back ∧
      settlesSigma (front.reverse ++ before) back = false := by
  induction cs generalizing before with
  | nil => cases h
  | cons c cs ih =>
    rw [settlesSigmas, Bool.and_eq_false_iff] at h
    rcases h with hfirst | hrest
    · obtain ⟨hc, hsigma⟩ : c = 'Σ' ∧ settlesSigma before cs = false := by simpa using hfirst
      exact ⟨[], cs, by rw [hc]; rfl, hsigma⟩
    · obtain ⟨front, back, rfl, hsigma⟩ := ih hrest
      exact ⟨c :: front, back, rfl, by simpa using hsigma⟩

/-- A needle whose sigmas are settled is found in every text that contains it. -/
theorem containsIgnoringCase_of_infix {text needle : String}
    (h : settlesSigmas [] needle.toList = true) (hwithin : needle.toList <:+: text.toList) :
    containsIgnoringCase text needle = true := by
  obtain ⟨front, back, htext⟩ := hwithin
  have hneedle := lowerBetween_of_settlesSigmas h front.reverse back
  rw [containsIgnoringCase, occursIn_iff, lower, lower, String.toList_ofList, String.toList_ofList,
    lowerAfter_eq, lowerAfter_eq, ← htext, lowerBetween_append, lowerBetween_append,
    List.append_nil, List.append_nil, ← hneedle]
  exact ⟨_, _, rfl⟩

/-! ### Sigmas that are not settled -/

section Count

variable {form : Char} {before after before' after' : List Char}

/-- Surroundings that give a form to more sigmas give more characters of the form. -/
theorem count_lowerBetween_le
    (hforms : ∀ front back, smallSigma (front ++ before) (back ++ after) = form →
      smallSigma (front ++ before') (back ++ after') = form) (cs : List Char) :
    (lowerBetween before after cs).count form ≤ (lowerBetween before' after' cs).count form := by
  induction cs generalizing before before' with
  | nil => exact Nat.le_refl 0
  | cons c cs ih =>
    rw [lowerBetween, lowerBetween, List.count_append, List.count_append]
    refine Nat.add_le_add ?_ (ih fun front back h => ?_)
    · by_cases hc : c = 'Σ'
      · rw [if_pos hc, if_pos hc, List.count_singleton, List.count_singleton]
        have hfirst := hforms [] cs
        simp only [List.nil_append] at hfirst
        by_cases hform : smallSigma before (cs ++ after) = form
        · exact Nat.le_of_eq (by rw [hform, hfirst hform])
        · simp [hform]
      · exact Nat.le_of_eq (by rw [if_neg hc, if_neg hc])
    · have hnext := hforms (front ++ [c]) back
      simp only [List.append_assoc, List.singleton_append] at hnext
      exact hnext h

/-- They give more of them, if one sigma has the form there alone. -/
theorem count_lowerBetween_lt
    (hforms : ∀ front back, smallSigma (front ++ before) (back ++ after) = form →
      smallSigma (front ++ before') (back ++ after') = form) {front back : List Char}
    (hother : smallSigma (front.reverse ++ before) (back ++ after) ≠ form)
    (hform : smallSigma (front.reverse ++ before') (back ++ after') = form) :
    (lowerBetween before after (front ++ 'Σ' :: back)).count form <
      (lowerBetween before' after' (front ++ 'Σ' :: back)).count form := by
  rw [lowerBetween_append, lowerBetween_append, List.count_append, List.count_append]
  refine Nat.add_lt_add_of_le_of_lt ?_ ?_
  · refine count_lowerBetween_le (fun front' back' h => ?_) front
    have hnext := hforms front' (back' ++ 'Σ' :: back)
    simp only [List.append_assoc] at hnext
    exact hnext h
  · rw [lowerBetween, lowerBetween, if_pos rfl, if_pos rfl, List.count_append, List.count_append,
      List.count_singleton, List.count_singleton, if_neg (by simpa using hother),
      if_pos (by simpa using hform), Nat.zero_add, Nat.add_comm]
    refine Nat.lt_succ_of_le (count_lowerBetween_le (fun front' back' h => ?_) back)
    have hnext := hforms (front' ++ 'Σ' :: front.reverse) back'
    simp only [List.append_assoc, List.cons_append] at hnext
    exact hnext h

end Count

/-- A letter at the end counts if all before it is ignored for case. -/
theorem startsCased_append_letter (cs : List Char) :
    startsCased (cs ++ ['a']) = (cs.all isIgnorable || startsCased cs) := by
  have hletter : startsCased ['a'] = true := by decide +kernel
  rw [startsCased_append, hletter]
  cases cs.all isIgnorable <;> rfl

/-- A small letter is left as it is. -/
theorem lowerBetween_letter (before after : List Char) :
    lowerBetween before after ['a'] = ['a'] := by
  have hletter : mapCase lowerRuns lowerExpansions 'a' = ['a'] := by decide +kernel
  rw [lowerBetween, if_neg (by decide), hletter]
  rfl

/-- Characters with more of some kind do not occur among those with less. -/
theorem not_infix_of_count_lt {c : Char} {cs ds : List Char} (h : ds.count c < cs.count c) :
    ¬ cs <:+: ds :=
  fun hwithin => absurd (hwithin.sublist.count_le c) (Nat.not_le_of_lt h)

/-- A needle with a sigma that is final just because nothing follows is lost before a letter. -/
theorem not_infix_append_letter {front back : List Char}
    (hbefore : startsCased front.reverse = true) (hafter : back.all isIgnorable = true) :
    let needle := front ++ 'Σ' :: back
    ¬ lowerBetween [] [] needle <:+: lowerBetween [] [] (needle ++ ['a']) := by
  intro needle
  refine not_infix_of_count_lt (c := 'ς') ?_
  rw [lowerBetween_append, lowerBetween_letter, List.count_append, List.append_nil]
  refine count_lowerBetween_lt (fun front back h => ?_) ?_ ?_
  · rw [smallSigma_eq_final_iff, startsCased_append_letter, Bool.or_eq_false_iff] at h
    rw [smallSigma_eq_final_iff, List.append_nil back]
    exact ⟨h.1, h.2.2⟩
  · rw [Ne, smallSigma_eq_final_iff, startsCased_append_letter, hafter]
    simp
  · rw [smallSigma_eq_final_iff, List.append_nil, List.append_nil]
    exact ⟨hbefore, startsCased_of_all hafter⟩

/-- A needle with a sigma that lacks a letter in front just because nothing precedes is lost behind
a letter, where the sigma is final. -/
theorem not_infix_letter_append {front back : List Char}
    (hbefore : front.all isIgnorable = true) (hafter : startsCased back = false) :
    let needle := front ++ 'Σ' :: back
    ¬ lowerBetween [] [] needle <:+: lowerBetween [] [] (['a'] ++ needle) := by
  intro needle
  refine not_infix_of_count_lt (c := 'σ') ?_
  rw [lowerBetween_append, lowerBetween_letter, List.count_append]
  have hreverse : front.reverse.all isIgnorable = true := by rwa [List.all_reverse]
  have hletter : (['a'] : List Char).count 'σ' = 0 := by decide
  rw [hletter, Nat.zero_add]
  refine count_lowerBetween_lt (fun front back h => ?_) ?_ ?_
  · rw [← smallSigma_ne_final_iff] at h ⊢
    refine mt (fun hfinal => ?_) h
    rw [smallSigma_eq_final_iff, List.append_nil] at hfinal
    rw [smallSigma_eq_final_iff]
    exact ⟨(startsCased_append_letter front).trans (by simp [hfinal.1]), hfinal.2⟩
  · rw [Ne, ← smallSigma_ne_final_iff, not_not, smallSigma_eq_final_iff, List.append_nil back]
    exact ⟨(startsCased_append_letter _).trans (by simp [hreverse]), hafter⟩
  · rw [← smallSigma_ne_final_iff, Ne, smallSigma_eq_final_iff, List.append_nil,
      startsCased_of_all hreverse]
    simp

/-- A needle whose sigmas are not all settled is lost in some text that contains it. -/
theorem exists_containsIgnoringCase_eq_false {needle : String}
    (h : settlesSigmas [] needle.toList = false) :
    ∃ text, needle.toList <:+: text.toList ∧ containsIgnoringCase text needle = false := by
  have hlost {cs : List Char}
      (hnot : ¬ lowerBetween [] [] needle.toList <:+: lowerBetween [] [] cs) :
      containsIgnoringCase (String.ofList cs) needle = false := by
    rw [Bool.eq_false_iff, Ne, containsIgnoringCase, occursIn_iff, lower, lower]
    simpa only [String.toList_ofList, lowerAfter_eq] using hnot
  obtain ⟨front, back, hneedle, hsigma⟩ := exists_of_settlesSigmas_eq_false h
  rw [List.append_nil, settlesSigma, List.all_reverse] at hsigma
  by_cases hfront : front.all isIgnorable = true
  · rw [if_pos hfront] at hsigma
    refine ⟨String.ofList (['a'] ++ needle.toList), ?_, hlost ?_⟩
    · rw [String.toList_ofList]
      exact (List.suffix_append _ _).isInfix
    · rw [hneedle]
      exact not_infix_letter_append hfront hsigma
  · rw [if_neg hfront, Bool.not_eq_false', Bool.and_eq_true] at hsigma
    refine ⟨String.ofList (needle.toList ++ ['a']), ?_, hlost ?_⟩
    · rw [String.toList_ofList]
      exact (List.prefix_append _ _).isInfix
    · rw [hneedle]
      exact not_infix_append_letter hsigma.1 hsigma.2

/-- The sigma at the end of a needle may be one within a word; one between letters is settled. -/
example : settlesSigmas [] "ΟΔΟΣ".toList = false ∧ settlesSigmas [] "ΟΔΟΣ.".toList = false ∧
    settlesSigmas [] "ΜΕΣΑ".toList = true := by
  decide +kernel

end FluentSql.Text
