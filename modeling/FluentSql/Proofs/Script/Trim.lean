import FluentSql.Proofs.Script.Margin
import FluentSql.Proofs.Script.Completeness
import Mathlib.Data.List.DropRight

/-!
# Blank margins of scripts

An accepted text is accepted without its blank margins, as the same script. The blanks around a text
are not only those that the reader skips, so the converse does not hold.
-/

namespace FluentSql

namespace Script

/-! ### Bounds -/

/-- A number of values is no bound as long as it is at least that of the characters, if each value
takes a character. -/
theorem readMany_bound {α : Type} {item : Reader α}
    (hitem : ∀ cs value rest, item cs = .found value rest → rest.length < cs.length)
    (hnil : ∃ stop, item [] = .absent stop) {cs : List Char} {m n : Nat} (hm : cs.length ≤ m)
    (hn : cs.length ≤ n) : readMany item m cs = readMany item n cs := by
  have hzero (bound : Nat) : readMany item bound [] = .found [] [] := by
    obtain ⟨stop, hstop⟩ := hnil
    cases bound with
    | zero => rfl
    | succ bound => rw [readMany, hstop]
  induction m generalizing cs n with
  | zero =>
    rw [List.length_eq_zero_iff.mp (Nat.le_zero.mp hm), hzero, hzero]
  | succ m ih =>
    cases n with
    | zero => rw [List.length_eq_zero_iff.mp (Nat.le_zero.mp hn), hzero, hzero]
    | succ n =>
      rw [readMany, readMany]
      cases hread : item cs with
      | found value rest =>
        have hlt := hitem cs value rest hread
        dsimp only
        have hm' : rest.length ≤ m := by omega
        have hn' : rest.length ≤ n := by omega
        rw [ih hm' hn']
      | absent | failed => rfl

/-- What is skipped is not longer. -/
theorem length_skip_le (cs : List Char) : (skip cs).length ≤ cs.length :=
  (skip_suffix cs).length_le

/-- A comma with an expression after it takes a character. -/
theorem length_lt_of_readNext {inner : Reader Node} (hinner : TakesExpr inner) {cs rest : List Char}
    {node : Node} (h : readNext inner cs = .found node rest) : rest.length < cs.length := by
  obtain ⟨_, expr, hseparator, hnode⟩ := Reply.andThen_eq_found.mp h
  obtain ⟨after, hbefore, hafter⟩ := skips_of_readSeparator hseparator
  have hrest := (hinner _ _ _ hnode).suffix.length_le
  have hexpr := hafter.suffix.length_le
  have hcomma := hbefore.suffix.length_le
  rw [List.length_cons] at hcomma
  omega

/-- A binding takes a character. -/
theorem length_lt_of_readBinding {cs rest : List Char} {binding : Binding}
    (hread : readBinding cs = .found binding rest) : rest.length < cs.length := by
  cases derivesBinding_of_readBinding hread with
  | mk hword hkeyword hgap hname hbefore hafter h hbetween hlast =>
    have hexpr := hafter.suffix.trans ((List.suffix_cons '=' _).trans
      (hbefore.suffix.trans (hname.suffix.trans (hgap.suffix.trans hkeyword.suffix))))
    have hlast := hlast.suffix.length_le
    have hrest := (hbetween.suffix.trans (h.suffix.trans hexpr)).length_le
    rw [List.length_cons] at hrest
    omega

section Tail

variable {tail : List Char} (htail : ∀ c ∈ tail, Text.isBlank c = true)

include htail

/-- A separator is taken. -/
theorem overlooks_readSeparator {c : Char} (hslash : c ≠ '/') (hblank : Text.isBlank c = false) :
    Overlooks tail (readSeparator c) :=
  fun _ _ h => (overlooks_readChar htail hslash hblank _ _ (h.skip htail)).andThen
    fun _ _ _ h => .found () (h.skip htail)

omit htail in
/-- Values are taken one after the other. -/
theorem overlooks_readMany {α : Type} {item : Reader α} (hitem : Overlooks tail item)
    (bound : Nat) : Overlooks tail (readMany item bound) := by
  induction bound with
  | zero => exact fun _ _ h => .found [] h
  | succ bound ih =>
    intro cs ds h
    have hfirst := hitem cs ds h
    rw [readMany, readMany]
    cases hcs : item cs with
    | found value rest =>
      obtain ⟨rest', hds, hrest⟩ := hfirst.of_found hcs
      rw [hds]
      exact (ih _ _ hrest).map _
    | absent stop =>
      obtain ⟨stop', hds⟩ := hfirst.of_absent hcs
      rw [hds]
      exact .found [] h
    | failed deep stop => exact .failed deep stop _

/-! ### Expressions -/

omit htail in
/-- What is cut is not longer. -/
theorem Cut.length_le {cs ds : List Char} (h : Cut tail cs ds) : ds.length ≤ cs.length := by
  cases h with
  | before => simp
  | within => exact Nat.zero_le _

/-- Passing a character that is neither a slash nor a blank, if it is there, overlooks the tail. -/
theorem Cut.pass (c : Char) (hslash : c ≠ '/') (hblank : Text.isBlank c = false)
    {pass : List Char → List Char}
    (hfound : ∀ rest, Trimmed rest → Cut tail (pass (c :: (rest ++ tail))) (pass (c :: rest)))
    (hnone : ∀ cs, cs.head? ≠ some c → pass cs = cs) {cs ds : List Char} (h : Cut tail cs ds) :
    Cut tail (pass cs) (pass ds) := by
  cases h with
  | before hds =>
    cases ds with
    | nil =>
      rw [List.nil_append, hnone _ ((barren_tail htail).head?_ne hslash hblank), hnone [] (by simp)]
      exact .before hds
    | cons d ds =>
      by_cases hd : d = c
      · subst hd
        exact hfound ds (hds.of_suffix (List.suffix_cons d ds))
      · rw [hnone _ (by simpa using hd), hnone _ (by simpa using hd)]
        exact .before hds
  | within h =>
    rw [hnone _ (h.barren.head?_ne hslash hblank), hnone [] (by simp)]
    exact .within h

/-- A comma is passed, if there is one. -/
theorem cut_skipComma {cs ds : List Char} (h : Cut tail cs ds) :
    Cut tail (skipComma cs) (skipComma ds) := by
  refine h.pass htail ',' (by decide) (by decide)
    (fun rest hrest => (Cut.before hrest).skip htail) ?_
  intro cs hcs
  unfold skipComma
  split
  · simp at hcs
  · rfl

section Inner

variable {inner : Reader Node} (hinner : Overlooks tail inner) (htakes : TakesExpr inner)

include hinner htakes

/-- Expressions separated by commas are taken. -/
theorem overlooks_readList : Overlooks tail (readList inner) := by
  intro cs ds h
  have hfirst := hinner cs ds h
  cases hcs : inner cs with
  | found first rest =>
    obtain ⟨rest', hds, hrest⟩ := hfirst.of_found hcs
    have hnext : Overlooks tail (readNext inner) := fun _ _ h =>
      (overlooks_readSeparator htail (by decide) (by decide) _ _ h).andThen fun _ _ _ h =>
        hinner _ _ h
    have hbound : readMany (readNext inner) rest'.length rest' =
        readMany (readNext inner) rest.length rest' :=
      readMany_bound (fun _ _ _ => length_lt_of_readNext htakes) ⟨_, rfl⟩ (Nat.le_refl _)
        hrest.length_le
    rw [readList_found hcs, readList_found hds, hbound]
    exact (overlooks_readMany hnext _ _ _ hrest).map _
  | absent stop =>
    obtain ⟨stop', hds⟩ := hfirst.of_absent hcs
    rw [readList, readList, hcs, hds]
    exact .found [] h
  | failed deep stop =>
    rw [readList_failed hcs]
    exact .failed deep stop _

/-- Arguments are taken. -/
theorem overlooks_readArguments : Overlooks tail (readArguments inner) :=
  fun _ _ h => (overlooks_readChar htail (by decide) (by decide) _ _ h).andThen fun _ _ _ h =>
    (overlooks_readList htail hinner htakes _ _ (h.skip htail)).andThen fun _ _ _ h =>
      ((overlooks_readChar htail (by decide) (by decide) _ _
        (cut_skipComma htail (h.skip htail))).map _).required

/-- A name is taken, with arguments if there are any. -/
theorem overlooks_readNameOrCall : Overlooks tail (readNameOrCall inner) := by
  refine fun _ _ h => (overlooks_readName htail _ _ h).andThen fun name cs ds h => ?_
  have harguments := overlooks_readArguments htail hinner htakes _ _ (h.skip htail)
  cases hcs : readArguments inner (skip cs) with
  | found arguments rest =>
    obtain ⟨rest', hds, hrest⟩ := harguments.of_found hcs
    rw [hds]
    exact .found _ hrest
  | absent stop =>
    obtain ⟨stop', hds⟩ := harguments.of_absent hcs
    rw [hds]
    exact .found _ h
  | failed deep stop => exact .failed deep stop _

omit htakes in
/-- An expression in parentheses is taken. -/
theorem overlooks_readParenthesized : Overlooks tail (readParenthesized inner) :=
  fun _ _ h => (overlooks_readChar htail (by decide) (by decide) _ _ h).andThen fun _ _ _ h =>
    ((hinner _ _ (h.skip htail)).andThen fun node _ _ h =>
      (overlooks_readChar htail (by decide) (by decide) _ _ (h.skip htail)).map
        fun _ => node).required

/-- A primary is taken. -/
theorem overlooks_readPrimary : Overlooks tail (readPrimary inner) :=
  fun _ _ h => (((overlooks_readString htail _ _ h).orElse
    (overlooks_readNumber htail _ _ h)).orElse
      (overlooks_readNameOrCall htail hinner htakes _ _ h)).orElse
        (overlooks_readParenthesized htail hinner _ _ h)

/-- A method call is taken. -/
theorem overlooks_readMethod : Overlooks tail (readMethod inner) :=
  fun _ _ h => (overlooks_readSeparator htail (by decide) (by decide) _ _ h).andThen fun _ _ _ h =>
    ((overlooks_readName htail _ _ h).andThen fun name _ _ h =>
      (overlooks_readArguments htail hinner htakes _ _ (h.skip htail)).map
        fun arguments => (name, arguments)).required

end Inner

/-- An expression is taken with any number of levels left, and so are the method calls after it. -/
theorem overlooks_readExpr (levels : Nat) :
    Overlooks tail (readExpr levels) ∧
      ∀ target, Overlooks tail (readChain (readExpr levels) levels target) := by
  have hchain {left : Nat} (hinner : Overlooks tail (readExpr left))
      (hnext : ∀ more, left = more + 1 → ∀ target,
        Overlooks tail (readChain (readExpr more) more target)) (target : Node) :
      Overlooks tail (readChain (readExpr left) left target) := by
    intro cs ds h
    have hmethod := overlooks_readMethod htail hinner (takesExpr_readExpr left).1 cs ds h
    rw [readChain, readChain]
    cases hcs : readMethod (readExpr left) cs with
    | found call rest =>
      obtain ⟨rest', hds, hrest⟩ := hmethod.of_found hcs
      rw [hds]
      cases left with
      | zero => exact .failed true _ _
      | succ more => exact hnext more rfl _ _ _ hrest
    | absent stop =>
      obtain ⟨stop', hds⟩ := hmethod.of_absent hcs
      rw [hds]
      exact .found target h
    | failed deep stop => exact .failed deep stop _
  induction levels with
  | zero =>
    have hinner : Overlooks tail (readExpr 0) := fun _ _ _ => .failed true _ _
    exact ⟨hinner, hchain hinner (by rintro more ⟨⟩)⟩
  | succ left ih =>
    obtain ⟨hinner, htarget⟩ := ih
    have hexpr : Overlooks tail (readExpr (left + 1)) := fun cs ds h =>
      (overlooks_readPrimary htail hinner (takesExpr_readExpr left).1 cs ds h).andThen
        fun node => htarget node
    refine ⟨hexpr, hchain hexpr ?_⟩
    rintro more heq
    obtain rfl := Nat.succ.inj heq
    exact htarget

/-! ### Scripts -/

/-- A binding is taken. -/
theorem overlooks_readBinding : Overlooks tail readBinding :=
  fun _ _ h => ((overlooks_readKeyword htail "const" _ _ h).orElse
    (overlooks_readKeyword htail "let" _ _ h)).andThen fun _ _ _ h =>
      ((overlooks_readName htail _ _ (h.skip htail)).andThen fun name _ _ h =>
        (overlooks_readSeparator htail (by decide) (by decide) _ _ h).andThen fun _ _ _ h =>
          ((overlooks_readExpr htail _).1 _ _ h).andThen fun value _ _ h =>
            (overlooks_readSeparator htail (by decide) (by decide) _ _ h).map
              fun _ => (⟨name, value⟩ : Binding)).required

/-- The word `return` is passed, if it is there. -/
theorem cut_skipReturn {cs ds : List Char} (h : Cut tail cs ds) :
    Cut tail (skipReturn cs) (skipReturn ds) := by
  have hword := overlooks_readKeyword htail "return" cs ds h
  unfold skipReturn
  cases hcs : readKeyword "return" cs with
  | found u rest =>
    obtain ⟨rest', hds, hrest⟩ := hword.of_found hcs
    rw [hds]
    exact hrest.skip htail
  | absent stop =>
    obtain ⟨stop', hds⟩ := hword.of_absent hcs
    rw [hds]
    exact h
  | failed deep stop => exact absurd hcs (readKeyword_ne_failed _ _ _ _)

/-- A semicolon is passed, if there is one. -/
theorem cut_skipSemicolon {cs ds : List Char} (h : Cut tail cs ds) :
    Cut tail (skipSemicolon cs) (skipSemicolon ds) := by
  refine h.pass htail ';' (by decide) (by decide) (fun rest hrest => .before hrest) ?_
  intro cs hcs
  unfold skipSemicolon
  split
  · simp at hcs
  · rfl

end Tail

/-- Takes a script without blanks in front, with at most `bound` bindings. -/
def readBody (bound : Nat) : Reader Script := fun cs =>
  (readMany readBinding bound cs).andThen fun bindings rest =>
    (readOuterExpr (skipReturn rest)).andThen fun body rest =>
      match skip (skipSemicolon (skip rest)) with
      | [] => .found ⟨bindings, body⟩ []
      | stop => .absent stop

/-- The number of bindings is no bound as long as it is at least that of the characters. -/
theorem readBody_bound {cs : List Char} {m n : Nat} (hm : cs.length ≤ m) (hn : cs.length ≤ n) :
    readBody m cs = readBody n cs := by
  rw [readBody, readBody,
    readMany_bound (fun _ _ _ => length_lt_of_readBinding) ⟨_, rfl⟩ hm hn]

/-- A script that is read is read from the characters without the tail. -/
theorem readBody_of_cut {tail : List Char} (htail : ∀ c ∈ tail, Text.isBlank c = true) {bound : Nat}
    {cs ds rest : List Char} {script : Script} (h : Cut tail cs ds)
    (hread : readBody bound cs = .found script rest) : readBody bound ds = .found script [] := by
  obtain ⟨bindings, before, hbindings, hread⟩ := Reply.andThen_eq_found.mp hread
  obtain ⟨body, last, hbody, hread⟩ := Reply.andThen_eq_found.mp hread
  have hmany := overlooks_readMany (overlooks_readBinding htail) bound cs ds h
  obtain ⟨before', hbindings', hbefore⟩ := hmany.of_found hbindings
  have hexpr := (overlooks_readExpr htail (maxDepth + 1)).1 _ _ (cut_skipReturn htail hbefore)
  rw [readOuterExpr] at hbody
  obtain ⟨last', hbody', hlast⟩ := hexpr.of_found hbody
  have hend := (cut_skipSemicolon htail (hlast.skip htail)).skip htail
  split at hread
  · next hnil =>
    obtain ⟨rfl, -⟩ := Reply.found.inj hread
    rw [hnil] at hend
    have hnil' : skip (skipSemicolon (skip last')) = [] :=
      List.length_eq_zero_iff.mp (Nat.le_zero.mp hend.length_le)
    rw [readBody, hbindings', Reply.andThen_found, readOuterExpr, hbody', Reply.andThen_found,
      hnil']
  · cases hread

/-- A script that is read is read without a blank in front. -/
theorem readScript_of_cons {c : Char} {cs rest : List Char} {script : Script}
    (hblank : Text.isBlank c = true) (hread : readScript (c :: cs) = .found script rest) :
    readScript cs = .found script rest := by
  have hread : readBody (cs.length + 1) (skip (c :: cs)) = .found script rest := hread
  by_cases hspace : Text.isSpace c = true
  · rw [skip_cons, if_pos hspace] at hread
    have hle := length_skip_le cs
    rw [readBody_bound (Nat.le_succ_of_le hle) hle] at hread
    exact hread
  · -- No part of a script starts with a blank that is not skipped.
    have hskip : skip (c :: cs) = c :: cs := by
      rw [skip_cons, if_neg hspace, if_neg (Text.ne_of_isBlank hblank (by decide))]
    have hidle : Idle (c :: cs) := ⟨by rintro d ⟨⟩; exact .inr hblank, hskip⟩
    rw [hskip] at hread
    have hnil := readBody_of_cut (by simp) (Cut.within hidle : Cut [] (c :: cs) []) hread
    cases hnil

/-- A script that is read is read without the blanks in front and at the end. -/
theorem readScript_trim {cs rest : List Char} {script : Script}
    (hread : readScript cs = .found script rest) :
    ∃ rest', readScript ((cs.dropWhile Text.isBlank).rdropWhile Text.isBlank) =
      .found script rest' := by
  have hfront : ∃ rest', readScript (cs.dropWhile Text.isBlank) = .found script rest' := by
    induction cs with
    | nil => exact ⟨rest, hread⟩
    | cons c cs ih =>
      rw [List.dropWhile_cons]
      split
      · next hblank => exact ih (readScript_of_cons hblank hread)
      · exact ⟨rest, hread⟩
  obtain ⟨rest', hfront⟩ := hfront
  generalize cs.dropWhile Text.isBlank = ds at hfront ⊢
  have hblank : ∀ c ∈ ds.rtakeWhile Text.isBlank, Text.isBlank c = true :=
    fun _ hc => List.mem_rtakeWhile_imp hc
  have htrimmed : Trimmed (ds.rdropWhile Text.isBlank) := by
    intro c hc
    obtain ⟨hne, rfl⟩ := List.mem_getLast?_eq_getLast hc
    simpa using List.rdropWhile_last_not _ _ hne
  have hcut : Cut (ds.rtakeWhile Text.isBlank) ds (ds.rdropWhile Text.isBlank) := by
    have hbefore : Cut (ds.rtakeWhile Text.isBlank)
        (ds.rdropWhile Text.isBlank ++ ds.rtakeWhile Text.isBlank) (ds.rdropWhile Text.isBlank) :=
      .before htrimmed
    rwa [List.rdropWhile_append_rtakeWhile] at hbefore
  have hbody := readBody_of_cut hblank (hcut.skip hblank) hfront
  have hle := length_skip_le (ds.rdropWhile Text.isBlank)
  rw [readBody_bound (hle.trans hcut.length_le) hle] at hbody
  exact ⟨[], hbody⟩

/-- A text that is read as a script is read as the same script without its blank margins. -/
theorem ofText_trim {text : String} {script : Script} (h : ofText text = .ok script) :
    ofText (Text.trim text) = .ok script := by
  obtain ⟨rest, hread⟩ := ofText_eq_ok.mp h
  obtain ⟨rest', htrim⟩ := readScript_trim hread
  refine ofText_eq_ok.mpr ⟨rest', ?_⟩
  rw [Text.trim, String.toList_ofList]
  exact htrim

end Script

end FluentSql
