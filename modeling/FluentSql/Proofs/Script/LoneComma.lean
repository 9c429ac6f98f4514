import FluentSql.Proofs.Script.Accepted

/-!
# Commas that stand alone

The grammar has a comma before a closing parenthesis only after an expression, but the readers take
one that stands alone between parentheses for no arguments. Such a comma shows in the significant
characters of a text, which are left when blanks and the insides of strings are taken out. A
derivation without the exception never makes one, so an accepted text is derived by the grammar
itself exactly if it has none.
-/

namespace FluentSql

namespace Script

/-! ### Significant characters -/

/-- What follows a significant character: after a quote, what follows the string that it opens. -/
def beyond (c : Char) (cs : List Char) : List Char :=
  if c = '"' ∨ c = '\'' then (Text.unquote c cs).elim [] (·.2) else cs

/-- What follows a significant character is a suffix. -/
theorem beyond_suffix (c : Char) (cs : List Char) : beyond c cs <:+ cs := by
  unfold beyond
  split
  · cases hunquote : Text.unquote c cs with
    | none => exact List.nil_suffix
    | some result => exact unquote_suffix hunquote
  · exact List.suffix_rfl

/-- The characters that are neither blanks nor inside strings. A string leaves its first quote. -/
def significant (cs : List Char) : List Char :=
  match _ : skip cs with
  | [] => []
  | c :: rest => c :: significant (beyond c rest)
termination_by cs.length
decreasing_by
  rename_i hskip
  have hbeyond := (beyond_suffix c rest).length_le
  have hrest := (skip_suffix cs).length_le
  rw [hskip, List.length_cons] at hrest
  omega

/-- Somewhere a comma stands alone between parentheses, but for blanks. -/
def HasLoneComma (cs : List Char) : Prop :=
  ['(', ',', ')'] <:+: significant cs

/-- Where only blanks are left, no character is significant. -/
theorem significant_of_skip_nil {cs : List Char} (h : skip cs = []) : significant cs = [] := by
  rw [significant]
  split
  · rfl
  · next hskip =>
    rw [h] at hskip
    cases hskip

/-- The first character that is not skipped is significant. -/
theorem significant_of_skip_cons {c : Char} {cs rest : List Char} (h : skip cs = c :: rest) :
    significant cs = c :: significant (beyond c rest) := by
  rw [significant]
  split
  · next hskip =>
    rw [h] at hskip
    cases hskip
  · next hskip =>
    obtain ⟨rfl, rfl⟩ := List.cons.inj (h.symm.trans hskip)
    rfl

/-- Blanks hold no significant characters. -/
theorem Skips.significant_eq {cs rest : List Char} (h : Skips cs rest) :
    significant cs = significant rest := by
  have hskip := h.skip_eq
  cases hrest : skip rest with
  | nil => rw [significant_of_skip_nil (hskip.trans hrest), significant_of_skip_nil hrest]
  | cons c tail => rw [significant_of_skip_cons (hskip.trans hrest), significant_of_skip_cons hrest]

/-- The character is no space, and starts neither a comment nor a string. -/
def isOrdinary (c : Char) : Bool :=
  !Text.isSpace c && c != '/' && c != '"' && c != '\''

/-- An ordinary character is significant. -/
theorem significant_cons {c : Char} (h : isOrdinary c = true) (cs : List Char) :
    significant (c :: cs) = c :: significant cs := by
  simp only [isOrdinary, Bool.and_eq_true, Bool.not_eq_true', bne_iff_ne] at h
  obtain ⟨⟨⟨hspace, hslash⟩, hdouble⟩, hsingle⟩ := h
  have hskip : skip (c :: cs) = c :: cs := Solid.skip_eq ⟨c, cs, rfl, hspace, hslash⟩
  have hbeyond : beyond c cs = cs := if_neg (not_or_intro hdouble hsingle)
  rw [significant_of_skip_cons hskip, hbeyond]

/-- Blanks before an ordinary character leave it the first significant one. -/
theorem Skips.significant_cons {c : Char} {cs rest : List Char} (h : Skips cs (c :: rest))
    (hc : isOrdinary c = true) : significant cs = c :: significant rest := by
  rw [h.significant_eq, Script.significant_cons hc]

/-! ### Tokens -/

/-- A token reaches from some characters to others: its significant characters are neither commas
nor parentheses, and there is one at least. -/
def Passes (cs rest : List Char) : Prop :=
  ∃ word ≠ [], (∀ c ∈ word, c ≠ '(' ∧ c ≠ ',') ∧ significant cs = word ++ significant rest

/-- Ordinary characters other than commas and parentheses are those of a token. -/
theorem passes_append {word : List Char} (hne : word ≠ [])
    (hword : ∀ c ∈ word, isOrdinary c = true ∧ c ≠ '(' ∧ c ≠ ',') (rest : List Char) :
    Passes (word ++ rest) rest := by
  refine ⟨word, hne, fun c hc => (hword c hc).2, ?_⟩
  clear hne
  induction word with
  | nil => rfl
  | cons c word ih =>
    obtain ⟨hc, hword⟩ := List.forall_mem_cons.mp hword
    rw [List.cons_append, significant_cons hc.1, ih hword, List.cons_append]

/-- A character of a name is ordinary, and neither a comma nor a parenthesis. -/
theorem ordinary_of_isNameChar {c : Char} (h : Text.isNameChar c = true) :
    isOrdinary c = true ∧ c ≠ '(' ∧ c ≠ ',' := by
  have hspace : Text.isSpace c = false := by
    rw [Bool.eq_false_iff]
    intro hspace
    rw [isNameChar_of_isSpace hspace] at h
    cases h
  have hne {d : Char} (hd : Text.isNameChar d = false) : c ≠ d := by
    rintro rfl
    rw [hd] at h
    cases h
  have hslash := hne (by decide : Text.isNameChar '/' = false)
  have hdouble := hne (by decide : Text.isNameChar '"' = false)
  have hsingle := hne (by decide : Text.isNameChar '\'' = false)
  exact ⟨by simp [isOrdinary, hspace, hslash, hdouble, hsingle], hne (by decide), hne (by decide)⟩

/-- A name is a token. -/
theorem DerivesName.passes {name : String} {cs rest : List Char} (h : DerivesName name cs rest) :
    Passes cs rest := by
  cases h with
  | mk hname =>
    obtain ⟨c, tail, hlist, hstart, htail⟩ := Text.exists_of_isBareName hname
    refine passes_append (by simp [hlist]) (fun d hd => ordinary_of_isNameChar ?_) rest
    rw [hlist] at hd
    rcases List.mem_cons.mp hd with rfl | hd
    · exact Text.isNameChar_of_isNameStart hstart
    · exact htail d hd

/-- A numeral is a token. -/
theorem passes_of_writes {n : Numeral} {cs : List Char} (h : n.Writes cs) (rest : List Char) :
    Passes (cs ++ rest) rest := by
  refine passes_append (List.ne_nil_of_length_pos h.length_pos) ?_ rest
  have hdigits {ds : List Char} (hds : Numeral.IsDigits ds) :
      ∀ c ∈ ds, isOrdinary c = true ∧ c ≠ '(' ∧ c ≠ ',' :=
    fun c hc => ordinary_of_isNameChar (Numeral.isNameChar_of_isDigit (hds.2 c hc))
  cases h with
  | @mk negative whole _ _ _ _ hwhole hfraction hexponent =>
    simp only [List.forall_mem_append]
    refine ⟨⟨⟨?_, hdigits hwhole⟩, ?_⟩, ?_⟩
    · cases negative with
      | false => exact List.forall_mem_nil _
      | true => exact List.forall_mem_singleton.mpr (by decide)
    · cases hfraction with
      | none => exact List.forall_mem_nil _
      | some hfraction =>
        exact List.forall_mem_cons.mpr ⟨by decide, hdigits hfraction⟩
    · cases hexponent with
      | none => exact List.forall_mem_nil _
      | some hletter hsign hexponent =>
        rw [List.cons_append, List.forall_mem_cons, List.forall_mem_append]
        refine ⟨?_, ?_, hdigits hexponent⟩
        · rcases hletter with rfl | rfl <;> decide
        · cases hsign with
          | minus | plus => exact List.forall_mem_singleton.mpr (by decide)
          | bare => exact List.forall_mem_nil _

/-- A number is a token. -/
theorem DerivesNumber.passes {node : Node} {cs rest : List Char}
    (h : DerivesNumber node cs rest) : Passes cs rest := by
  cases h with
  | nan h | infinity h => exact h.passes
  | negativeInfinity h =>
    obtain ⟨word, -, hword, hsplit⟩ := h.passes
    refine ⟨'-' :: word, List.cons_ne_nil _ _, List.forall_mem_cons.mpr ⟨by decide, hword⟩, ?_⟩
    rw [significant_cons (by decide), hsplit, List.cons_append]
  | integer h | float h => exact passes_of_writes h rest

/-- A string is a token. -/
theorem WritesText.passes {quote : Char} {text cs : List Char} (h : WritesText quote text cs)
    (hquote : quote = '"' ∨ quote = '\'') (rest : List Char) :
    Passes (quote :: (cs ++ quote :: rest)) rest := by
  have hmark : Text.isSpace quote = false ∧ quote ≠ '/' ∧ quote ≠ '\\' ∧ quote ≠ '(' ∧
      quote ≠ ',' := by
    rcases hquote with rfl | rfl <;> decide
  obtain ⟨hspace, hcomment, hslash, hother⟩ := hmark
  have hskip : skip (quote :: (cs ++ quote :: rest)) = quote :: (cs ++ quote :: rest) :=
    Solid.skip_eq ⟨quote, _, rfl, hspace, hcomment⟩
  have hbeyond : beyond quote (cs ++ quote :: rest) = rest := by
    rw [beyond, if_pos hquote, h.unquote_append hslash rest]
    rfl
  refine ⟨[quote], List.cons_ne_nil _ _, List.forall_mem_singleton.mpr hother, ?_⟩
  rw [significant_of_skip_cons hskip, hbeyond, List.singleton_append]

/-! ### What a derivation passes -/

section Passing

variable {c : Char} {cs rest : List Char}

/-- No comma that stands alone begins with a character other than an opening parenthesis, nor with
one that no comma follows. -/
theorem loneComma_infix_cons {marks : List Char} (h : c ≠ '(' ∨ marks.head? ≠ some ',') :
    ['(', ',', ')'] <:+: c :: marks ↔ ['(', ',', ')'] <:+: marks := by
  rw [List.infix_cons_iff, or_iff_right]
  intro hprefix
  obtain ⟨hopening, more, rfl⟩ := List.cons_prefix_cons.mp hprefix
  rcases h with h | h
  · exact h hopening.symm
  · exact h rfl

/-- Blanks have no part in a comma that stands alone. -/
theorem Skips.hasLoneComma_iff (h : Skips cs rest) : HasLoneComma cs ↔ HasLoneComma rest := by
  rw [HasLoneComma, h.significant_eq, HasLoneComma]

/-- A token has no part in a comma that stands alone. -/
theorem Passes.hasLoneComma_iff (h : Passes cs rest) : HasLoneComma cs ↔ HasLoneComma rest := by
  obtain ⟨word, -, hword, hsplit⟩ := h
  rw [HasLoneComma, hsplit, HasLoneComma]
  clear hsplit
  induction word with
  | nil => rfl
  | cons c word ih =>
    obtain ⟨hc, hword⟩ := List.forall_mem_cons.mp hword
    rw [List.cons_append, loneComma_infix_cons (.inl hc.1), ih hword]

/-- No comma that stands alone begins with another mark, with blanks in front of it. -/
theorem Skips.mark_iff (h : Skips cs (c :: rest)) (hc : isOrdinary c = true ∧ c ≠ '(') :
    HasLoneComma cs ↔ HasLoneComma rest := by
  rw [HasLoneComma, h.significant_cons hc.1, loneComma_infix_cons (.inl hc.2), HasLoneComma]

/-- Nor does one begin with an opening parenthesis if no comma is the next significant character. -/
theorem hasLoneComma_opening (h : (significant cs).head? ≠ some ',') :
    HasLoneComma ('(' :: cs) ↔ HasLoneComma cs := by
  rw [HasLoneComma, significant_cons (by decide), loneComma_infix_cons (.inr h), HasLoneComma]

/-- The first significant character of a token is no comma. -/
theorem Passes.head?_ne (h : Passes cs rest) : (significant cs).head? ≠ some ',' := by
  obtain ⟨word, hne, hword, hsplit⟩ := h
  obtain ⟨c, tail, rfl⟩ := List.exists_cons_of_ne_nil hne
  rw [hsplit, List.cons_append, List.head?_cons]
  exact fun hcomma => (hword c List.mem_cons_self).2 (Option.some.inj hcomma)

end Passing

/-- The first significant character of a primary, and of an expression, is no comma. -/
def Phrase.Leads : Phrase → List Char → Prop
  | primary _, cs | expr _, cs => (significant cs).head? ≠ some ','
  | more _, _ | arguments _, _ => True

/-- No expression starts with a comma. -/
theorem Derives.leads {lone : Prop} {phrase : Phrase} {cs rest : List Char}
    (h : Derives lone phrase cs rest) : phrase.Leads cs := by
  induction h with
  | string hquote h => exact (h.passes hquote _).head?_ne
  | number h => exact h.passes.head?_ne
  | name hname | call hname => exact hname.passes.head?_ne
  | parenthesized =>
    rw [Phrase.Leads, significant_cons (by decide)]
    simp
  | primary _ ih | method _ _ _ _ _ _ ih => exact ih
  | _ => trivial

/-- Expressions after blanks do not start with a comma. -/
theorem Derives.head?_ne {lone : Prop} {node : Node} {cs inner rest : List Char}
    (h : Derives lone (.expr node) inner rest) (hbefore : Skips cs inner) :
    (significant cs).head? ≠ some ',' :=
  hbefore.significant_eq ▸ h.leads

/-- What the grammar derives has no comma that stands alone, so the characters have one exactly if
what is left of them has. -/
theorem Derives.hasLoneComma_iff {phrase : Phrase} {cs rest : List Char}
    (h : Derives False phrase cs rest) : HasLoneComma cs ↔ HasLoneComma rest := by
  induction h with
  | string hquote h => exact (h.passes hquote _).hasLoneComma_iff
  | number h => exact h.passes.hasLoneComma_iff
  | name hname => exact hname.passes.hasLoneComma_iff
  | call hname _ hgap _ ih =>
    exact hname.passes.hasLoneComma_iff.trans (hgap.hasLoneComma_iff.trans ih)
  | parenthesized hbefore h hafter ih =>
    -- A comma could only stand alone right after the parenthesis, where an expression starts.
    rw [hasLoneComma_opening (h.head?_ne hbefore), hbefore.hasLoneComma_iff, ih,
      hafter.mark_iff (by decide)]
  | primary _ ih => exact ih
  | method _ hbefore hafter hname hgap _ ih iharguments =>
    rw [ih, hbefore.mark_iff (by decide), hafter.hasLoneComma_iff, hname.passes.hasLoneComma_iff,
      hgap.hasLoneComma_iff, iharguments]
  | done => rfl
  | next hbefore hafter _ _ ih ihmore =>
    rw [hbefore.mark_iff (by decide), hafter.hasLoneComma_iff, ih, ihmore]
  | empty hgap =>
    have hclosing := hgap.significant_cons (by decide)
    rw [hasLoneComma_opening (by simp [hclosing]), hgap.mark_iff (by decide)]
  | full hbefore h _ hafter ih ihmore =>
    rw [hasLoneComma_opening (h.head?_ne hbefore), hbefore.hasLoneComma_iff, ih, ihmore,
      hafter.mark_iff (by decide)]
  | trailing hbefore h _ hafter hgap ih ihmore =>
    rw [hasLoneComma_opening (h.head?_ne hbefore), hbefore.hasLoneComma_iff, ih, ihmore,
      hafter.mark_iff (by decide), hgap.mark_iff (by decide)]
  | comma hlone => exact hlone.elim

/-! ### Without the exception -/

/-- A part of an expression is derived by the grammar itself where no comma stands alone. -/
theorem Derives.strict {phrase : Phrase} {cs rest : List Char} (h : Derives True phrase cs rest)
    (hno : ¬ HasLoneComma cs) : Derives False phrase cs rest := by
  induction h with
  | string hquote h => exact .string hquote h
  | number h => exact .number h
  | name hname hfree => exact .name hname hfree
  | call hname hfree hgap _ ih =>
    rw [hname.passes.hasLoneComma_iff, hgap.hasLoneComma_iff] at hno
    exact .call hname hfree hgap (ih hno)
  | parenthesized hbefore h hafter ih =>
    rw [hasLoneComma_opening (h.head?_ne hbefore), hbefore.hasLoneComma_iff] at hno
    exact .parenthesized hbefore (ih hno) hafter
  | primary _ ih => exact .primary (ih hno)
  | method _ hbefore hafter hname hgap _ ih iharguments =>
    -- The target is now derived by the grammar itself, so no comma stands alone after it either.
    have htarget := ih hno
    rw [htarget.hasLoneComma_iff, hbefore.mark_iff (by decide), hafter.hasLoneComma_iff,
      hname.passes.hasLoneComma_iff, hgap.hasLoneComma_iff] at hno
    exact .method htarget hbefore hafter hname hgap (iharguments hno)
  | done cs => exact .done cs
  | next hbefore hafter _ _ ih ihmore =>
    rw [hbefore.mark_iff (by decide), hafter.hasLoneComma_iff] at hno
    have hexpr := ih hno
    exact .next hbefore hafter hexpr (ihmore (mt hexpr.hasLoneComma_iff.mpr hno))
  | empty hgap => exact .empty hgap
  | full hbefore h _ hafter ih ihmore =>
    rw [hasLoneComma_opening (h.head?_ne hbefore), hbefore.hasLoneComma_iff] at hno
    have hexpr := ih hno
    exact .full hbefore hexpr (ihmore (mt hexpr.hasLoneComma_iff.mpr hno)) hafter
  | trailing hbefore h _ hafter hgap ih ihmore =>
    rw [hasLoneComma_opening (h.head?_ne hbefore), hbefore.hasLoneComma_iff] at hno
    have hexpr := ih hno
    exact .trailing hbefore hexpr (ihmore (mt hexpr.hasLoneComma_iff.mpr hno)) hafter hgap
  | @comma cs gap rest _ hbefore hgap =>
    have hlone : significant ('(' :: cs) = ['(', ',', ')'] ++ significant rest := by
      rw [significant_cons (by decide), hbefore.significant_cons (by decide),
        hgap.significant_cons (by decide)]
      rfl
    refine absurd ?_ hno
    rw [HasLoneComma, hlone]
    exact (List.prefix_append _ _).isInfix

/-- A binding of the grammar has no comma that stands alone. -/
theorem DerivesBinding.hasLoneComma_iff {binding : Binding} {cs rest : List Char}
    (h : DerivesBinding False binding cs rest) : HasLoneComma cs ↔ HasLoneComma rest := by
  cases h with
  | mk _ hkeyword hgap hname hbefore hafter h hbetween hlast =>
    rw [hkeyword.passes.hasLoneComma_iff, hgap.hasLoneComma_iff, hname.passes.hasLoneComma_iff,
      hbefore.mark_iff (by decide), hafter.hasLoneComma_iff, h.hasLoneComma_iff,
      hbetween.mark_iff (by decide), hlast.hasLoneComma_iff]

/-- A binding is derived by the grammar itself where no comma stands alone. -/
theorem DerivesBinding.strict {binding : Binding} {cs rest : List Char}
    (h : DerivesBinding True binding cs rest) (hno : ¬ HasLoneComma cs) :
    DerivesBinding False binding cs rest := by
  cases h with
  | mk hword hkeyword hgap hname hbefore hafter h hbetween hlast =>
    rw [hkeyword.passes.hasLoneComma_iff, hgap.hasLoneComma_iff, hname.passes.hasLoneComma_iff,
      hbefore.mark_iff (by decide), hafter.hasLoneComma_iff] at hno
    exact .mk hword hkeyword hgap hname hbefore hafter (h.strict hno) hbetween hlast

/-- Bindings of the grammar have no comma that stands alone. -/
theorem DerivesBindings.hasLoneComma_iff {bindings : List Binding} {cs rest : List Char}
    (h : DerivesBindings False bindings cs rest) : HasLoneComma cs ↔ HasLoneComma rest := by
  induction h with
  | done => rfl
  | next h _ ih => rw [h.hasLoneComma_iff, ih]

/-- Bindings are derived by the grammar itself where no comma stands alone. -/
theorem DerivesBindings.strict {bindings : List Binding} {cs rest : List Char}
    (h : DerivesBindings True bindings cs rest) (hno : ¬ HasLoneComma cs) :
    DerivesBindings False bindings cs rest := by
  induction h with
  | done cs => exact .done cs
  | next h _ ih =>
    have hbinding := h.strict hno
    exact .next hbinding (ih (mt hbinding.hasLoneComma_iff.mpr hno))

/-- Perhaps the word `return` makes no difference. -/
theorem DerivesReturn.hasLoneComma_iff {cs rest : List Char} (h : DerivesReturn cs rest) :
    HasLoneComma cs ↔ HasLoneComma rest := by
  cases h with
  | none => rfl
  | word hword hgap => rw [hword.passes.hasLoneComma_iff, hgap.hasLoneComma_iff]

/-- No comma stands alone at the end of a script. -/
theorem DerivesEnd.not_hasLoneComma {cs : List Char} (h : DerivesEnd cs) : ¬ HasLoneComma cs := by
  have hnil : ¬ HasLoneComma [] := by
    rw [HasLoneComma, significant_of_skip_nil rfl]
    simp
  cases h with
  | bare h => rwa [h.hasLoneComma_iff]
  | semicolon h hlast => rwa [h.mark_iff (by decide), hlast.hasLoneComma_iff]

/-- A script is derived by the grammar itself exactly if no comma stands alone in it. -/
theorem DerivesScript.strict_iff {script : Script} {cs : List Char}
    (h : DerivesScript True script cs) : DerivesScript False script cs ↔ ¬ HasLoneComma cs := by
  constructor
  · rintro ⟨hfirst, hbindings, hbefore, hexpr, hlast⟩
    rw [hfirst.hasLoneComma_iff, hbindings.hasLoneComma_iff, hbefore.hasLoneComma_iff,
      hexpr.hasLoneComma_iff]
    exact hlast.not_hasLoneComma
  · intro hno
    cases h with
    | mk hfirst hbindings hbefore h hlast =>
      rw [hfirst.hasLoneComma_iff] at hno
      have hstrict := hbindings.strict hno
      rw [hstrict.hasLoneComma_iff, hbefore.hasLoneComma_iff] at hno
      exact .mk hfirst hstrict hbefore (h.strict hno) hlast

/-- A text that is read as a script is derived by the grammar to that script, where a comma alone
may stand for no arguments; by the grammar itself, exactly if none does so anywhere. -/
theorem derivesScript_of_ofText {text : String} {script : Script} (h : ofText text = .ok script) :
    DerivesScript True script text.toList ∧
      (DerivesScript False script text.toList ↔ ¬ HasLoneComma text.toList) := by
  obtain ⟨rest, hread⟩ := ofText_eq_ok.mp h
  have hderives := derivesScript_of_readScript hread
  exact ⟨hderives, hderives.strict_iff⟩

/-- A comma alone passes for no arguments, while one after an argument and one in a string are of
the grammar. -/
theorem derivesScript_of_ofText_comma :
    (ofText "f(,)" = .ok ⟨[], .call "f" []⟩ ∧
      DerivesScript True ⟨[], .call "f" []⟩ "f(,)".toList ∧
      ¬ DerivesScript False ⟨[], .call "f" []⟩ "f(,)".toList) ∧
    ofText "f('(,)',)" = .ok ⟨[], .call "f" [.string "(,)"]⟩ ∧
      DerivesScript False ⟨[], .call "f" [.string "(,)"]⟩ "f('(,)',)".toList := by
  have hlone : ofText "f(,)" = .ok ⟨[], .call "f" []⟩ := rfl
  have htrailing : ofText "f('(,)',)" = .ok ⟨[], .call "f" [.string "(,)"]⟩ := rfl
  obtain ⟨hderives, hstrict⟩ := derivesScript_of_ofText hlone
  have hcomma : significant "f(,)".toList = ['f', '(', ',', ')'] := by
    have hlist : "f(,)".toList = ['f', '(', ',', ')'] := rfl
    rw [hlist]
    simp (disch := decide) only [significant_cons, significant_of_skip_nil (rfl : skip [] = [])]
  have hstring : significant "f('(,)',)".toList = ['f', '(', '\'', ',', ')'] := by
    have hlist : "f('(,)',)".toList = 'f' :: '(' :: "'(,)',)".toList := rfl
    have hbeyond : beyond '\'' "(,)',)".toList = [',', ')'] := rfl
    have hquoted : significant "'(,)',)".toList = '\'' :: significant [',', ')'] := by
      rw [← hbeyond]
      exact significant_of_skip_cons rfl
    rw [hlist]
    simp (disch := decide) only [significant_cons, hquoted,
      significant_of_skip_nil (rfl : skip [] = [])]
  refine ⟨⟨hlone, hderives, ?_⟩, htrailing, (derivesScript_of_ofText htrailing).2.mpr ?_⟩
  · rw [hstrict, HasLoneComma, hcomma]
    decide
  · rw [HasLoneComma, hstring]
    decide

end Script

end FluentSql
