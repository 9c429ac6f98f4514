import FluentSql.Proofs.Script.Accepted
import FluentSql.Text.Blank

/-!
# Blanks at the end of a script

What a token reader makes of characters does not change when blanks at their end are removed. The
blanks may be other ones than the reader skips, and the end of a comment may be among them; so what
is left is either the same but for those blanks, or nothing, where no token starts in what was left
before.
-/

namespace FluentSql

/-! ### Blank characters -/

namespace Text

/-- A blank may not stand in a name. -/
theorem isNameChar_of_isBlank {c : Char} (h : isBlank c = true) : isNameChar c = false := by
  rw [Bool.eq_false_iff]
  intro hname
  have hrange := toNat_of_isNameChar hname
  simp only [isBlank, Bool.or_eq_true, Bool.and_eq_true, beq_iff_eq, decide_eq_true_eq] at h
  omega

/-- A blank is no other character. -/
theorem ne_of_isBlank {c d : Char} (h : isBlank c = true) (hd : isBlank d = false) : c ≠ d := by
  rintro rfl
  rw [h] at hd
  cases hd

/-- A run of characters of one sort ends where characters that are not of that sort are added. -/
theorem run_append_of_not {sort : Char → Bool} {tail : List Char}
    (htail : ∀ c ∈ tail, sort c = false) (cs : List Char) :
    (cs ++ tail).takeWhile sort = cs.takeWhile sort ∧
      (cs ++ tail).dropWhile sort = cs.dropWhile sort ++ tail := by
  induction cs with
  | nil => cases tail <;> simp_all
  | cons c cs ih => cases hc : sort c <;> simp [hc, ih]

end Text

namespace Numeral

/-- Takes the longest numeral without a sign at the head of the characters; the sign is given. -/
def scanUnsigned (negative : Bool) (cs : List Char) : Option (Numeral × List Char) :=
  match digitRun cs with
  | ([], _) => none
  | (whole, rest) =>
    let (fraction, rest) := takeFraction rest
    let (exponent, rest) := takeExponent rest
    some (⟨negative, whole, fraction, exponent⟩, rest)

/-- Without a minus sign in front a numeral is not negative. -/
theorem scan_of_head?_ne {cs : List Char} (h : cs.head? ≠ some '-') :
    scan cs = scanUnsigned false cs := by
  unfold scan
  split
  next negative unsigned hsign =>
    split at hsign
    · simp at h
    · obtain ⟨rfl, rfl⟩ := Prod.mk.inj hsign
      rfl

end Numeral

namespace Script

/-! ### What is skipped -/

mutual

/-- Nothing more can be skipped after that. -/
theorem skip_skip (cs : List Char) : skip (skip cs) = skip cs := by
  cases cs with
  | nil => rfl
  | cons c cs =>
    rw [skip_cons]
    split
    · exact skip_skip cs
    · next hspace =>
      split
      · next hslash =>
        subst hslash
        match cs with
        | [] => rfl
        | d :: ds =>
          dsimp only
          split
          · next hslash =>
            subst hslash
            exact skip_skipComment [] ds nofun
          · next hslash =>
            rw [skip_cons, if_neg hspace, if_pos rfl]
            exact if_neg hslash
      · next hslash => rw [skip_cons, if_neg hspace, if_neg hslash]

/-- Nothing more can be skipped after a comment, or in front of what is none. -/
theorem skip_skipComment (text cs : List Char) (htext : ∀ c ∈ text, c ≠ '\n' ∧ c ≠ '\r') :
    skip (skipComment ('/' :: '/' :: (text ++ cs)) cs) =
      skipComment ('/' :: '/' :: (text ++ cs)) cs := by
  have hstart : skip ('/' :: '/' :: (text ++ cs)) =
      skipComment ('/' :: '/' :: (text ++ cs)) cs := by
    rw [skip_slashes, skipComment_append _ _ htext]
  cases cs with
  | nil => rfl
  | cons c cs =>
    rw [skipComment_cons] at hstart ⊢
    split
    · exact skip_skip cs
    · next hfeed =>
      split
      · next hreturn =>
        subst hreturn
        match cs with
        | [] => exact hstart
        | d :: ds =>
          dsimp only
          split
          · exact skip_skip ds
          · next hfeed' =>
            rw [hstart, if_neg hfeed, if_pos rfl]
            exact if_neg hfeed'
      · next hreturn =>
        have hmore : ∀ d ∈ text ++ [c], d ≠ '\n' ∧ d ≠ '\r' := by
          intro d hd
          rcases List.mem_append.mp hd with hd | hd
          · exact htext d hd
          · rw [List.mem_singleton.mp hd]
            exact ⟨hfeed, hreturn⟩
        have h := skip_skipComment (text ++ [c]) cs hmore
        rwa [List.append_assoc, List.singleton_append] at h

end

/-- The characters do not end with a blank. -/
def Trimmed (cs : List Char) : Prop :=
  ∀ c ∈ cs.getLast?, Text.isBlank c = false

/-- What ends characters that do not end with a blank does not end with one either. -/
theorem Trimmed.of_suffix {cs rest : List Char} (h : Trimmed cs) (hsuffix : rest <:+ cs) :
    Trimmed rest := by
  obtain ⟨start, rfl⟩ := hsuffix
  intro c hc
  refine h c ?_
  rw [List.getLast?_append, Option.mem_def.mp hc]
  rfl

/-- No token starts at the characters. -/
def Barren (cs : List Char) : Prop :=
  ∀ c ∈ cs.head?, c = '/' ∨ Text.isBlank c = true

/-- No token starts at the characters, and there is nothing to skip. -/
structure Idle (cs : List Char) : Prop where
  /-- What there is starts with a slash that starts no comment, or with a blank. -/
  barren : Barren cs
  /-- Nothing is skipped. -/
  skip_eq : skip cs = cs

/-- The second characters are the first ones without the tail; or nothing is left of them, and no
token starts at what is left of the first ones. -/
inductive Cut (tail : List Char) : List Char → List Char → Prop
  | before {cs : List Char} (h : Trimmed cs) : Cut tail (cs ++ tail) cs
  | within {cs : List Char} (h : Idle cs) : Cut tail cs []

/-- The second reply is the first one, up to what is left. Nothing is said where the first one is a
failure. -/
inductive Agrees (tail : List Char) {α : Type} : Reply α → Reply α → Prop
  | found (value : α) {cs ds : List Char} (h : Cut tail cs ds) :
      Agrees tail (.found value cs) (.found value ds)
  | absent (stop stop' : List Char) : Agrees tail (.absent stop) (.absent stop')
  | failed (deep : Bool) (stop : List Char) (r : Reply α) : Agrees tail (.failed deep stop) r

/-- The reader overlooks the tail at the end of the characters. -/
def Overlooks (tail : List Char) {α : Type} (reader : Reader α) : Prop :=
  ∀ cs ds, Cut tail cs ds → Agrees tail (reader cs) (reader ds)

/-- A name is missing or found. -/
theorem readName_ne_failed (cs : List Char) (deep : Bool) (stop : List Char) :
    readName cs ≠ .failed deep stop := by
  cases cs with
  | nil =>
    rintro ⟨⟩
  | cons c cs =>
    rw [readName]
    split <;> rintro ⟨⟩

/-- A keyword is missing or found. -/
theorem readKeyword_ne_failed (word : String) (cs : List Char) (deep : Bool) (stop : List Char) :
    readKeyword word cs ≠ .failed deep stop := by
  unfold readKeyword
  split
  · split <;> rintro ⟨⟩
  · rintro ⟨⟩

/-- Where the first reply is a value, so is the second one. -/
theorem Agrees.of_found {tail : List Char} {α : Type} {r r' : Reply α} (h : Agrees tail r r')
    {value : α} {cs : List Char} (hr : r = .found value cs) :
    ∃ ds, r' = .found value ds ∧ Cut tail cs ds := by
  subst hr
  cases h with
  | found _ h => exact ⟨_, rfl, h⟩

/-- Where there is nothing for the first reply, there is nothing for the second one. -/
theorem Agrees.of_absent {tail : List Char} {α : Type} {r r' : Reply α} (h : Agrees tail r r')
    {stop : List Char} (hr : r = .absent stop) : ∃ stop', r' = .absent stop' := by
  subst hr
  cases h with
  | absent _ stop' => exact ⟨stop', rfl⟩

/-- No name starts there. -/
theorem Barren.readName_eq {cs : List Char} (h : Barren cs) : readName cs = .absent cs := by
  cases cs with
  | nil => rfl
  | cons c cs =>
    refine readName_absent ?_
    rcases h c rfl with rfl | hc
    · rfl
    · rw [Bool.eq_false_iff]
      intro hstart
      have hname := Text.isNameChar_of_isNameStart hstart
      rw [Text.isNameChar_of_isBlank hc] at hname
      cases hname

/-- No keyword starts there. -/
theorem Barren.readKeyword_eq {cs : List Char} (h : Barren cs) (word : String) :
    readKeyword word cs = .absent cs := by
  rw [readKeyword, h.readName_eq]

/-- Another character does not start there. -/
theorem Barren.head?_ne {cs : List Char} (h : Barren cs) {c : Char} (hslash : c ≠ '/')
    (hblank : Text.isBlank c = false) : cs.head? ≠ some c := by
  intro hc
  rcases h c hc with rfl | hc
  · exact hslash rfl
  · rw [hblank] at hc
    cases hc

/-- No numeral starts there. -/
theorem Barren.readNumeral_eq {cs : List Char} (h : Barren cs) : readNumeral cs = .absent cs := by
  have hscan : Numeral.scan cs = none := by
    rw [Numeral.scan_of_head?_ne (h.head?_ne (by decide) (by decide))]
    cases cs with
    | nil => rfl
    | cons c cs =>
      have hdigit : c.isDigit = false := by
        rcases h c rfl with rfl | hc
        · rfl
        · exact Text.isDigit_of_isBlank hc
      simp [Numeral.scanUnsigned, Numeral.digitRun, hdigit]
  rw [readNumeral, hscan]

/-! ### Replies -/

section Replies

variable {tail : List Char} {α β : Type} {r r' : Reply α}

/-- Readers that go on after replies that agree give replies that agree. -/
theorem Agrees.andThen {next next' : α → List Char → Reply β} (h : Agrees tail r r')
    (hnext : ∀ value cs ds, Cut tail cs ds → Agrees tail (next value cs) (next' value ds)) :
    Agrees tail (r.andThen next) (r'.andThen next') := by
  cases h with
  | found value h => exact hnext value _ _ h
  | absent stop stop' => exact .absent stop stop'
  | failed deep stop => exact .failed deep stop _

/-- Other readers that give replies that agree may be tried. -/
theorem Agrees.orElse {other other' : Unit → Reply α} (h : Agrees tail r r')
    (hother : Agrees tail (other ()) (other' ())) :
    Agrees tail (r.orElse other) (r'.orElse other') := by
  cases h with
  | found value h => exact .found value h
  | absent => exact hother
  | failed deep stop => exact .failed deep stop _

/-- A value that has to be there is there for both replies or for none. -/
theorem Agrees.required (h : Agrees tail r r') : Agrees tail r.required r'.required := by
  cases h with
  | found value h => exact .found value h
  | absent stop => exact .failed false stop _
  | failed deep stop => exact .failed deep stop _

/-- A value is changed in the same way. -/
theorem Agrees.map (f : α → β) (h : Agrees tail r r') : Agrees tail (r.map f) (r'.map f) :=
  h.andThen fun _ _ _ h => .found _ h

end Replies

section Tail

variable {tail : List Char} (htail : ∀ c ∈ tail, Text.isBlank c = true)

/-! ### Blanks in the tail -/

include htail

/-- No token starts at the tail. -/
theorem barren_tail : Barren tail :=
  fun c hc => .inr (htail c (List.mem_of_head? hc))

/-- No token starts at what is skipped of the tail. -/
theorem barren_skip_tail : Barren (skip tail) := by
  induction tail with
  | nil => exact nofun
  | cons c tail ih =>
    rw [List.forall_mem_cons] at htail
    obtain ⟨hblank, htail⟩ := htail
    rw [skip_cons]
    split
    · exact ih htail
    · rw [if_neg (Text.ne_of_isBlank hblank (by decide))]
      rintro d ⟨⟩
      exact .inr hblank

/-- No token starts at what is skipped of the tail inside a comment. -/
theorem barren_skipComment_tail {start : List Char} (hstart : Barren start) :
    Barren (skipComment start tail) := by
  induction tail with
  | nil => exact nofun
  | cons c tail ih =>
    rw [List.forall_mem_cons] at htail
    obtain ⟨-, htail⟩ := htail
    rw [skipComment_cons]
    split
    · exact barren_skip_tail htail
    · split
      · cases tail with
        | nil => exact hstart
        | cons d tail =>
          dsimp only
          split
          · exact barren_skip_tail (List.forall_mem_cons.mp htail).2
          · exact hstart
      · exact ih htail

mutual

/-- The tail stays after what is skipped in front of it, or the skipping ends in it. -/
theorem skip_append_tail (cs : List Char) (hcs : Trimmed cs) :
    skip (cs ++ tail) = skip cs ++ tail ∨ skip cs = [] ∧ Barren (skip (cs ++ tail)) := by
  cases cs with
  | nil => exact .inr ⟨rfl, barren_skip_tail htail⟩
  | cons c cs =>
    have htrimmed := hcs.of_suffix (List.suffix_cons c cs)
    rw [List.cons_append, skip_cons, skip_cons]
    split
    · exact skip_append_tail cs htrimmed
    · split
      · next hslash =>
        subst hslash
        match cs with
        | [] =>
          refine .inl ?_
          cases tail with
          | nil => rfl
          | cons d tail =>
            exact if_neg (Text.ne_of_isBlank (htail d List.mem_cons_self) (by decide))
        | d :: ds =>
          dsimp only [List.cons_append]
          split
          · have hstart : Barren ('/' :: d :: ds ++ tail) := by
              rintro e ⟨⟩
              exact .inl rfl
            exact skipComment_append_tail _ ds (htrimmed.of_suffix (List.suffix_cons d ds)) hstart
          · exact .inl rfl
      · exact .inl rfl

/-- The tail stays after a comment in front of it, or the comment ends in it. -/
theorem skipComment_append_tail (start cs : List Char) (hcs : Trimmed cs)
    (hstart : Barren (start ++ tail)) :
    skipComment (start ++ tail) (cs ++ tail) = skipComment start cs ++ tail ∨
      skipComment start cs = [] ∧ Barren (skipComment (start ++ tail) (cs ++ tail)) := by
  cases cs with
  | nil => exact .inr ⟨rfl, barren_skipComment_tail htail hstart⟩
  | cons c cs =>
    have htrimmed := hcs.of_suffix (List.suffix_cons c cs)
    rw [List.cons_append, skipComment_cons, skipComment_cons]
    split
    · exact skip_append_tail cs htrimmed
    · split
      · next hreturn =>
        subst hreturn
        match cs with
        | [] => exact absurd (hcs '\r' rfl) (by decide)
        | d :: ds =>
          dsimp only [List.cons_append]
          split
          · exact skip_append_tail ds (htrimmed.of_suffix (List.suffix_cons d ds))
          · exact .inl rfl
      · exact skipComment_append_tail start cs htrimmed hstart

end

/-- What is skipped overlooks the tail. -/
theorem Cut.skip {cs ds : List Char} (h : Cut tail cs ds) :
    Cut tail (skip cs) (Script.skip ds) := by
  cases h with
  | before hds =>
    rcases skip_append_tail htail ds hds with heq | ⟨hnil, hbarren⟩
    · rw [heq]
      exact .before (hds.of_suffix (skip_suffix ds))
    · rw [hnil]
      exact .within ⟨hbarren, skip_skip _⟩
  | within h =>
    rw [h.skip_eq]
    exact .within h

/-! ### Tokens -/

/-- What is read up to a quote is read from the characters without the tail. -/
theorem unquote_of_append {quote : Char} (hblank : Text.isBlank quote = false)
    (hslash : quote ≠ '\\') {cs text rest : List Char} (hcs : Trimmed cs)
    (h : Text.unquote quote (cs ++ tail) = some (text, rest)) :
    ∃ rest', Text.unquote quote cs = some (text, rest') ∧ Cut tail rest rest' := by
  obtain ⟨written, hwritten, heq⟩ := exists_writesText_of_unquote h
  -- The closing quote is no blank, so it stands in front of the tail.
  have hquote : quote ∉ tail := fun hmem => Text.ne_of_isBlank (htail quote hmem) hblank rfl
  rcases List.append_eq_append_iff.mp heq with ⟨more, -, rfl⟩ | ⟨more, rfl, hrest⟩
  · simp at hquote
  · cases more with
    | nil =>
      rw [List.nil_append] at hrest
      rw [← hrest] at hquote
      simp at hquote
    | cons c more =>
      obtain ⟨rfl, rfl⟩ := List.cons.inj hrest
      have htrimmed := hcs.of_suffix
        ((List.suffix_cons quote more).trans (List.suffix_append written _))
      exact ⟨more, hwritten.unquote_append hslash more, .before htrimmed⟩

/-- A reader overlooks the tail if it does so after some character, and if it takes nothing where no
token starts. -/
theorem Overlooks.of_cons {α : Type} {reader : Reader α}
    (hcons : ∀ c cs, Trimmed (c :: cs) →
      Agrees tail (reader (c :: (cs ++ tail))) (reader (c :: cs)))
    (hbarren : ∀ cs, Barren cs → ∃ stop, reader cs = .absent stop) : Overlooks tail reader := by
  have habsent : ∀ cs, Barren cs → Agrees tail (reader cs) (reader []) := by
    intro cs hcs
    obtain ⟨stop, hstop⟩ := hbarren cs hcs
    obtain ⟨stop', hstop'⟩ := hbarren [] nofun
    rw [hstop, hstop']
    exact .absent stop stop'
  rintro _ ds (hds | hidle)
  · cases ds with
    | nil => exact habsent tail (barren_tail htail)
    | cons c cs => exact hcons c cs hds
  · exact habsent _ hidle.barren

/-- A character that is neither a slash nor a blank is taken. -/
theorem overlooks_readChar {expected : Char} (hslash : expected ≠ '/')
    (hblank : Text.isBlank expected = false) : Overlooks tail (readChar expected) := by
  refine .of_cons htail (fun c cs h => ?_) fun cs hcs => ?_
  · rw [readChar, readChar]
    split
    · exact .found () (.before (h.of_suffix (List.suffix_cons c cs)))
    · exact .absent _ _
  · cases cs with
    | nil => exact ⟨[], rfl⟩
    | cons c cs => exact ⟨c :: cs, if_neg fun hc => hcs.head?_ne hslash hblank (congrArg some hc)⟩

/-- A name is taken. -/
theorem overlooks_readName : Overlooks tail readName := by
  refine .of_cons htail (fun c cs h => ?_) fun cs hcs => ?_
  · obtain ⟨htake, hdrop⟩ :=
      Text.run_append_of_not (fun c hc => Text.isNameChar_of_isBlank (htail c hc)) cs
    rw [readName, readName, htake, hdrop]
    split
    · exact .found _
        (.before (h.of_suffix ((List.dropWhile_suffix _).trans (List.suffix_cons c cs))))
    · exact .absent _ _
  · exact ⟨cs, hcs.readName_eq⟩

/-- A keyword is taken. -/
theorem overlooks_readKeyword (word : String) : Overlooks tail (readKeyword word) := by
  intro cs ds h
  have hname := overlooks_readName htail cs ds h
  unfold readKeyword
  cases hcs : readName cs with
  | found name rest =>
    obtain ⟨rest', hds, hrest⟩ := hname.of_found hcs
    rw [hds]
    dsimp only
    split
    · exact .found () hrest
    · exact .absent cs ds
  | absent stop =>
    obtain ⟨stop', hds⟩ := hname.of_absent hcs
    rw [hds]
    exact .absent cs ds
  | failed deep stop => exact absurd hcs (readName_ne_failed cs deep stop)

/-- A string in the given quotes is taken. -/
theorem overlooks_readQuoted {quote : Char} (hquote : quote = '"' ∨ quote = '\'') :
    Overlooks tail (readQuoted quote) := by
  obtain ⟨hslash, hmark, hblank⟩ :
      quote ≠ '/' ∧ quote ≠ '\\' ∧ Text.isBlank quote = false := by
    rcases hquote with rfl | rfl <;> decide
  refine .of_cons htail (fun c cs h => ?_) fun cs hcs => ?_
  · rw [readQuoted, readQuoted]
    split
    · split
      · next text rest hunquote =>
        obtain ⟨rest', hds, hrest⟩ :=
          unquote_of_append htail hblank hmark (h.of_suffix (List.suffix_cons c cs)) hunquote
        rw [hds]
        exact .found _ hrest
      · exact .failed _ _ _
    · exact .absent _ _
  · cases cs with
    | nil => exact ⟨[], rfl⟩
    | cons c cs => exact ⟨c :: cs, if_neg fun hc => hcs.head?_ne hslash hblank (congrArg some hc)⟩

/-- A string is taken. -/
theorem overlooks_readString : Overlooks tail readString :=
  fun cs ds h => ((overlooks_readQuoted htail (.inl rfl) cs ds h).orElse
    (overlooks_readQuoted htail (.inr rfl) cs ds h)).map _

/-- The name of an infinity is taken. -/
theorem overlooks_readInfinity : Overlooks tail readInfinity := by
  have hkeyword := overlooks_readKeyword htail "Infinity"
  have hunsigned {cs : List Char} (hcs : cs.head? ≠ some '-') : readInfinity cs =
      (readKeyword "Infinity" cs).map fun _ => .float (.infinite false) := by
    cases cs with
    | nil => rfl
    | cons c cs =>
      have hminus : c ≠ '-' := by simpa using hcs
      simp [readInfinity, hminus]
  refine .of_cons htail (fun c cs h => ?_) fun cs hcs => ?_
  · by_cases hminus : c = '-'
    · subst hminus
      exact (hkeyword _ _ (.before (h.of_suffix (List.suffix_cons '-' cs)))).map _
    · have hhead (rest : List Char) : (c :: rest).head? ≠ some '-' := by simpa using hminus
      rw [hunsigned (hhead _), hunsigned (hhead _)]
      exact (hkeyword _ _ (.before h)).map _
  · refine ⟨cs, ?_⟩
    rw [hunsigned (hcs.head?_ne (by decide) (by decide)), hcs.readKeyword_eq]
    rfl

/-- A run of digits ends in front of the tail. -/
theorem digitRun_append_tail (cs : List Char) :
    Numeral.digitRun (cs ++ tail) =
      ((Numeral.digitRun cs).1, (Numeral.digitRun cs).2 ++ tail) := by
  obtain ⟨htake, hdrop⟩ :=
    Text.run_append_of_not (fun c hc => Text.isDigit_of_isBlank (htail c hc)) cs
  rw [Numeral.digitRun, htake, hdrop, Numeral.digitRun]

/-- The tail is no part of a numeral. -/
theorem apart_tail : Numeral.Apart tail := by
  cases tail with
  | nil => exact apart_nil
  | cons c tail =>
    have hblank := htail c List.mem_cons_self
    exact Numeral.apart_cons (Text.isNameChar_of_isBlank hblank)
      (Text.ne_of_isBlank hblank (by decide)) tail

/-- A fraction ends in front of the tail. -/
theorem takeFraction_append_tail (cs : List Char) :
    Numeral.takeFraction (cs ++ tail) =
      ((Numeral.takeFraction cs).1, (Numeral.takeFraction cs).2 ++ tail) := by
  cases cs with
  | nil => exact (apart_tail htail).takeFraction
  | cons c cs =>
    by_cases hpoint : c = '.'
    · subst hpoint
      rw [List.cons_append, Numeral.takeFraction, Numeral.takeFraction, digitRun_append_tail htail]
      cases Numeral.digitRun cs with
      | mk digits rest => cases digits <;> rfl
    · simp [Numeral.takeFraction, hpoint]

/-- A sign is none of the tail. -/
theorem takeSign_append_tail (cs : List Char) :
    Numeral.takeSign (cs ++ tail) =
      ((Numeral.takeSign cs).1, (Numeral.takeSign cs).2 ++ tail) := by
  have hsign {c : Char} (hminus : c ≠ '-') (hplus : c ≠ '+') (cs : List Char) :
      Numeral.takeSign (c :: cs) = (false, c :: cs) := by
    simp [Numeral.takeSign, hminus, hplus]
  cases cs with
  | nil =>
    cases tail with
    | nil => rfl
    | cons c tail =>
      have hblank := htail c List.mem_cons_self
      exact hsign (Text.ne_of_isBlank hblank (by decide))
        (Text.ne_of_isBlank hblank (by decide)) tail
  | cons c cs =>
    by_cases hminus : c = '-'
    · subst hminus
      rfl
    · by_cases hplus : c = '+'
      · subst hplus
        rfl
      · rw [List.cons_append, hsign hminus hplus, hsign hminus hplus, List.cons_append]

/-- An exponent ends in front of the tail. -/
theorem takeExponent_append_tail (cs : List Char) :
    Numeral.takeExponent (cs ++ tail) =
      ((Numeral.takeExponent cs).1, (Numeral.takeExponent cs).2 ++ tail) := by
  cases cs with
  | nil => exact Numeral.takeExponent_append .none (apart_tail htail)
  | cons c cs =>
    simp only [List.cons_append, Numeral.takeExponent, takeSign_append_tail htail cs,
      digitRun_append_tail htail]
    split
    · cases Numeral.digitRun (Numeral.takeSign cs).2 with
      | mk digits rest => cases digits <;> rfl
    · rfl

/-- A numeral without a sign ends in front of the tail. -/
theorem scanUnsigned_append_tail (negative : Bool) (cs : List Char) :
    Numeral.scanUnsigned negative (cs ++ tail) =
      (Numeral.scanUnsigned negative cs).map fun (n, rest) => (n, rest ++ tail) := by
  unfold Numeral.scanUnsigned
  rw [digitRun_append_tail htail]
  cases Numeral.digitRun cs with
  | mk digits rest =>
    cases digits with
    | nil => rfl
    | cons d digits =>
      simp only [takeFraction_append_tail htail, takeExponent_append_tail htail]
      rfl

/-- A numeral ends in front of the tail. -/
theorem scan_append_tail (cs : List Char) :
    Numeral.scan (cs ++ tail) = (Numeral.scan cs).map fun (n, rest) => (n, rest ++ tail) := by
  have hunsigned {cs : List Char} (h : cs.head? ≠ some '-')
      (happend : (cs ++ tail).head? ≠ some '-') :
      Numeral.scan (cs ++ tail) = (Numeral.scan cs).map fun (n, rest) => (n, rest ++ tail) := by
    rw [Numeral.scan_of_head?_ne h, Numeral.scan_of_head?_ne happend,
      scanUnsigned_append_tail htail]
  cases cs with
  | nil => exact hunsigned nofun ((barren_tail htail).head?_ne (by decide) (by decide))
  | cons c cs =>
    by_cases hminus : c = '-'
    · subst hminus
      exact scanUnsigned_append_tail htail true cs
    · exact hunsigned (by simpa using hminus) (by simpa using hminus)

/-- A numeral is taken. -/
theorem overlooks_readNumeral : Overlooks tail readNumeral := by
  rintro _ ds (hds | hidle)
  · unfold readNumeral
    rw [scan_append_tail htail]
    cases hscan : Numeral.scan ds with
    | none => exact .absent _ _
    | some found =>
      obtain ⟨n, rest⟩ := found
      obtain ⟨text, -, rfl⟩ := Numeral.eq_append_of_scan hscan
      have hrest := hds.of_suffix (List.suffix_append text rest)
      dsimp only [Option.map_some]
      split
      · split
        · exact .found _ (.before hrest)
        · exact .absent _ _
      · exact .found _ (.before hrest)
  · rw [hidle.barren.readNumeral_eq]
    exact .absent _ []

/-- A number is taken. -/
theorem overlooks_readNumber : Overlooks tail readNumber :=
  fun cs ds h => (((overlooks_readKeyword htail "NaN" cs ds h).map _).orElse
    (overlooks_readInfinity htail cs ds h)).orElse (overlooks_readNumeral htail cs ds h)

end Tail

end Script

end FluentSql
