import FluentSql.Proofs.Script.Derivation

/-!
# Written tokens are read

Blanks are skipped, and strings, names and numbers are read as they were written. What matters about
the characters after a token is only that they could not belong to it.
-/

namespace FluentSql

namespace Script

/-! ### Blanks -/

/-- What is skipped at a first character. -/
theorem skip_cons (c : Char) (cs : List Char) :
    skip (c :: cs) = if Text.isSpace c then skip cs else if c = '/' then
      match cs with
      | [] => [c]
      | d :: ds => if d = '/' then skipComment (c :: d :: ds) ds else c :: d :: ds
    else c :: cs := by
  cases cs <;> rfl

/-- What is skipped of a comment at a first character. -/
theorem skipComment_cons (start : List Char) (c : Char) (cs : List Char) :
    skipComment start (c :: cs) = if c = '\n' then skip cs else if c = '\r' then
      match cs with
      | [] => start
      | d :: ds => if d = '\n' then skip ds else start
    else skipComment start cs := by
  cases cs <;> rfl

/-- A comment goes on up to the end of its line. -/
theorem skipComment_append {text : List Char} (start rest : List Char)
    (htext : ∀ c ∈ text, c ≠ '\n' ∧ c ≠ '\r') :
    skipComment start (text ++ rest) = skipComment start rest := by
  induction text with
  | nil => rfl
  | cons c text ih =>
    rw [List.forall_mem_cons] at htext
    obtain ⟨⟨hfeed, hreturn⟩, htext⟩ := htext
    rw [List.cons_append, skipComment_cons, if_neg hfeed, if_neg hreturn, ih htext]

/-- Two slashes start a comment. -/
theorem skip_slashes (cs : List Char) :
    skip ('/' :: '/' :: cs) = skipComment ('/' :: '/' :: cs) cs := by
  rw [skip_cons]
  rfl

/-- What blanks lead up to is skipped as they are. -/
theorem Skips.skip_eq {cs rest : List Char} (h : Skips cs rest) : skip cs = skip rest := by
  induction h with
  | done => rfl
  | space hspace _ ih => rw [skip_cons, if_pos hspace, ih]
  | @comment text cs rest htext hend _ ih =>
    rw [skip_slashes, skipComment_append _ _ htext, ← ih]
    rcases hend with rfl | ⟨tail, rfl | rfl⟩
    · rfl
    · rw [skipComment_cons]
      rfl
    · rw [skipComment_cons]
      rfl

/-- Spaces and comments that are written are blanks of the grammar. -/
theorem Blank.skips {gap : List Char} (h : Blank gap) (rest : List Char) :
    Skips (gap ++ rest) rest := by
  induction h with
  | nil => exact .done rest
  | space hspace _ ih => exact .space hspace ih
  | @comment text ending cs htext hending _ ih =>
    rw [List.cons_append, List.cons_append, List.append_assoc, List.append_assoc]
    rcases hending with rfl | rfl
    · exact .comment htext (.inr ⟨_, .inl rfl⟩) (.space rfl ih)
    · exact .comment htext (.inr ⟨_, .inr rfl⟩) (.space rfl (.space rfl ih))

/-- Spaces and comments are skipped. -/
theorem Blank.skip_append {gap : List Char} (h : Blank gap) (rest : List Char) :
    skip (gap ++ rest) = skip rest :=
  (h.skips rest).skip_eq

/-- Spaces and comments at the end are skipped. -/
theorem FinalBlank.skip_eq_nil {cs : List Char} (h : FinalBlank cs) : skip cs = [] := by
  cases h with
  | closed h =>
    have hskip := h.skip_append []
    rwa [List.append_nil] at hskip
  | @comment cs text h htext =>
    have hcomment := skipComment_append ('/' :: '/' :: text) [] htext
    rw [List.append_nil] at hcomment
    rw [h.skip_append, skip_slashes, hcomment]
    rfl

/-- The characters begin with one that is neither a space nor the start of a comment. -/
def Solid (cs : List Char) : Prop :=
  ∃ c tail, cs = c :: tail ∧ Text.isSpace c = false ∧ c ≠ '/'

/-- There is nothing to skip in front of such a character. -/
theorem Solid.skip_eq {cs : List Char} (h : Solid cs) : skip cs = cs := by
  obtain ⟨c, tail, rfl, hspace, hslash⟩ := h
  rw [skip_cons, hspace, if_neg Bool.false_ne_true, if_neg hslash]

/-- What follows does not matter. -/
theorem Solid.append {cs : List Char} (h : Solid cs) (rest : List Char) : Solid (cs ++ rest) := by
  obtain ⟨c, tail, rfl, hspace, hslash⟩ := h
  exact ⟨c, tail ++ rest, rfl, hspace, hslash⟩

/-- Spaces and comments in front are all that is skipped. -/
theorem Blank.skip_append_solid {gap cs : List Char} (h : Blank gap) (hcs : Solid cs) :
    skip (gap ++ cs) = cs := by
  rw [h.skip_append, hcs.skip_eq]

/-! ### Ends of parts -/

/-- The characters cannot go on with a name, a number or a call that ends right before them. -/
structure Closed (rest : List Char) : Prop where
  /-- They do not go on with a name or a number. -/
  apart : Numeral.Apart rest
  /-- No arguments follow. -/
  opening : (skip rest).head? ≠ some '('

/-- The characters cannot go on with an expression that ends right before them. -/
structure Ended (rest : List Char) : Prop where
  /-- They do not go on with a primary. -/
  closed : Closed rest
  /-- No method call follows. -/
  chaining : (skip rest).head? ≠ some '.'

/-- The character ends an expression. -/
def IsEnd (c : Char) : Prop :=
  c = ',' ∨ c = ')' ∨ c = ';'

/-- A space may not stand in a name. -/
theorem isNameChar_of_isSpace {c : Char} (h : Text.isSpace c = true) :
    Text.isNameChar c = false := by
  simp only [Text.isSpace, Bool.or_eq_true, beq_iff_eq] at h
  rcases h with ((rfl | rfl) | rfl) | rfl <;> rfl

/-- A space or a comment is no part of a name or a number. -/
theorem Blank.apart_of_ne_nil {gap : List Char} (h : Blank gap) (hne : gap ≠ [])
    (rest : List Char) : Numeral.Apart (gap ++ rest) := by
  cases h with
  | nil => exact absurd rfl hne
  | @space c cs hspace h =>
    have hpoint : c ≠ '.' := by
      rintro rfl
      cases hspace
    exact Numeral.apart_cons (isNameChar_of_isSpace hspace) hpoint _
  | comment => exact Numeral.apart_cons (by decide) (by decide) _

/-- Blanks are no part of a name or a number, if what follows them is none. -/
theorem Blank.apart {gap rest : List Char} (h : Blank gap) (hrest : Numeral.Apart rest) :
    Numeral.Apart (gap ++ rest) := by
  by_cases hne : gap = []
  · subst hne
    exact hrest
  · exact h.apart_of_ne_nil hne rest

/-- The end of the characters ends an expression. -/
theorem apart_nil : Numeral.Apart [] :=
  ⟨by simp, by simp⟩

/-- A comma, a closing parenthesis or a semicolon ends an expression, with blanks in front. -/
theorem Blank.ended {gap : List Char} (h : Blank gap) {c : Char} (hc : IsEnd c) (rest : List Char) :
    Ended (gap ++ c :: rest) := by
  have hsolid : Solid (c :: rest) := by
    refine ⟨c, rest, rfl, ?_, ?_⟩ <;> rcases hc with rfl | rfl | rfl <;> decide
  have hapart : Numeral.Apart (c :: rest) := by
    rcases hc with rfl | rfl | rfl <;> exact Numeral.apart_cons (by decide) (by decide) rest
  refine ⟨⟨h.apart hapart, ?_⟩, ?_⟩
  all_goals
    rw [h.skip_append_solid hsolid]
    rcases hc with rfl | rfl | rfl <;> simp

/-- The point of a method call ends a primary, with blanks in front. -/
theorem Blank.closed_point {before after : List Char} (hbefore : Blank before)
    (hafter : Blank after) {name : List Char} (hname : Text.isBareName name = true)
    (rest : List Char) : Closed (before ++ '.' :: (after ++ (name ++ rest))) := by
  have hsolid : Solid ('.' :: (after ++ (name ++ rest))) := ⟨'.', _, rfl, rfl, by decide⟩
  have hapart : Numeral.Apart ('.' :: (after ++ (name ++ rest))) := by
    refine ⟨by rintro c ⟨⟩; decide, ?_⟩
    intro d tail heq
    obtain ⟨c, more, rfl, hstart, -⟩ := Text.exists_of_isBareName hname
    cases hafter with
    | nil =>
      cases heq
      exact Text.isDigit_of_isNameStart hstart
    | space hspace =>
      cases heq
      rw [Bool.eq_false_iff]
      intro hdigit
      have hname := isNameChar_of_isSpace hspace
      rw [Numeral.isNameChar_of_isDigit hdigit] at hname
      cases hname
    | comment =>
      cases heq
      rfl
  refine ⟨hbefore.apart hapart, ?_⟩
  rw [hbefore.skip_append_solid hsolid]
  simp

/-! ### Strings, names and numbers -/

/-- What is written between quotes is read back. -/
theorem WritesText.unquote_append {quote : Char} {text cs : List Char}
    (h : WritesText quote text cs)
    (hquote : quote ≠ '\\') (rest : List Char) :
    Text.unquote quote (cs ++ quote :: rest) = some (text, rest) := by
  induction h with
  | nil => simp [Text.unquote, hquote]
  | plain hslash hplain _ ih => simp [Text.unquote, hslash, hplain, ih]
  | marked _ ih => simp [Text.unquote, ih]

/-- A written string is read. -/
theorem WritesText.readString_append {quote : Char} {value : String} {cs : List Char}
    (h : WritesText quote value.toList cs) (hquote : quote = '"' ∨ quote = '\'')
    (rest : List Char) :
    readString (quote :: (cs ++ quote :: rest)) = .found (.string value) rest := by
  have hslash : quote ≠ '\\' := by rcases hquote with rfl | rfl <;> decide
  have hunquote := h.unquote_append hslash rest
  rcases hquote with rfl | rfl <;> simp [readString, readQuoted, hunquote]

/-- Without a quote there is no string. -/
theorem readString_absent {c : Char} {cs : List Char} (h : c ≠ '"' ∧ c ≠ '\'') :
    readString (c :: cs) = .absent (c :: cs) := by
  simp [readString, readQuoted, h.1, h.2]

/-- A name is read up to its end. -/
theorem readName_append {name rest : List Char} (hname : Text.isBareName name = true)
    (hrest : ∀ c ∈ rest.head?, Text.isNameChar c = false) :
    readName (name ++ rest) = .found (String.ofList name) rest := by
  obtain ⟨c, tail, rfl, hstart, htail⟩ := Text.exists_of_isBareName hname
  obtain ⟨htake, hdrop⟩ := Text.run_append htail hrest
  simp [readName, hstart, htake, hdrop]

/-- Without a start there is no name. -/
theorem readName_absent {c : Char} {cs : List Char} (h : Text.isNameStart c = false) :
    readName (c :: cs) = .absent (c :: cs) := by
  simp [readName, h]

/-- A keyword is a name that is equal to it. -/
theorem readKeyword_append {name rest : List Char} (word : String)
    (hname : Text.isBareName name = true) (hrest : ∀ c ∈ rest.head?, Text.isNameChar c = false) :
    readKeyword word (name ++ rest) =
      if String.ofList name = word then .found () rest else .absent (name ++ rest) := by
  simp [readKeyword, readName_append hname hrest]

/-- Without a start there is no keyword. -/
theorem readKeyword_absent {c : Char} {cs : List Char} (word : String)
    (h : Text.isNameStart c = false) : readKeyword word (c :: cs) = .absent (c :: cs) := by
  simp [readKeyword, readName_absent h]

/-- A numeral starts with a digit, or with a minus sign and a digit. -/
theorem exists_of_writes {n : Numeral} {cs : List Char} (h : n.Writes cs) :
    ∃ c tail, c.isDigit = true ∧ (cs = c :: tail ∨ cs = '-' :: c :: tail) := by
  cases h with
  | @mk negative whole _ _ _ _ hwhole =>
    obtain ⟨hne, hall⟩ := hwhole
    obtain ⟨c, tail, rfl⟩ := List.exists_cons_of_ne_nil hne
    have hdigit := hall c List.mem_cons_self
    cases negative with
    | false => exact ⟨c, _, hdigit, .inl rfl⟩
    | true => exact ⟨c, _, hdigit, .inr rfl⟩

/-- What starts as a numeral is no name of a number. -/
theorem readNumber_of_writes {n : Numeral} {cs : List Char} (h : n.Writes cs) (rest : List Char) :
    readNumber (cs ++ rest) = readNumeral (cs ++ rest) := by
  obtain ⟨c, tail, hdigit, rfl | rfl⟩ := exists_of_writes h
  · have hstart := Text.isNameStart_of_isDigit hdigit
    have hminus : c ≠ '-' := by
      rintro rfl
      cases hdigit
    simp [readNumber, readInfinity, readKeyword_absent _ hstart, hminus]
  · have hstart := Text.isNameStart_of_isDigit hdigit
    have hminus : Text.isNameStart '-' = false := by decide
    simp [readNumber, readInfinity, readKeyword_absent _ hstart, readKeyword_absent _ hminus]

/-- A free name is no number. -/
theorem IsFreeName.readNumber_append {name : String} (h : IsFreeName name) {rest : List Char}
    (hrest : ∀ c ∈ rest.head?, Text.isNameChar c = false) :
    readNumber (name.toList ++ rest) = .absent (name.toList ++ rest) := by
  obtain ⟨hname, hnan, hinfinity⟩ := h
  have hkeyword (word : String) := readKeyword_append word hname hrest
  obtain ⟨c, tail, heq, hstart, -⟩ := Text.exists_of_isBareName hname
  have hminus : c ≠ '-' := by
    rintro rfl
    cases hstart
  have hdigit := Text.isDigit_of_isNameStart hstart
  simp only [String.ofList_toList] at hkeyword
  have hunsigned : readInfinity (name.toList ++ rest) = .absent (name.toList ++ rest) := by
    have hword : readInfinity (name.toList ++ rest) =
        (readKeyword "Infinity" (name.toList ++ rest)).map fun _ => .float (.infinite false) := by
      simp [heq, readInfinity, hminus]
    rw [hword, hkeyword, if_neg hinfinity]
    rfl
  have hnumeral : readNumeral (name.toList ++ rest) = .absent (name.toList ++ rest) := by
    simp [heq, readNumeral, Numeral.scan, Numeral.digitRun, hminus, hdigit]
  simp [readNumber, hkeyword, hnan, hunsigned, hnumeral]

/-! ### Primaries -/

section Primaries

variable (inner : Reader Node)

/-- A written string is read as a primary. -/
theorem readPrimary_string {quote : Char} {value : String} {cs : List Char}
    (hquote : quote = '"' ∨ quote = '\'') (h : WritesText quote value.toList cs)
    (rest : List Char) :
    readPrimary inner (quote :: (cs ++ quote :: rest)) = .found (.string value) rest := by
  simp [readPrimary, h.readString_append hquote]

/-- A written numeral is read as a primary, if it is a number. -/
theorem readPrimary_numeral {n : Numeral} {cs : List Char} (h : n.Writes cs) {rest : List Char}
    {node : Node} (hnumeral : readNumeral (cs ++ rest) = .found node rest) :
    readPrimary inner (cs ++ rest) = .found node rest := by
  have hstring : readString (cs ++ rest) = .absent (cs ++ rest) := by
    obtain ⟨c, tail, hdigit, rfl | rfl⟩ := exists_of_writes h
    · refine readString_absent ⟨?_, ?_⟩ <;> (rintro rfl; cases hdigit)
    · exact readString_absent (by decide)
  simp [readPrimary, hstring, readNumber_of_writes h, hnumeral]

/-- The word for what is not a number is read as a primary. -/
theorem readPrimary_nan {rest : List Char} (hrest : Numeral.Apart rest) :
    readPrimary inner ("NaN".toList ++ rest) = .found (.float .nan) rest := by
  have hstring : readString ("NaN".toList ++ rest) = .absent ("NaN".toList ++ rest) :=
    readString_absent (by decide)
  have hkeyword :=
    readKeyword_append "NaN" (by decide : Text.isBareName "NaN".toList = true) hrest.name
  simp only [readPrimary, hstring, readNumber, hkeyword]
  rfl

/-- The word for infinity is read as a primary, with its sign. -/
theorem readPrimary_infinity (negative : Bool) {rest : List Char} (hrest : Numeral.Apart rest) :
    readPrimary inner ((if negative then ['-'] else []) ++ "Infinity".toList ++ rest) =
      .found (.float (.infinite negative)) rest := by
  have hkeyword (word : String) := readKeyword_append word
    (by decide : Text.isBareName "Infinity".toList = true) hrest.name
  cases negative with
  | false =>
    have hstring : readString ("Infinity".toList ++ rest) = .absent ("Infinity".toList ++ rest) :=
      readString_absent (by decide)
    have hnan := hkeyword "NaN"
    have hinfinity := hkeyword "Infinity"
    rw [if_neg (by decide)] at hnan
    rw [if_pos (by decide)] at hinfinity
    have hread :
        readInfinity ("Infinity".toList ++ rest) = .found (.float (.infinite false)) rest :=
      congrArg (Reply.map fun _ => Node.float (.infinite false)) hinfinity
    change readPrimary inner ("Infinity".toList ++ rest) = _
    simp only [readPrimary, hstring, readNumber, hnan, hread]
    rfl
  | true =>
    have hstring : readString ('-' :: ("Infinity".toList ++ rest)) = .absent _ :=
      readString_absent (by decide)
    have hnan : readKeyword "NaN" ('-' :: ("Infinity".toList ++ rest)) = .absent _ :=
      readKeyword_absent "NaN" (by decide)
    have hinfinity := hkeyword "Infinity"
    rw [if_pos (by decide)] at hinfinity
    have hread : readInfinity ('-' :: ("Infinity".toList ++ rest)) =
        .found (.float (.infinite true)) rest :=
      congrArg (Reply.map fun _ => Node.float (.infinite true)) hinfinity
    change readPrimary inner ('-' :: ("Infinity".toList ++ rest)) = _
    simp only [readPrimary, hstring, readNumber, hnan, hread]
    rfl

/-- A free name starts a name or a call. -/
theorem readPrimary_name {name : String} (h : IsFreeName name) {rest : List Char}
    (hrest : ∀ c ∈ rest.head?, Text.isNameChar c = false) :
    readPrimary inner (name.toList ++ rest) =
      (readNameOrCall inner (name.toList ++ rest)).orElse
        fun _ => readParenthesized inner (name.toList ++ rest) := by
  have hstring : readString (name.toList ++ rest) = .absent (name.toList ++ rest) := by
    obtain ⟨c, tail, heq, hstart, -⟩ := Text.exists_of_isBareName h.1
    rw [heq]
    refine readString_absent ⟨?_, ?_⟩ <;> (rintro rfl; cases hstart)
  simp only [readPrimary, hstring, h.readNumber_append hrest, Reply.orElse_absent]

/-- What starts with a parenthesis is no string, no number and no name. -/
private theorem readPrimary_mark {c : Char} (hc : c = '(' ∨ c = ')') (rest : List Char) :
    readPrimary inner (c :: rest) = readParenthesized inner (c :: rest) := by
  have hstring : readString (c :: rest) = .absent (c :: rest) := by
    rcases hc with rfl | rfl <;> exact readString_absent (by decide)
  have hname : readName (c :: rest) = .absent (c :: rest) := by
    rcases hc with rfl | rfl <;> exact readName_absent (by decide)
  have hnumber : readNumber (c :: rest) = .absent (c :: rest) := by
    have hscan : Numeral.scan (c :: rest) = none := by
      rcases hc with rfl | rfl <;> rfl
    have hinfinity : readInfinity (c :: rest) = .absent (c :: rest) := by
      rcases hc with rfl | rfl <;> simp [readInfinity, readKeyword, hname]
    simp [readNumber, readKeyword, hname, hinfinity, readNumeral, hscan]
  simp only [readPrimary, hstring, hnumber, readNameOrCall, hname, Reply.orElse_absent,
    Reply.andThen_absent]

/-- An opening parenthesis starts an expression in parentheses. -/
theorem readPrimary_opening (rest : List Char) :
    readPrimary inner ('(' :: rest) = readParenthesized inner ('(' :: rest) :=
  readPrimary_mark inner (.inl rfl) rest

/-- A closing parenthesis starts no primary. -/
theorem readPrimary_closing (rest : List Char) :
    ∃ stop, readPrimary inner (')' :: rest) = .absent stop := by
  rw [readPrimary_mark inner (.inr rfl) rest]
  exact ⟨_, rfl⟩

end Primaries

end Script

end FluentSql
