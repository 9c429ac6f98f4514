import FluentSql.Proofs.Script.Accepted
import FluentSql.Query.Script

/-!
# Names that a script text refers to

An expression of a script refers to a binding by a bare name that is neither a constant nor one of
the two namespaces, and that has no arguments. The names are found in the text token by token, with
no regard to what the calls mean, so they are also told of a text that is not read as a script. The
text is taken to have no comments.
-/

namespace FluentSql

namespace Script

/-! ### The reader of names -/

/-- The bare names that are no references: the namespaces and the constants. -/
def reserved : List String :=
  ["XQL", "F", "true", "false", "NaN", "Infinity"]

/-- Takes the token that starts with the character: the name that it refers to, if any, and what
follows it. -/
def takeToken (c : Char) (cs : List Char) : List String × List Char :=
  if c = '"' ∨ c = '\'' then ([], (Text.unquote c cs).elim [] (·.2))
  else if Text.isNameStart c then
    let name := String.ofList (c :: cs.takeWhile Text.isNameChar)
    let rest := cs.dropWhile Text.isNameChar
    (if name ∈ reserved ∨ rest.head? = some '(' then [] else [name], rest)
  else if c.isDigit then ([], (Numeral.scan (c :: cs)).elim cs (·.2))
  else ([], cs)

/-- What follows a token is shorter. -/
theorem length_takeToken (c : Char) (cs : List Char) :
    (takeToken c cs).2.length < (c :: cs).length := by
  rw [List.length_cons, Nat.lt_succ_iff]
  unfold takeToken
  split
  · cases hunquote : Text.unquote c cs with
    | none => exact Nat.zero_le _
    | some result => exact (unquote_suffix hunquote).length_le
  split
  · exact (List.dropWhile_suffix _).length_le
  split
  · cases hscan : Numeral.scan (c :: cs) with
    | none => exact Nat.le_refl _
    | some result =>
      obtain ⟨text, hwrites, hcs⟩ := Numeral.eq_append_of_scan hscan
      have hpos := hwrites.length_pos
      have hlength := congrArg List.length hcs
      rw [List.length_append, List.length_cons] at hlength
      change result.2.length ≤ _
      omega
  · exact Nat.le_refl _

/-- The names that a text refers to, in order and as often as it does. -/
def references : List Char → List String
  | [] => []
  | c :: cs => (takeToken c cs).1 ++ references (takeToken c cs).2
termination_by cs => cs.length
decreasing_by exact length_takeToken c cs

/-! ### Tokens -/

/-- A character of a name is no quote. -/
theorem notQuote_of_isNameChar {c : Char} (h : Text.isNameChar c = true) :
    ¬ (c = '"' ∨ c = '\'') := by
  rintro (rfl | rfl) <;> cases h

/-- The character is a token of its own, or part of a blank. -/
def isPlain (c : Char) : Bool :=
  !Text.isNameChar c && c != '"' && c != '\''

/-- A character that neither starts a name nor a number nor a string is passed over. -/
theorem references_plain {c : Char} (h : isPlain c = true) (cs : List Char) :
    references (c :: cs) = references cs := by
  simp only [isPlain, Bool.and_eq_true, Bool.not_eq_true', bne_iff_ne] at h
  obtain ⟨⟨hname, hdouble⟩, hsingle⟩ := h
  have hstart : Text.isNameStart c = false := by
    rw [Bool.eq_false_iff]
    intro hstart
    rw [Text.isNameChar_of_isNameStart hstart] at hname
    cases hname
  have hdigit : c.isDigit = false := by
    rw [Bool.eq_false_iff]
    intro hdigit
    rw [Numeral.isNameChar_of_isDigit hdigit] at hname
    cases hname
  rw [references]
  simp [takeToken, hdouble, hsingle, hstart, hdigit]

/-- A quoted text holds no reference, whatever follows it. -/
theorem references_quoted (s : String) (rest : List Char) :
    references ((Text.quoted s).toList ++ rest) = references rest := by
  have htext : (Text.quoted s).toList ++ rest =
      '"' :: (s.toList.flatMap Text.escapeChar ++ '"' :: rest) := by simp [Text.quoted]
  rw [htext, references]
  simp [takeToken, Text.unquote_escaped]

/-- A bare name is a reference unless it is reserved or the name of a call. -/
theorem references_name {name : String} (h : Text.isBareName name.toList = true) {rest : List Char}
    (hrest : ∀ c ∈ rest.head?, Text.isNameChar c = false) :
    references (name.toList ++ rest) =
      (if name ∈ reserved ∨ rest.head? = some '(' then [] else [name]) ++ references rest := by
  obtain ⟨c, cs, hname, hstart, hall⟩ := Text.exists_of_isBareName h
  obtain ⟨htake, hdrop⟩ := Text.run_append hall hrest
  have hquote := notQuote_of_isNameChar (Text.isNameChar_of_isNameStart hstart)
  have hof : String.ofList (c :: cs) = name := by rw [← hname, String.ofList_toList]
  rw [hname, List.cons_append, references]
  simp only [takeToken, hquote, if_false, hstart, if_true, htake, hdrop, hof]

/-- A number holds no reference. -/
theorem references_number {n : Numeral} {text rest : List Char} (h : n.Writes text)
    (hrest : Numeral.Apart rest) : references (text ++ rest) = references rest := by
  cases h with
  | @mk negative whole fraction fractionText exponentText exponent hwhole hfraction hexponent =>
    have hunsigned : Numeral.Writes ⟨false, whole, fraction, exponent⟩
        (whole ++ fractionText ++ exponentText) := .mk hwhole hfraction hexponent
    have hscan := Numeral.scan_append hunsigned hrest
    obtain ⟨c, digits, rfl⟩ := List.exists_cons_of_ne_nil hwhole.1
    have hdigit := hwhole.2 c List.mem_cons_self
    have hstart := Text.isNameStart_of_isDigit hdigit
    have hquote := notQuote_of_isNameChar (Numeral.isNameChar_of_isDigit hdigit)
    have hnumber : references (c :: digits ++ fractionText ++ exponentText ++ rest) =
        references rest := by
      rw [List.cons_append, List.cons_append, List.cons_append] at hscan ⊢
      rw [references]
      simp only [takeToken, hquote, hstart, hdigit, hscan, if_false, if_true, Bool.false_eq_true]
      rfl
    cases negative with
    | false => simpa using hnumber
    | true => simpa using (references_plain (by decide) _).trans hnumber

/-! ### Texts -/

/-- The characters may follow a token. -/
structure Follows (rest : List Char) : Prop extends Numeral.Apart rest where
  /-- They do not make a name that of a call. -/
  call : rest.head? ≠ some '('

/-- The text refers to the names, whatever follows it. -/
def Refers (text : String) (names : List String) : Prop :=
  ∀ rest, Follows rest → references (text.toList ++ rest) = names ++ references rest

/-- Nothing more has to follow. -/
theorem follows_nil : Follows [] :=
  ⟨⟨nofun, nofun⟩, nofun⟩

/-- A character other than a point and an opening parenthesis may follow, if it is plain. -/
theorem follows_cons {c : Char} (h : isPlain c = true) (hpoint : c ≠ '.') (hcall : c ≠ '(')
    (rest : List Char) : Follows (c :: rest) := by
  simp only [isPlain, Bool.and_eq_true, Bool.not_eq_true'] at h
  exact ⟨Numeral.apart_cons h.1.1 hpoint rest, by simpa using hcall⟩

/-- A method may follow. -/
theorem follows_method {name : String} (h : Text.isBareName name.toList = true)
    (rest : List Char) : Follows ('.' :: (name.toList ++ rest)) := by
  obtain ⟨c, cs, hname, hstart, -⟩ := Text.exists_of_isBareName h
  rw [hname]
  refine ⟨⟨?_, ?_⟩, by simp⟩
  · rintro d ⟨⟩
    rfl
  · rintro d tail ⟨⟩
    exact Text.isDigit_of_isNameStart hstart

/-- A space is plain, and neither a point nor a parenthesis. -/
theorem plain_of_isSpace {c : Char} (h : Text.isSpace c = true) :
    isPlain c = true ∧ c ≠ '.' ∧ c ≠ '(' := by
  simp only [Text.isSpace, Bool.or_eq_true, beq_iff_eq, or_assoc] at h
  rcases h with rfl | rfl | rfl | rfl <;> decide

/-- Spaces are passed over. -/
theorem references_spaces {gap : List Char} (h : ∀ c ∈ gap, Text.isSpace c = true)
    (cs : List Char) : references (gap ++ cs) = references cs := by
  induction gap with
  | nil => rfl
  | cons c gap ih =>
    obtain ⟨hc, hgap⟩ := List.forall_mem_cons.mp h
    rw [List.cons_append, references_plain (plain_of_isSpace hc).1, ih hgap]

/-- Spaces may come before what may follow. -/
theorem Follows.spaces {gap rest : List Char} (hrest : Follows rest)
    (h : ∀ c ∈ gap, Text.isSpace c = true) : Follows (gap ++ rest) := by
  cases gap with
  | nil => exact hrest
  | cons c gap =>
    obtain ⟨hplain, hpoint, hcall⟩ := plain_of_isSpace (h c List.mem_cons_self)
    exact follows_cons hplain hpoint hcall _

/-- The names that a text refers to are those that it refers to on its own. -/
theorem Refers.references_eq {text : String} {names : List String} (h : Refers text names) :
    references text.toList = names := by
  have hall := h [] follows_nil
  rwa [List.append_nil, references, List.append_nil] at hall

/-- A quoted text refers to nothing. -/
theorem refers_quoted (s : String) : Refers (Text.quoted s) [] :=
  fun rest _ => references_quoted s rest

/-- A numeral refers to nothing. -/
theorem refers_number {n : Numeral} {text : String} (h : n.Writes text.toList) : Refers text [] :=
  fun _ hrest => references_number h hrest.toApart

/-- A bare name refers to itself, unless it is reserved. -/
theorem refers_name {name : String} (h : Text.isBareName name.toList = true) :
    Refers name (if name ∈ reserved then [] else [name]) := by
  intro rest hrest
  rw [references_name h hrest.name]
  simp [hrest.call]

/-- A call refers to what its arguments refer to. -/
theorem Refers.call {name text : String} {names : List String} (h : Refers text names)
    (hname : Text.isBareName name.toList = true) : Refers (name ++ "(" ++ text ++ ")") names := by
  intro rest hrest
  have hopen : ∀ c ∈ ('(' :: (text.toList ++ ')' :: rest)).head?, Text.isNameChar c = false := by
    rintro c ⟨⟩
    rfl
  have hclosed := follows_cons (c := ')') (by decide) (by decide) (by decide) rest
  calc references ((name ++ "(" ++ text ++ ")").toList ++ rest)
    _ = references (name.toList ++ '(' :: (text.toList ++ ')' :: rest)) := by simp
    _ = references ('(' :: (text.toList ++ ')' :: rest)) := by
      rw [references_name hname hopen]
      simp
    _ = references (text.toList ++ ')' :: rest) := references_plain (by decide) _
    _ = names ++ references (')' :: rest) := h _ hclosed
    _ = names ++ references rest := by rw [references_plain (by decide)]

/-- Two texts with a comma between them refer to what each refers to. -/
theorem Refers.comma {left right : String} {names more : List String} (hleft : Refers left names)
    (hright : Refers right more) : Refers (left ++ ", " ++ right) (names ++ more) := by
  intro rest hrest
  have hcomma := follows_cons (c := ',') (by decide) (by decide) (by decide)
    (' ' :: (right.toList ++ rest))
  calc references ((left ++ ", " ++ right).toList ++ rest)
    _ = references (left.toList ++ ',' :: ' ' :: (right.toList ++ rest)) := by simp
    _ = names ++ references (',' :: ' ' :: (right.toList ++ rest)) := hleft _ hcomma
    _ = names ++ references (right.toList ++ rest) := by
      rw [references_plain (by decide), references_plain (by decide)]
    _ = names ++ more ++ references rest := by rw [hright rest hrest, List.append_assoc]

/-- A method call refers to what its target refers to, and then to what its arguments do. The method
may stand on a line of its own. -/
theorem Refers.method {target : String} {names more : List String} (htarget : Refers target names)
    (gap : String) (hgap : ∀ c ∈ gap.toList, Text.isSpace c = true) {name text : String}
    (hname : Text.isBareName name.toList = true) (htext : Refers text more) :
    Refers (target ++ gap ++ "." ++ name ++ "(" ++ text ++ ")") (names ++ more) := by
  intro rest hrest
  let call := (name ++ "(" ++ text ++ ")").toList ++ rest
  have hpoint : Follows ('.' :: call) := by
    simpa [call] using follows_method hname ('(' :: (text.toList ++ ')' :: rest))
  calc references ((target ++ gap ++ "." ++ name ++ "(" ++ text ++ ")").toList ++ rest)
    _ = references (target.toList ++ (gap.toList ++ '.' :: call)) := by simp [call]
    _ = names ++ references (gap.toList ++ '.' :: call) := htarget _ (hpoint.spaces hgap)
    _ = names ++ references call := by
      rw [references_spaces hgap, references_plain (by decide)]
    _ = names ++ more ++ references rest := by
      rw [htext.call hname rest hrest, List.append_assoc]

/-- A method call on the line of its target. -/
theorem Refers.chained {target name text : String} {names more : List String}
    (htarget : Refers target names) (hname : Text.isBareName name.toList = true)
    (htext : Refers text more) :
    Refers (target ++ "." ++ name ++ "(" ++ text ++ ")") (names ++ more) := by
  simpa using htarget.method "" (by simp) hname htext

/-- A method call without arguments refers to what its target refers to. -/
theorem Refers.chained_nil {target name : String} {names : List String}
    (htarget : Refers target names) (hname : Text.isBareName name.toList = true) :
    Refers (target ++ "." ++ name ++ "()") names := by
  have hnone : Refers "" [] := fun _ _ => rfl
  simpa [String.append_assoc] using htarget.chained hname hnone

end Script

open Script

/-- A constant refers to nothing. -/
theorem Literal.refers (value : Literal) : Refers value.toScript [] := by
  cases value with
  | text s => exact refers_quoted s
  | integer i => exact refers_number (Numeral.writes_toString i.toInt)
  | float x =>
    cases x with
    | nan => exact refers_name (by decide)
    | infinite negative =>
      cases negative with
      | false => exact refers_name (by decide)
      | true =>
        have hinfinity : Text.isBareName "Infinity".toList = true := by decide
        intro rest hrest
        exact (references_plain (by decide) _).trans (refers_name hinfinity rest hrest)
    | finite negative rank =>
      obtain ⟨n, hn, -, -⟩ := Double.writes_text negative rank
      exact refers_number hn
  | boolean b => cases b <;> exact refers_name (by decide)

namespace Expr

/-- An expression refers to nothing. -/
theorem refers (e : Expr) : Refers e.toScript [] := by
  have hfunctions : Refers "F" [] := refers_name (by decide)
  induction e with
  | column name =>
    have hname : Text.isBareName "c".toList = true := by decide
    simpa [toScript] using (refers_quoted name).call hname
  | literal value =>
    have hname : Text.isBareName "lit".toList = true := by decide
    simpa [toScript] using hfunctions.chained hname value.refers
  | binary left op right ihleft ihright =>
    have hname : Text.isBareName op.method.toList = true := by cases op <;> decide
    exact ihleft.chained hname ihright
  | nullTest operand test ih => exact ih.chained_nil (by cases test <;> decide)
  | range operand test lower upper ih ihlower ihupper =>
    have hname : Text.isBareName test.method.toList = true := by cases test <;> decide
    simpa [toScript, String.append_assoc] using ih.chained hname (ihlower.comma ihupper)
  | cast operand dataType ih =>
    have hname : Text.isBareName "cast".toList = true := by decide
    simpa [toScript, String.append_assoc] using ih.chained hname (refers_quoted dataType)
  | named operand name ih =>
    have hname : Text.isBareName "alias".toList = true := by decide
    simpa [toScript, String.append_assoc] using ih.chained hname (refers_quoted name)
  | sort operand direction ih => exact ih.chained_nil (by cases direction <;> decide)
  | aggregate function operand ih =>
    have hname : Text.isBareName function.function.toList = true := by cases function <;> decide
    simpa [toScript, String.append_assoc] using hfunctions.chained hname ih

/-- Expressions refer to nothing. -/
theorem refers_list (items : List Expr) : Refers (listScript items) [] := by
  rw [listScript]
  induction items with
  | nil => exact fun _ _ => rfl
  | cons first rest ih =>
    cases rest with
    | nil => simpa using first.refers
    | cons next rest =>
      rw [List.map_cons, List.map_cons, String.intercalate_cons_cons]
      exact first.refers.comma ih

end Expr

/-- A step refers to nothing. -/
theorem Step.refers (next : Step) : ∃ text, next.toScript = next.kind.method ++ "(" ++ text ++ ")" ∧
    Refers text [] := by
  refine ⟨_, rfl, ?_⟩
  cases next with
  | select items | groupBy items | agg items | orderBy items | withColumns items =>
    exact Expr.refers_list items
  | distinct subset =>
    cases subset with
    | none => exact fun _ _ => rfl
    | some items => exact Expr.refers_list items
  | filter predicate => exact predicate.refers
  | limit count | offset count => exact refers_number (Numeral.writes_toString count.toNat)

end FluentSql
