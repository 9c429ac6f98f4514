import FluentSql.Proofs.Statement.Lexeme
import FluentSql.Proofs.Statement.Spelling

/-!
# Pieces of SQL

The SQL of a statement is made of pieces, each of which is read as one lexeme: names of columns,
texts of constants, and pieces that do not depend on either. No name and no text reaches beyond its
lexeme, whatever characters it has.
-/

namespace FluentSql

open Lexeme (Lexes lex)

/-! ### Names in upper case -/

namespace Text

/-- A character of a name is one or more of them in upper case, and the first one stays one. -/
theorem mapCase_upper {c : Char} (h : isNameChar c = true) :
    (mapCase upperRuns upperExpansions c).all isNameChar = true ∧
      (isNameStart c = true → isBareName (mapCase upperRuns upperExpansions c) = true) := by
  have hall : ∀ n < 128, isNameChar (Char.ofNat n) = true →
      (mapCase upperRuns upperExpansions (Char.ofNat n)).all isNameChar = true ∧
        (isNameStart (Char.ofNat n) = true →
          isBareName (mapCase upperRuns upperExpansions (Char.ofNat n)) = true) := by
    decide +kernel
  have hc := hall c.toNat (toNat_of_isNameChar h).2
  rw [Char.ofNat_toNat] at hc
  exact hc h

/-- A bare name is a bare name in upper case. -/
theorem isBareName_upper {name : String} (h : isBareName name.toList = true) :
    isBareName (upper name).toList = true := by
  obtain ⟨c, cs, heq, hstart, hall⟩ := exists_of_isBareName h
  have hfirst := (mapCase_upper (isNameChar_of_isNameStart hstart)).2 hstart
  have hrest : (cs.flatMap (mapCase upperRuns upperExpansions)).all isNameChar = true := by
    rw [List.all_flatMap, List.all_eq_true]
    intro d hd
    exact (mapCase_upper (hall d hd)).1
  rw [upper, String.toList_ofList, heq, List.flatMap_cons]
  obtain ⟨d, ds, hmap, hd, hds⟩ := exists_of_isBareName hfirst
  rw [hmap, List.cons_append, isBareName, hd, List.all_append, hrest, List.all_eq_true.mpr hds]
  rfl

end Text

/-! ### Pieces -/

/-- A piece of the SQL of a statement. -/
inductive Piece
  /-- A piece that no name of a column, no alias and no text of a constant has a part in. -/
  | fixed (t : Lexeme)
  /-- The name of a column, or an alias. -/
  | name (name : String)
  /-- The text of a constant. -/
  | text (value : String)
deriving DecidableEq

namespace Piece

/-- The lexeme that a piece is. The name `*` is the star, every other name is a word or stands
between quotes, and a text stands between quotes. -/
def lexeme : Piece → Lexeme
  | fixed t => t
  | name n =>
    if n = "*" then .mark '*' else if Text.isBareName n.toList then .word n else .quoted n
  | text s => .string s

/-- Words one after the other. -/
def words (ws : List String) : List Piece :=
  ws.map fun w => fixed (.word w)

/-- The pieces of a number with perhaps a sign. -/
def number (text : String) : List Piece :=
  match Numeral.scan text.toList with
  | some (n, _) =>
    (if n.negative then [fixed (.mark '-')] else []) ++
      [fixed (.number { n with negative := false })]
  | none => []

end Piece

/-- The pieces of a constant. -/
def Literal.pieces : Literal → List Piece
  | text s => [.text s]
  | integer i => Piece.number (toString i.toInt)
  | float (.finite negative rank) => Piece.number (Double.finite negative rank).text
  | float x =>
    [.fixed (.string x.text), .fixed (.mark ':'), .fixed (.mark ':'), .fixed (.word "DOUBLE")]
  | boolean true => Piece.words ["true"]
  | boolean false => Piece.words ["false"]

/-- The pieces of an operator. -/
def BinaryOp.pieces : BinaryOp → List Piece
  | eq => [.fixed (.mark '=')]
  | neq => [.fixed (.mark '<'), .fixed (.mark '>')]
  | gt => [.fixed (.mark '>')]
  | lt => [.fixed (.mark '<')]
  | gte => [.fixed (.mark '>'), .fixed (.mark '=')]
  | lte => [.fixed (.mark '<'), .fixed (.mark '=')]
  | and => Piece.words ["AND"]
  | or => Piece.words ["OR"]
  | plus => [.fixed (.mark '+')]
  | isDistinctFrom => Piece.words ["IS", "DISTINCT", "FROM"]
  | isNotDistinctFrom => Piece.words ["IS", "NOT", "DISTINCT", "FROM"]

/-- The pieces of a test for a missing value. -/
def NullTest.pieces : NullTest → List Piece
  | isNull => Piece.words ["IS", "NULL"]
  | isNotNull => Piece.words ["IS", "NOT", "NULL"]

/-- The pieces of a test against bounds. -/
def RangeTest.pieces : RangeTest → List Piece
  | between => Piece.words ["BETWEEN"]
  | notBetween => Piece.words ["NOT", "BETWEEN"]

/-- The pieces between parentheses. -/
def Piece.parenthesized (ps : List Piece) : List Piece :=
  fixed (.mark '(') :: (ps ++ [fixed (.mark ')')])

/-- The pieces of an expression. -/
def Expr.pieces : Expr → List Piece
  | column name => [.name name]
  | literal value => value.pieces
  | binary left op right => Piece.parenthesized (left.pieces ++ (op.pieces ++ right.pieces))
  | nullTest operand test => Piece.parenthesized (operand.pieces ++ test.pieces)
  | range operand test lower upper =>
    Piece.parenthesized
      (operand.pieces ++ (test.pieces ++ (lower.pieces ++ (Piece.words ["AND"] ++ upper.pieces))))
  | cast operand dataType =>
    Piece.words ["TRY_CAST"] ++
      Piece.parenthesized
        (operand.pieces ++ (Piece.words ["AS"] ++ Piece.words [Text.upper dataType]))
  | named operand name => operand.pieces ++ (Piece.words ["AS"] ++ [.name name])
  | sort operand direction => operand.pieces ++ Piece.words [direction.sql]
  | aggregate function operand =>
    Piece.words [function.sql] ++ Piece.parenthesized operand.pieces

/-- The pieces of a token. -/
def Token.pieces : Token → List Piece
  | keyword word => if word = "*" then [.fixed (.mark '*')] else Piece.words [word]
  | expr e => e.pieces
  | table name | label name => Piece.words [name]
  | number count => Piece.number (toString (count.toNat : Int))
  | comma => [.fixed (.mark ',')]
  | opening => [.fixed (.mark '(')]
  | closing => [.fixed (.mark ')')]

/-- The pieces of a statement. -/
def Statement.pieces (s : Statement) : List Piece :=
  s.tokens.flatMap Token.pieces

/-! ### What is written as it stands -/

/-- The types of conversions are bare names. -/
def Expr.CastsBare : Expr → Prop
  | column _ | literal _ => True
  | binary left _ right => left.CastsBare ∧ right.CastsBare
  | nullTest operand _ | named operand _ | sort operand _ | aggregate _ operand => operand.CastsBare
  | range operand _ lower upper => operand.CastsBare ∧ lower.CastsBare ∧ upper.CastsBare
  | cast operand dataType => operand.CastsBare ∧ Text.isBareName dataType.toList = true

/-- What the token has that is written as it stands is a bare name, or the star for all columns. -/
def Token.Bare : Token → Prop
  | keyword word => word = "*" ∨ Text.isBareName word.toList = true
  | expr e => e.CastsBare
  | table name | label name => Text.isBareName name.toList = true
  | _ => True

/-! ### Pieces are read -/

/-- The text is read as the lexemes of the pieces. -/
def Piece.AreRead (ps : List Piece) (text : String) : Prop :=
  Lexes text.toList (ps.map lexeme)

namespace Piece

/-- A name is read as one lexeme. -/
theorem areRead_name (n : String) : AreRead [name n] (Text.sqlName n) := by
  unfold AreRead Text.sqlName
  simp only [List.map_cons, List.map_nil, lexeme]
  by_cases hstar : n = "*"
  · subst hstar
    exact .mark_cons rfl (fun _ => rfl) .nil
  by_cases hbare : Text.isBareName n.toList = true
  · simpa [hstar, hbare] using Lexes.word hbare
  · simpa [hstar, hbare] using Lexes.quoted n

/-- A text is read as one lexeme. -/
theorem areRead_text (s : String) : AreRead [text s] (Text.enclosed '\'' s) :=
  Lexes.string s

/-- Bare names with spaces between them are read as words. -/
theorem areRead_words {w : String} {ws : List String}
    (h : ∀ v ∈ w :: ws, Text.isBareName v.toList = true) :
    AreRead (words (w :: ws)) (" ".intercalate (w :: ws)) := by
  induction ws generalizing w with
  | nil => simpa [AreRead, words, lexeme] using Lexes.word (h w List.mem_cons_self)
  | cons v ws ih =>
    have hfirst := Lexes.word (h w List.mem_cons_self)
    have hrest := ih fun u hu => h u (List.mem_cons_of_mem w hu)
    rw [String.intercalate_cons_cons]
    simpa [AreRead, words, lexeme] using hfirst.spaced hrest

/-- A numeral is read as a number, behind its sign. -/
theorem areRead_number {n : Numeral} {text : String} (h : n.Writes text.toList) :
    AreRead (number text) text := by
  have hscan := Numeral.scan_append h Lexeme.boundary_nil.apart
  rw [List.append_nil] at hscan
  unfold AreRead number
  simp only [hscan]
  generalize text.toList = cs at h
  cases h with
  | @mk negative whole fraction fractionText exponentText exponent hwhole hfraction hexponent =>
    have hunsigned : Numeral.Writes ⟨false, whole, fraction, exponent⟩
        (whole ++ fractionText ++ exponentText) := .mk hwhole hfraction hexponent
    have hnumber := Lexes.number hunsigned rfl
    cases negative with
    | false => simpa [lexeme] using hnumber
    | true =>
      obtain ⟨c, digits, rfl⟩ := List.exists_cons_of_ne_nil hwhole.1
      have hminus : c ≠ '-' := by
        rintro rfl
        cases hwhole.2 '-' List.mem_cons_self
      have hsigned := hnumber.mark_cons (c := '-') rfl (by simp [Lexeme.startsComment, hminus])
      simpa [lexeme] using hsigned

/-- Texts with a space between them. -/
theorem AreRead.spaced {ps qs : List Piece} {x y : String} (hx : AreRead ps x) (hy : AreRead qs y) :
    AreRead (ps ++ qs) (x ++ " " ++ y) := by
  have h := Lexes.spaced hx hy
  simpa [AreRead] using h

/-- Texts with a word between them. -/
theorem AreRead.joined {ps qs : List Piece} {x y w : String} (hx : AreRead ps x)
    (hword : Text.isBareName w.toList = true) (hy : AreRead qs y) :
    AreRead (ps ++ (words [w] ++ qs)) (x ++ (" " ++ w ++ " ") ++ y) := by
  have h := Lexes.spaced hx ((Lexes.word hword).spaced hy)
  simpa [AreRead, words, lexeme] using h

/-- A text between parentheses. -/
theorem AreRead.parenthesized {ps : List Piece} {x : String} (h : AreRead ps x) :
    AreRead (Piece.parenthesized ps) ("(" ++ x ++ ")") := by
  have hlexes := Lexes.parenthesized h
  simpa [AreRead, Piece.parenthesized, lexeme] using hlexes

/-- A word in front of a text between parentheses. -/
theorem AreRead.call {ps : List Piece} {x w : String} (h : AreRead ps x)
    (hword : Text.isBareName w.toList = true) :
    AreRead (words [w] ++ Piece.parenthesized ps) (w ++ "(" ++ x ++ ")") := by
  have hlexes := (Lexes.word hword).append rfl (Lexes.parenthesized h)
  simpa [AreRead, words, Piece.parenthesized, lexeme] using hlexes

end Piece

/-- A constant is read as its pieces. -/
theorem Literal.areRead (value : Literal) : Piece.AreRead value.pieces value.toSql := by
  cases value with
  | text s => exact Piece.areRead_text s
  | integer i => exact Piece.areRead_number (Numeral.writes_toString i.toInt)
  | float x =>
    have hword : Lexes "DOUBLE".toList [.word "DOUBLE"] := .word (by decide)
    have htype : Lexes "::DOUBLE".toList [.mark ':', .mark ':', .word "DOUBLE"] :=
      .mark_cons rfl (fun _ => rfl) (.mark_cons rfl (fun _ => rfl) hword)
    have hspecial (s : String) (hs : Text.doubled '\'' s.toList = s.toList) : Piece.AreRead
        [.fixed (.string s), .fixed (.mark ':'), .fixed (.mark ':'), .fixed (.word "DOUBLE")]
        ("'" ++ s ++ "'::DOUBLE") := by
      have htext : ("'" ++ s ++ "'::DOUBLE").toList =
          (Text.enclosed '\'' s).toList ++ "::DOUBLE".toList := by
        simp [Text.enclosed, hs]
      intro rest hrest
      rw [htext, List.append_assoc, Lexeme.lex_enclosed (.inl ⟨rfl, rfl⟩) s (by simp),
        htype rest hrest, Lexes.map_cons]
      rfl
    cases x with
    | nan => exact hspecial "NaN" (by decide)
    | infinite negative =>
      cases negative with
      | false => exact hspecial "Infinity" (by decide)
      | true => exact hspecial "-Infinity" (by decide)
    | finite negative rank =>
      obtain ⟨n, hn, -, -⟩ := Double.writes_text negative rank
      exact Piece.areRead_number hn
  | boolean b => cases b <;> exact Piece.areRead_words (by decide)

/-- An operator is read as its pieces. -/
theorem BinaryOp.areRead (op : BinaryOp) : Piece.AreRead op.pieces op.sql := by
  have hequal : Lexes ['='] [.mark '='] := .mark_cons rfl (fun _ => rfl) .nil
  have hgreater : Lexes ['>'] [.mark '>'] := .mark_cons rfl (fun _ => rfl) .nil
  cases op with
  | eq => exact hequal
  | gt => exact hgreater
  | lt | plus => exact .mark_cons rfl (fun _ => rfl) .nil
  | neq => exact .mark_cons rfl (fun _ => rfl) hgreater
  | gte | lte => exact .mark_cons rfl (fun _ => rfl) hequal
  | _ => exact Piece.areRead_words (by decide)

/-- A test for a missing value is read as its pieces. -/
theorem NullTest.areRead (test : NullTest) : Piece.AreRead test.pieces test.sql := by
  cases test <;> exact Piece.areRead_words (by decide)

/-- A test against bounds is read as its pieces. -/
theorem RangeTest.areRead (test : RangeTest) : Piece.AreRead test.pieces test.sql := by
  cases test <;> exact Piece.areRead_words (by decide)

/-- An expression is read as its pieces, if the types of its conversions are bare names. -/
theorem Expr.areRead (e : Expr) (h : e.CastsBare) : Piece.AreRead e.pieces e.toSql := by
  have hword {w : String} (hw : Text.isBareName w.toList = true) :
      Piece.AreRead (Piece.words [w]) w := Piece.areRead_words (by simpa using hw)
  induction e with
  | column name => exact Piece.areRead_name name
  | literal value => exact value.areRead
  | binary left op right ihleft ihright =>
    have hinner := (ihleft h.1).spaced (op.areRead.spaced (ihright h.2))
    simpa [toSql, pieces, String.append_assoc] using hinner.parenthesized
  | nullTest operand test ih =>
    have hinner := (ih h).spaced test.areRead
    simpa [toSql, pieces, String.append_assoc] using hinner.parenthesized
  | range operand test lower upper ih ihlower ihupper =>
    have hand : Text.isBareName "AND".toList = true := by decide
    have hbounds := (ihlower h.2.1).joined hand (ihupper h.2.2)
    have hinner := (ih h.1).spaced (test.areRead.spaced hbounds)
    simpa [toSql, pieces, String.append_assoc] using hinner.parenthesized
  | cast operand dataType ih =>
    have htype := hword (Text.isBareName_upper h.2)
    have hinner := (ih h.1).joined (by decide : Text.isBareName "AS".toList = true) htype
    have hcall := hinner.call (by decide : Text.isBareName "TRY_CAST".toList = true)
    simpa [toSql, pieces, String.append_assoc] using hcall
  | named operand name ih =>
    have has : Text.isBareName "AS".toList = true := by decide
    simpa [toSql, pieces] using (ih h).joined has (Piece.areRead_name name)
  | sort operand direction ih =>
    have hdirection : Text.isBareName direction.sql.toList = true := by cases direction <;> decide
    simpa [toSql, pieces] using (ih h).spaced (hword hdirection)
  | aggregate function operand ih =>
    have hfunction : Text.isBareName function.sql.toList = true := by cases function <;> decide
    simpa [toSql, pieces] using (ih h).call hfunction

/-- A token is read as its pieces. -/
theorem Token.areRead (t : Token) (h : t.Bare) : Piece.AreRead t.pieces t.text := by
  have hword {w : String} (hw : Text.isBareName w.toList = true) :
      Piece.AreRead (Piece.words [w]) w := Piece.areRead_words (by simpa using hw)
  cases t with
  | keyword word =>
    rw [pieces]
    split
    · next hstar =>
      subst hstar
      exact .mark_cons rfl (fun _ => rfl) .nil
    · next hstar => exact hword (h.resolve_left hstar)
  | expr e => exact e.areRead h
  | table name | label name => exact hword h
  | number count => exact Piece.areRead_number (Numeral.writes_toString count.toNat)
  | comma | opening | closing => exact .mark_cons rfl (fun _ => rfl) .nil

/-! ### Statements are read -/

namespace Spells

variable {before after : Bool} {ts : List Token} {x : String} {rest : List Char}

/-- Where a word may stand in front, a boundary stands. -/
theorem boundary (h : Spells before ts after x) (hbefore : before = true)
    (hrest : after = true → Lexeme.Boundary rest) : Lexeme.Boundary (x.toList ++ rest) := by
  cases h with
  | nil hafter => exact hrest (hafter hbefore)
  | @blank _ _ c _ _ hblank =>
    rw [String.toList_append, String.toList_singleton]
    exact Lexeme.boundary_cons (by simp [Lexeme.isBoundary, hblank]) _
  | @token _ _ t _ _ hapart =>
    rw [String.toList_append, List.append_assoc]
    cases t with
    | comma | opening | closing => exact Lexeme.boundary_cons rfl _
    | _ => cases hapart hbefore

/-- A text that spells tokens is read as their pieces. -/
theorem lex_eq (h : Spells before ts after x) (hbare : ∀ t ∈ ts, t.Bare)
    (hrest : after = true → Lexeme.Boundary rest) :
    lex (x.toList ++ rest) =
      (lex rest).map ((ts.flatMap Token.pieces).map Piece.lexeme ++ ·) := by
  induction h with
  | nil => simp
  | blank hblank _ ih =>
    rw [String.toList_append, String.toList_singleton, List.append_assoc]
    exact (Lexeme.lex_blank hblank _).trans (ih hbare hrest)
  | @token _ _ t ts text hapart h ih =>
    have ht := t.areRead (hbare t List.mem_cons_self)
    have hmore := ih (fun u hu => hbare u (List.mem_cons_of_mem t hu)) hrest
    have hfirst : lex (t.text.toList ++ (text.toList ++ rest)) =
        (lex (text.toList ++ rest)).map (t.pieces.map Piece.lexeme ++ ·) := by
      -- A mark is read whatever follows it; any other token needs a boundary behind it.
      cases hword : t.isWord with
      | true => exact ht _ (h.boundary hword hrest)
      | false =>
        cases t with
        | comma | opening | closing => exact Lexeme.lex_mark rfl rfl
        | _ => cases hword
    rw [String.toList_append, List.append_assoc, hfirst, hmore, Option.map_map]
    congr 1
    funext vs
    simp

end Spells

/-- Both forms of a statement are read as its pieces, if what is written as it stands is bare
names. -/
theorem Statement.lex_forms (s : Statement) (h : ∀ t ∈ s.tokens, t.Bare) (indent : Nat) :
    lex s.compact.toList = some (s.pieces.map Piece.lexeme) ∧
      lex (s.pretty indent).toList = some (s.pieces.map Piece.lexeme) := by
  have hform {sql : String} (hspells : Spells false s.tokens true sql) :
      lex sql.toList = some (s.pieces.map Piece.lexeme) := by
    have hread (rest : List Char) (hrest : Lexeme.Boundary rest) :=
      hspells.lex_eq h fun _ => hrest
    exact Lexes.lex_eq hread
  obtain ⟨hcompact, hpretty⟩ := s.spells_tokens indent
  exact ⟨hform hcompact, hform hpretty⟩

end FluentSql
