import FluentSql.Proofs.Query.Outline
import FluentSql.Proofs.Query.Pruned

/-!
# Names and texts stay in their lexemes

A query whose table names and types of conversions are bare names is SQL of which every lexeme is
known: each name of a column, each alias and each text of a constant is one lexeme, with the very
characters that were given. So queries with the same outline are SQL with the same lexemes, but for
those names and texts.
-/

namespace FluentSql

open Lexeme (lex)

/-! ### Queries of bare names -/

/-- The expressions of a step. -/
def Step.exprs : Step → List Expr
  | select columns | groupBy columns | agg columns | orderBy columns | withColumns columns =>
    columns
  | distinct subset => subset.getD []
  | filter predicate => [predicate]
  | limit _ | offset _ => []

/-- The tables of the query, at any depth, and the types of its conversions have bare names. -/
def Query.Bare : Query → Prop
  | sourceless => True
  | table name => Text.isBareName name.toList = true
  | subquery inner => inner.Bare
  | step prior next => prior.Bare ∧ ∀ e ∈ next.exprs, e.CastsBare
  | join prior other on _ => prior.Bare ∧ other.Bare ∧ on.CastsBare

/-- The types of the conversions in the clauses are bare names. -/
structure Clauses.Bare (c : Clauses) : Prop where
  /-- Those that decide on the rows left out. -/
  distinct : ∀ subset, c.distinct = some (.on subset) → ∀ e ∈ subset, e.CastsBare
  /-- Those that are projected as they are. -/
  items : ∀ columns, c.projection = .items columns → ∀ e ∈ columns, e.CastsBare
  /-- Those that overwrite columns. -/
  replace : ∀ columns, c.projection = .replace columns → ∀ e ∈ columns, e.CastsBare
  /-- Those in predicates. -/
  filters : ∀ e ∈ c.filters, e.CastsBare
  /-- Those that rows are grouped by. -/
  groupBy : ∀ e ∈ c.groupBy, e.CastsBare
  /-- Those in sort keys. -/
  orderBy : ∀ e ∈ c.orderBy, e.CastsBare

namespace Query

/-- The types of conversions in a step of the last segment are bare names. -/
theorem Bare.of_step {q : Query} (h : q.Bare) {next : Step} (hmem : .step next ∈ q.operations) :
    ∀ e ∈ next.exprs, e.CastsBare := by
  induction q with
  | sourceless | table | subquery => cases hmem
  | step prior last ih =>
    simp only [operations, List.mem_append, List.mem_singleton, Operation.step.injEq] at hmem
    rcases hmem with hmem | rfl
    · exact ih h.1 hmem
    · exact h.2
  | join prior other on kind ih =>
    simp only [operations, List.mem_append, List.mem_singleton, reduceCtorEq, or_false] at hmem
    exact ih h.1 hmem

/-- Columns that a search among the operations finds are those of a step. -/
theorem Bare.of_findSome? {q : Query} (h : q.Bare) {operations : List Operation}
    (hsubset : operations ⊆ q.operations) {pick : Operation → Option (List Expr)}
    (hpick : ∀ op columns, pick op = some columns → ∃ next, op = .step next ∧ next.exprs = columns)
    {columns : List Expr} (hfind : operations.findSome? pick = some columns) :
    ∀ e ∈ columns, e.CastsBare := by
  obtain ⟨op, hmem, hop⟩ := List.exists_of_findSome?_eq_some hfind
  obtain ⟨next, rfl, rfl⟩ := hpick op columns hop
  exact h.of_step (hsubset hmem)

/-- The same of columns that may be missing. -/
theorem Bare.of_getD {columns : Option (List Expr)}
    (h : ∀ found, columns = some found → ∀ e ∈ found, Expr.CastsBare e) :
    ∀ e ∈ columns.getD [], e.CastsBare := by
  cases columns with
  | none => nofun
  | some found => exact h found rfl

/-- The types of conversions in the grouping are bare names. -/
theorem Bare.groupClause {q : Query} (h : q.Bare) : ∀ e ∈ q.groupClause, e.CastsBare := by
  refine Bare.of_getD fun columns hfind => h.of_findSome? (List.Subset.refl _) ?_ hfind
  rintro ((_ | _ | _ | _ | _ | _ | _ | _ | _) | _) columns hpick <;> cases hpick
  exact ⟨_, rfl, rfl⟩

/-- The types of conversions in the sort keys are bare names. -/
theorem Bare.orderClause {q : Query} (h : q.Bare) : ∀ e ∈ q.orderClause, e.CastsBare := by
  have hsubset : q.operations.reverse ⊆ q.operations := fun op => List.mem_reverse.mp
  refine Bare.of_getD fun columns hfind => h.of_findSome? hsubset ?_ hfind
  rintro ((_ | _ | _ | _ | _ | _ | _ | _ | _) | _) columns hpick <;> cases hpick
  exact ⟨_, rfl, rfl⟩

/-- The types of conversions in aggregates and in overwritten columns are bare names. -/
theorem Bare.computed {q : Query} (h : q.Bare) {columns : List Expr}
    (hcolumns : q.aggregations = some columns ∨ q.overwrites = some columns) :
    ∀ e ∈ columns, e.CastsBare := by
  rcases hcolumns with hfind | hfind
  all_goals
    refine h.of_findSome? (List.Subset.refl _) ?_ hfind
    rintro ((_ | _ | _ | _ | _ | _ | _ | _ | _) | _) columns hpick <;> cases hpick
    exact ⟨_, rfl, rfl⟩

/-- The types of conversions in the projection in effect are bare names. -/
theorem Bare.projectedColumns {q : Query} (h : q.Bare) {columns : List Expr}
    (hcolumns : q.projectedColumns = some columns) : ∀ e ∈ columns, e.CastsBare := by
  obtain ⟨⟨index, _⟩, hprojection, rfl⟩ := Option.map_eq_some_iff.mp hcolumns
  exact h.of_step (List.mem_of_getElem? (getElem?_of_projection hprojection))

/-- The types of conversions in the clauses of the statement are bare names. -/
theorem Bare.clauses {q : Query} (h : q.Bare) (nested : Bool) : (q.clauses nested).Bare where
  distinct subset hdistinct := by
    obtain ⟨op, hmem, hop⟩ := List.exists_of_findSome?_eq_some hdistinct
    rcases op with (_ | (_ | subset) | _ | _ | _ | _ | _ | _ | _) | _ <;> cases hop
    exact h.of_step hmem
  items columns hitems := by
    change q.projectionClause = _ at hitems
    unfold projectionClause at hitems
    split at hitems
    · next items _ _ hagg =>
      obtain rfl := Projection.items.inj hitems
      exact List.forall_mem_append.mpr ⟨h.groupClause, h.computed (.inl hagg)⟩
    · cases hitems
    · next projected _ _ hproj =>
      obtain rfl := Projection.items.inj hitems
      exact h.projectedColumns hproj
    · cases hitems
  replace columns hreplace := by
    change q.projectionClause = _ at hreplace
    unfold projectionClause at hreplace
    split at hreplace
    · cases hreplace
    · next overwritten _ _ hover =>
      obtain rfl := Projection.replace.inj hreplace
      exact fun e he => h.computed (.inr hover) e (List.mem_of_mem_filter he)
    · cases hreplace
    · cases hreplace
  filters e he := by
    obtain ⟨op, hmem, hop⟩ := List.mem_filterMap.mp he
    rcases op with (_ | _ | predicate | _ | _ | _ | _ | _ | _) | _ <;> cases hop
    exact h.of_step hmem e List.mem_cons_self
  groupBy := h.groupClause
  orderBy := by
    cases nested with
    | true => nofun
    | false => exact h.orderClause

end Query

/-! ### Tokens of bare names -/

/-- Listed expressions are such tokens, if what is between them is. -/
theorem Token.bare_separated {separator : List Token} (hseparator : ∀ t ∈ separator, t.Bare)
    {items : List Expr} (h : ∀ e ∈ items, e.CastsBare) :
    ∀ t ∈ separated separator items, t.Bare :=
  forall_mem_separated hseparator h

/-- A keyword is such a token. -/
theorem Token.bare_keyword {word : String} (h : Text.isBareName word.toList = true) :
    (keyword word).Bare :=
  .inr h

namespace Clauses

/-- The tokens of a clause that lists expressions are such tokens. -/
theorem bare_listTokens {keywords separator : List Token} (hkeywords : ∀ t ∈ keywords, t.Bare)
    (hseparator : ∀ t ∈ separator, t.Bare) {items : List Expr} (h : ∀ e ∈ items, e.CastsBare) :
    ∀ t ∈ listTokens keywords separator items, t.Bare := by
  unfold listTokens
  split
  · nofun
  · exact List.forall_mem_append.mpr ⟨hkeywords, Token.bare_separated hseparator h⟩

/-- The tokens of a clause with a number are such tokens. -/
theorem bare_countTokens {keyword : String} (h : Text.isBareName keyword.toList = true)
    (count : Option UInt64) : ∀ t ∈ countTokens keyword count, t.Bare := by
  cases count with
  | none => nofun
  | some n => simpa [countTokens, Token.Bare] using .inr h

/-- The tokens of the `SELECT` clause are such tokens. -/
theorem Bare.selectTokens {c : Clauses} (h : c.Bare) : ∀ t ∈ c.selectTokens, t.Bare := by
  have hcomma : ∀ t ∈ [Token.comma], t.Bare := by simp [Token.Bare]
  have hdistinct : ∀ t ∈ c.distinct.elim [] Distinct.tokens, t.Bare := by
    cases hd : c.distinct with
    | none => nofun
    | some d =>
      cases d with
      | all => simpa [Distinct.tokens] using Token.bare_keyword (by decide)
      | on subset =>
        have hsubset := Token.bare_separated hcomma (h.distinct subset hd)
        intro t ht
        simp only [Option.elim_some, Distinct.tokens, List.mem_cons, List.mem_append,
          List.not_mem_nil, or_false] at ht
        rcases ht with (rfl | rfl | rfl | ht) | rfl
        · exact Token.bare_keyword (by decide)
        · exact Token.bare_keyword (by decide)
        · trivial
        · exact hsubset t ht
        · trivial
  have hitems : ∀ t ∈ [Token.comma].intercalate c.projection.itemTokens, t.Bare := by
    cases hp : c.projection with
    | wildcard => simpa [Projection.itemTokens] using .inl rfl
    | items columns => exact Token.bare_separated hcomma (h.items columns hp)
    | replace columns =>
      cases columns with
      | nil => simpa [Projection.itemTokens] using .inl rfl
      | cons e es =>
        have hcolumns := Token.bare_separated hcomma (h.replace (e :: es) hp)
        intro t ht
        simp only [Projection.itemTokens, List.intercalate_singleton, List.mem_cons,
          List.mem_append, List.not_mem_nil, or_false] at ht
        rcases ht with (rfl | rfl | rfl | ht) | rfl
        · exact .inl rfl
        · exact Token.bare_keyword (by decide)
        · trivial
        · exact hcolumns t ht
        · trivial
  unfold Clauses.selectTokens
  exact List.forall_mem_append.mpr
    ⟨List.forall_mem_cons.mpr ⟨Token.bare_keyword (by decide), hdistinct⟩, hitems⟩

/-- The tokens of the clauses that follow the tables are such tokens. -/
theorem Bare.tailTokens {c : Clauses} (h : c.Bare) : ∀ t ∈ c.tailTokens, t.Bare := by
  have hkeyword {word : String} (hword : Text.isBareName word.toList = true) :
      ∀ t ∈ [Token.keyword word], t.Bare := by
    simpa using Token.bare_keyword hword
  have hby {word : String} (hword : Text.isBareName word.toList = true) :
      ∀ t ∈ [Token.keyword word, .keyword "BY"], t.Bare :=
    List.forall_mem_cons.mpr ⟨Token.bare_keyword hword, hkeyword (by decide)⟩
  have hcomma : ∀ t ∈ [Token.comma], t.Bare := by simp [Token.Bare]
  unfold Clauses.tailTokens
  simp only [List.forall_mem_append]
  refine ⟨⟨⟨⟨?_, ?_⟩, ?_⟩, ?_⟩, ?_⟩
  · exact bare_listTokens (hkeyword (by decide)) (hkeyword (by decide)) h.filters
  · exact bare_listTokens (hby (by decide)) hcomma h.groupBy
  · exact bare_listTokens (hby (by decide)) hcomma h.orderBy
  · exact bare_countTokens (by decide) c.limit
  · exact bare_countTokens (by decide) c.offset

/-- The tokens of all clauses are such tokens, if those of the tables are. -/
theorem Bare.tokens {c : Clauses} (h : c.Bare) {tables : List Token}
    (htables : ∀ t ∈ tables, t.Bare) : ∀ t ∈ c.tokens tables, t.Bare := by
  unfold Clauses.tokens
  simp only [List.forall_mem_append]
  exact ⟨⟨h.selectTokens, htables⟩, h.tailTokens⟩

end Clauses

/-- An alias of a nested statement is a bare name. -/
theorem isBareName_subqueryAlias (index : Nat) :
    Text.isBareName (subqueryAlias index).toList = true := by
  have hdigits := (Numeral.isDigits_toDigits index).2
  have hlist : (subqueryAlias index).toList = 't' :: Nat.toDigits 10 index := by
    simp [subqueryAlias, Nat.toString_eq_repr, Nat.toList_repr]
  rw [hlist, Text.isBareName, Bool.and_eq_true, List.all_eq_true]
  exact ⟨by decide, fun c hc => Numeral.isNameChar_of_isDigit (hdigits c hc)⟩

namespace Query

/-- The tokens of a reference to a nested query are such tokens, if those of its tables are. -/
theorem Bare.tokens_reference {q : Query} (h : q.Bare)
    (htables : ∀ next, ∀ t ∈ (q.tables next).1.tokens, t.Bare) (next : Nat) :
    ∀ t ∈ (q.reference q.tables next).1.tokens, t.Bare := by
  unfold reference
  cases hname : q.tableName? with
  | some name =>
    obtain rfl := eq_table_of_tableName? hname
    have hname : (Token.table name).Bare := h
    simpa [TableRef.tokens] using hname
  | none =>
    have hinner := (h.clauses true).tokens (htables (next + 1))
    have hlabel : (Token.label (subqueryAlias next)).Bare := isBareName_subqueryAlias next
    intro t ht
    simp only [TableRef.tokens, List.mem_append, List.mem_cons, List.not_mem_nil, or_false] at ht
    rcases ht with (rfl | ht) | rfl | rfl | rfl
    · trivial
    · exact hinner t ht
    · trivial
    · exact Token.bare_keyword (by decide)
    · exact hlabel

/-- The tokens of the tables of a statement are such tokens. -/
theorem Bare.tokens_tables {q : Query} (h : q.Bare) (next : Nat) :
    ∀ t ∈ (q.tables next).1.tokens, t.Bare := by
  induction q generalizing next with
  | sourceless => nofun
  | table name =>
    have hname : (Token.table name).Bare := h
    have hfrom : (Token.keyword "FROM").Bare := Token.bare_keyword (by decide)
    simpa [tables, Tables.tokens, TableRef.tokens] using ⟨hfrom, hname⟩
  | subquery inner ih =>
    have hinner : inner.Bare := h
    exact List.forall_mem_cons.mpr
      ⟨Token.bare_keyword (by decide), hinner.tokens_reference (ih hinner) next⟩
  | step prior last ih => exact ih h.1 next
  | join prior other on kind ih ihother =>
    obtain ⟨hprior, hother, hon⟩ := h
    have hkind : Text.isBareName kind.sql.toList = true := by cases kind <;> decide
    have hcondition : (Token.expr on).Bare := hon
    have hleft := ih hprior next
    have hright := hother.tokens_reference (ihother hother) (prior.tables next).2
    intro t ht
    simp only [tables, Tables.tokens, List.mem_append, List.mem_cons, List.not_mem_nil,
      or_false] at ht
    rcases ht with (ht | rfl | rfl | ht) | rfl | rfl
    · exact hleft t ht
    · exact Token.bare_keyword hkind
    · exact Token.bare_keyword (by decide)
    · exact hright t ht
    · exact Token.bare_keyword (by decide)
    · exact hcondition

/-- The tokens of the statement of a query are such tokens. -/
theorem Bare.tokens_statement {q : Query} (h : q.Bare) : ∀ t ∈ q.statement.tokens, t.Bare :=
  (h.clauses false).tokens (h.tokens_tables 0)

end Query

/-! ### Names and texts among the pieces -/

/-- The piece is a name of a column, an alias or a text of a constant. -/
def Piece.isPayload : Piece → Bool
  | fixed _ => false
  | name _ | text _ => true

/-- The names of columns, the aliases and the texts of constants in an expression, in the order in
which they are written. -/
def Expr.payloads : Expr → List Piece
  | column name => [.name name]
  | literal (.text s) => [.text s]
  | literal _ => []
  | binary left _ right => left.payloads ++ right.payloads
  | range operand _ lower upper => operand.payloads ++ (lower.payloads ++ upper.payloads)
  | named operand name => operand.payloads ++ [.name name]
  | nullTest operand _ | cast operand _ | sort operand _ | aggregate _ operand => operand.payloads

/-- The names of columns, the aliases and the texts of constants in a statement, in the order in
which they are written. -/
def Statement.payloads (s : Statement) : List Piece :=
  s.tokens.flatMap fun
    | .expr e => e.payloads
    | _ => []

/-- Words are no names of columns. -/
theorem Piece.filter_words (ws : List String) : (words ws).filter isPayload = [] := by
  induction ws with
  | nil => rfl
  | cons w ws ih => exact ih

/-- Numbers are no names of columns and no texts. -/
theorem Piece.filter_number (s : String) : (number s).filter isPayload = [] := by
  unfold number
  split
  · next n _ _ => cases n.negative <;> rfl
  · rfl

/-- Among the pieces of an expression are its names and texts, each of them once and in order. -/
theorem Expr.filter_pieces (e : Expr) : e.pieces.filter Piece.isPayload = e.payloads := by
  have hparenthesized (ps : List Piece) :
      (Piece.parenthesized ps).filter Piece.isPayload = ps.filter Piece.isPayload := by
    simp [Piece.parenthesized, Piece.isPayload]
  induction e with
  | column name => rfl
  | literal value =>
    cases value with
    | text s => rfl
    | integer i => exact Piece.filter_number _
    | float x =>
      cases x with
      | finite negative rank => exact Piece.filter_number _
      | _ => rfl
    | boolean b => cases b <;> rfl
  | binary left op right ihleft ihright =>
    have hop : op.pieces.filter Piece.isPayload = [] := by cases op <;> rfl
    simp [pieces, payloads, hparenthesized, hop, ihleft, ihright]
  | nullTest operand test ih =>
    have htest : test.pieces.filter Piece.isPayload = [] := by cases test <;> rfl
    simp [pieces, payloads, hparenthesized, htest, ih]
  | range operand test lower upper ih ihlower ihupper =>
    have htest : test.pieces.filter Piece.isPayload = [] := by cases test <;> rfl
    simp [pieces, payloads, hparenthesized, htest, Piece.filter_words, ih, ihlower, ihupper]
  | cast operand dataType ih => simp [pieces, payloads, hparenthesized, Piece.filter_words, ih]
  | named operand name ih =>
    simp [pieces, payloads, Piece.filter_words, ih, Piece.isPayload]
  | sort operand direction ih => simp [pieces, payloads, Piece.filter_words, ih]
  | aggregate function operand ih =>
    simp [pieces, payloads, hparenthesized, Piece.filter_words, ih]

/-- Among the pieces of a statement are its names and texts, each of them once and in order. -/
theorem Statement.filter_pieces (s : Statement) :
    s.pieces.filter Piece.isPayload = s.payloads := by
  rw [pieces, List.filter_flatMap, payloads]
  congr 1
  funext t
  cases t with
  | keyword word =>
    unfold Token.pieces
    dsimp only
    split
    · rfl
    · exact Piece.filter_words [word]
  | expr e => exact e.filter_pieces
  | number count => exact Piece.filter_number _
  | _ => rfl

/-! ### The same outline -/

/-- The pieces differ in nothing but the characters of a name or of a text. -/
inductive Piece.Corresponds : Piece → Piece → Prop
  | fixed (t : Lexeme) : Corresponds (.fixed t) (.fixed t)
  | star : Corresponds (.name "*") (.name "*")
  | name {m n : String} (hm : m ≠ "*") (hn : n ≠ "*") : Corresponds (.name m) (.name n)
  | text (s t : String) : Corresponds (.text s) (.text t)

namespace Lexeme

/-- The lexeme is a word or a name between quotes. -/
def IsIdentifier : Lexeme → Prop
  | word _ | quoted _ => True
  | _ => False

/-- The lexemes differ in nothing but the characters of an identifier or of a text. -/
inductive Alike : Lexeme → Lexeme → Prop
  | same (t : Lexeme) : Alike t t
  | identifier {t u : Lexeme} (ht : t.IsIdentifier) (hu : u.IsIdentifier) : Alike t u
  | string (s t : String) : Alike (.string s) (.string t)

end Lexeme

namespace Piece

/-- Pieces with the same outline correspond. -/
theorem corresponds_of_outline {p p' : Piece} (h : p.outline = p'.outline) : p.Corresponds p' := by
  cases p with
  | fixed t =>
    cases p' with
    | fixed => cases h; exact .fixed t
    | _ => cases h
  | name m =>
    cases p' with
    | name n =>
      have hblanked : Text.blanked m = Text.blanked n := Piece.name.inj h
      unfold Text.blanked at hblanked
      by_cases hm : m = "*"
      · subst hm
        by_cases hn : n = "*"
        · subst hn
          exact .star
        · simp [hn] at hblanked
      · by_cases hn : n = "*"
        · simp [hm, hn] at hblanked
        · exact .name hm hn
    | _ => cases h
  | text s =>
    cases p' with
    | text t => exact .text s t
    | _ => cases h

/-- A name other than the star is an identifier. -/
theorem isIdentifier_name {n : String} (h : n ≠ "*") : (name n).lexeme.IsIdentifier := by
  simp only [lexeme, if_neg h]
  split <;> trivial

/-- Pieces that correspond are lexemes that are alike. -/
theorem Corresponds.alike {p p' : Piece} (h : p.Corresponds p') : p.lexeme.Alike p'.lexeme := by
  cases h with
  | fixed t => exact .same t
  | star => exact .same _
  | name hm hn => exact .identifier (isIdentifier_name hm) (isIdentifier_name hn)
  | text s t => exact .string s t

end Piece

namespace Query

/-- The text is one of the forms of the SQL of the query: on one line, or on many lines with some
number of spaces a level. -/
def IsForm (q : Query) (sql : String) : Prop :=
  sql = q.toCompactSql ∨ ∃ indent, sql = q.toSql indent

/-- A form of the SQL of a query of bare names is read as the pieces of its statement. -/
theorem Bare.lex_form {q : Query} (h : q.Bare) {sql : String} (hsql : q.IsForm sql) :
    lex sql.toList = some (q.statement.pieces.map Piece.lexeme) := by
  rcases hsql with rfl | ⟨indent, rfl⟩
  · exact (q.statement.lex_forms h.tokens_statement 0).1
  · exact (q.statement.lex_forms h.tokens_statement indent).2

/-- The pieces of the statements of queries with the same outline correspond. -/
theorem corresponds_of_outline_eq {q r : Query} (h : q.outline = r.outline) :
    List.Forall₂ Piece.Corresponds q.statement.pieces r.statement.pieces := by
  have hmap : q.statement.pieces.map Piece.outline = r.statement.pieces.map Piece.outline := by
    rw [← q.pieces_outline, ← r.pieces_outline, h]
  rw [← List.forall₂_eq_eq_eq, List.forall₂_map_left_iff, List.forall₂_map_right_iff] at hmap
  exact hmap.imp fun _ _ => Piece.corresponds_of_outline

/-- Any form of the SQL of a query of bare names is read as the pieces of its statement, of which
its names of columns, its aliases and its texts are one each, in order. Of two such queries with the
same outline the pieces correspond, and so the lexemes are as many and are alike. -/
theorem Bare.names_and_texts_are_lexemes {q r : Query} (hq : q.Bare) (hr : r.Bare)
    {sql other : String} (hsql : q.IsForm sql) (hother : r.IsForm other) :
    lex sql.toList = some (q.statement.pieces.map Piece.lexeme) ∧
      q.statement.pieces.filter Piece.isPayload = q.statement.payloads ∧
      (q.outline = r.outline →
        List.Forall₂ Piece.Corresponds q.statement.pieces r.statement.pieces ∧
          ∃ lexemes, lex other.toList = some lexemes ∧
            List.Forall₂ Lexeme.Alike (q.statement.pieces.map Piece.lexeme) lexemes) := by
  refine ⟨hq.lex_form hsql, q.statement.filter_pieces, fun houtline => ?_⟩
  have hpieces := corresponds_of_outline_eq houtline
  refine ⟨hpieces, _, hr.lex_form hother, ?_⟩
  rw [List.forall₂_map_left_iff, List.forall₂_map_right_iff]
  exact hpieces.imp fun _ _ h => h.alike

/-- A quote, a blank and the sign of a comment stay in their lexemes, and other characters in their
place change nothing else. -/
theorem Bare.names_and_texts_are_lexemes_quotes :
    let query (column text name : String) : Query :=
      (subquery ((table "t").filter (.binary (.column column) .eq (.literal (.text text))))).select
        [.named (.cast (.column "*") "int") name]
    (query "a b" "it's -- x" "n\"1").Bare ∧ (query "c" "" "n").Bare ∧
      lex (query "a b" "it's -- x" "n\"1").toCompactSql.toList = some
        [.word "SELECT", .word "TRY_CAST", .mark '(', .mark '*', .word "AS", .word "INT", .mark ')',
          .word "AS", .quoted "n\"1", .word "FROM", .mark '(', .word "SELECT", .mark '*',
          .word "FROM", .word "t", .word "WHERE", .mark '(', .quoted "a b", .mark '=',
          .string "it's -- x", .mark ')', .mark ')', .word "AS", .word "t0"] ∧
      ∃ lexemes, lex ((query "c" "" "n").toSql 2).toList = some lexemes ∧
        List.Forall₂ Lexeme.Alike
          ((query "a b" "it's -- x" "n\"1").statement.pieces.map Piece.lexeme) lexemes := by
  intro query
  have hbare (column text name : String) : (query column text name).Bare := by
    simp [query, Query.Bare, Query.select, Query.filter, apply, conflictsWith, operations, append,
      Step.exprs, Expr.CastsBare]
    decide
  have hcompact : (query "a b" "it's -- x" "n\"1").IsForm _ := .inl rfl
  have hpretty : (query "c" "" "n").IsForm _ := .inr ⟨2, rfl⟩
  obtain ⟨hlex, -, hlike⟩ := Bare.names_and_texts_are_lexemes (hbare _ _ _) (hbare _ _ _) hcompact
    hpretty
  refine ⟨hbare _ _ _, hbare _ _ _, ?_, (hlike rfl).2⟩
  rw [hlex]
  rfl

end Query

end FluentSql
