import Mathlib.Data.List.Forall2
import FluentSql.Proofs.Statement.Piece

/-!
# Outlines

The outline of a query is what is left of it when the names of columns, the aliases and the texts of
constants are taken out, apart from the wildcard `*`. The statement of a query has the same outline
as the query: no decision on the way to SQL depends on such a name or text.
-/

namespace FluentSql

/-! ### Exchanging expressions -/

section Exchange

variable (f : Expr → Expr)

/-- The step with all its expressions exchanged. -/
def Step.mapExpr : Step → Step
  | select columns => select (columns.map f)
  | distinct subset => distinct (subset.map (·.map f))
  | filter predicate => filter (f predicate)
  | groupBy columns => groupBy (columns.map f)
  | agg aggregations => agg (aggregations.map f)
  | orderBy keys => orderBy (keys.map f)
  | withColumns columns => withColumns (columns.map f)
  | limit count => limit count
  | offset count => offset count

/-- The query with all expressions in it exchanged, at any depth. -/
def Query.mapExpr : Query → Query
  | sourceless => sourceless
  | table name => table name
  | subquery inner => subquery inner.mapExpr
  | step prior next => step prior.mapExpr (next.mapExpr f)
  | join prior other on kind => join prior.mapExpr other.mapExpr (f on) kind

/-- The operation with all expressions in it exchanged. -/
def Operation.mapExpr : Operation → Operation
  | step next => step (next.mapExpr f)
  | join other on kind => join (other.mapExpr f) (f on) kind

/-- The same rows are left out, with expressions exchanged. -/
def Distinct.mapExpr : Distinct → Distinct
  | all => all
  | on subset => on (subset.map f)

/-- The projection with expressions exchanged. -/
def Projection.mapExpr : Projection → Projection
  | wildcard => wildcard
  | items columns => items (columns.map f)
  | replace columns => replace (columns.map f)

/-- The clauses with expressions exchanged. -/
def Clauses.mapExpr (c : Clauses) : Clauses where
  distinct := c.distinct.map (Distinct.mapExpr f)
  projection := c.projection.mapExpr f
  filters := c.filters.map f
  groupBy := c.groupBy.map f
  orderBy := c.orderBy.map f
  limit := c.limit
  offset := c.offset

mutual

/-- The table with expressions exchanged in all clauses. -/
def TableRef.mapExpr : TableRef → TableRef
  | .table name => .table name
  | .subquery tables clauses name => .subquery tables.mapExpr (clauses.mapExpr f) name

/-- The tables with expressions exchanged in all clauses. -/
def Tables.mapExpr : Tables → Tables
  | .none => .none
  | .source table => .source table.mapExpr
  | .join left kind table on => .join left.mapExpr kind table.mapExpr (f on)

end

/-- The statement with expressions exchanged in all clauses. -/
def Statement.mapExpr (s : Statement) : Statement :=
  ⟨s.tables.mapExpr f, s.clauses.mapExpr f⟩

/-- The token with its expression exchanged. -/
def Token.mapExpr : Token → Token
  | expr e => expr (f e)
  | t => t

end Exchange

/-- The exchange keeps what decides on clauses: whether an expression is the wildcard, and whether
it carries an alias. -/
structure KeepsShape (f : Expr → Expr) : Prop where
  /-- The wildcard stays the wildcard, and nothing else becomes it. -/
  isWildcard : ∀ e, (f e).isWildcard = e.isWildcard
  /-- An expression keeps its alias, or another one in its place. -/
  isNamed : ∀ e, (f e).givenName?.isSome = e.givenName?.isSome

/-! ### From queries to statements -/

namespace Query

variable {f : Expr → Expr}

/-- The operations have their expressions exchanged. -/
theorem operations_mapExpr (q : Query) :
    (q.mapExpr f).operations = q.operations.map (Operation.mapExpr f) := by
  induction q with
  | sourceless | table | subquery => rfl
  | step prior next ih => rw [mapExpr, operations, ih, operations, List.map_append]; rfl
  | join prior other on kind ih => rw [mapExpr, operations, ih, operations, List.map_append]; rfl

/-- Only a table is a table. -/
theorem tableName?_mapExpr (q : Query) : (q.mapExpr f).tableName? = q.tableName? := by
  cases q <;> rfl

/-- A search among exchanged operations finds what it found, exchanged. -/
theorem findSome?_mapExpr {α : Type} {pick : Operation → Option α} {g : α → α}
    (h : ∀ op : Operation, pick (op.mapExpr f) = (pick op).map g) (operations : List Operation) :
    (operations.map (Operation.mapExpr f)).findSome? pick =
      (operations.findSome? pick).map g := by
  rw [List.findSome?_map, List.map_findSome?]
  congr 1
  funext op
  exact h op

/-- The rows left out are the same, with expressions exchanged. -/
theorem distinctClause_mapExpr (q : Query) :
    (q.mapExpr f).distinctClause = q.distinctClause.map (Distinct.mapExpr f) := by
  rw [distinctClause, operations_mapExpr]
  refine findSome?_mapExpr ?_ q.operations
  rintro ((_ | (_ | _) | _ | _ | _ | _ | _ | _ | _) | _) <;> rfl

/-- All predicates are exchanged. -/
theorem filterClauses_mapExpr (q : Query) :
    (q.mapExpr f).filterClauses = q.filterClauses.map f := by
  unfold filterClauses
  rw [operations_mapExpr, List.filterMap_map, List.map_filterMap]
  congr 1
  funext op
  rcases op with (_ | _ | _ | _ | _ | _ | _ | _ | _) | _ <;> rfl

/-- The columns that rows are grouped and sorted by are exchanged. -/
theorem keys_mapExpr (q : Query) :
    (q.mapExpr f).groupClause = q.groupClause.map f ∧
      (q.mapExpr f).orderClause = q.orderClause.map f := by
  unfold groupClause orderClause
  rw [operations_mapExpr, ← List.map_reverse]
  constructor
  all_goals
    rw [findSome?_mapExpr (g := List.map f)]
    · cases List.findSome? _ _ <;> rfl
    · rintro ((_ | _ | _ | _ | _ | _ | _ | _ | _) | _) <;> rfl

/-- The aggregates and the overwritten columns are exchanged. -/
theorem computed_mapExpr (q : Query) :
    (q.mapExpr f).aggregations = q.aggregations.map (·.map f) ∧
      (q.mapExpr f).overwrites = q.overwrites.map (·.map f) := by
  unfold aggregations overwrites
  rw [operations_mapExpr]
  constructor
  all_goals
    refine findSome?_mapExpr ?_ q.operations
    rintro ((_ | _ | _ | _ | _ | _ | _ | _ | _) | _) <;> rfl

/-- The limit and the offset are the same. -/
theorem counts_mapExpr (q : Query) :
    (q.mapExpr f).limitClause = q.limitClause ∧
      (q.mapExpr f).offsetClause = q.offsetClause := by
  unfold limitClause offsetClause
  rw [operations_mapExpr]
  constructor
  all_goals
    rw [findSome?_mapExpr (g := id), Option.map_id, id]
    rintro ((_ | _ | _ | _ | _ | _ | _ | _ | _) | _) <;> rfl

/-- A list of columns is the wildcard alone if it was. -/
theorem isAllColumns_map (hf : KeepsShape f) (columns : List Expr) :
    isAllColumns (columns.map f) = isAllColumns columns := by
  rcases columns with _ | ⟨e, _ | ⟨_, _⟩⟩
  · rfl
  · exact hf.isWildcard e
  · rfl

/-- The projections have their columns exchanged. -/
theorem projections_mapExpr (q : Query) :
    (q.mapExpr f).projections = q.projections.map (Prod.map id (·.map f)) := by
  unfold projections
  rw [operations_mapExpr, List.zipIdx_map, List.filterMap_map, List.map_filterMap]
  congr 1
  funext ⟨op, index⟩
  rcases op with (_ | _ | _ | _ | _ | _ | _ | _ | _) | _ <;> rfl

/-- The projection in effect has its columns exchanged. -/
theorem projectedColumns_mapExpr (hf : KeepsShape f) (q : Query) :
    (q.mapExpr f).projectedColumns = q.projectedColumns.map (·.map f) := by
  -- Which projection is in effect depends on the wildcard alone.
  have hpick : ((fun p : Nat × List Expr => !isAllColumns p.2) ∘ Prod.map id (·.map f)) =
      fun p => !isAllColumns p.2 := by
    funext ⟨index, columns⟩
    simp [isAllColumns_map hf]
  unfold projectedColumns projection
  rw [projections_mapExpr, ← List.map_reverse, List.find?_map, hpick, List.head?_map]
  cases q.projections.reverse.find? _ <;> cases q.projections.head? <;> rfl

/-- The projection of the statement has its expressions exchanged. -/
theorem projectionClause_mapExpr (hf : KeepsShape f) (q : Query) :
    (q.mapExpr f).projectionClause = q.projectionClause.mapExpr f := by
  have hnamed : ((fun e : Expr => e.givenName?.isSome) ∘ f) = fun e => e.givenName?.isSome := by
    funext e
    exact hf.isNamed e
  unfold projectionClause
  rw [(computed_mapExpr q).1, (computed_mapExpr q).2, projectedColumns_mapExpr hf,
    (keys_mapExpr q).1]
  cases q.aggregations with
  | some items => simp [Projection.mapExpr]
  | none =>
    cases q.overwrites with
    | some columns => simp [Projection.mapExpr, List.filter_map, hnamed]
    | none => cases q.projectedColumns <;> rfl

/-- The clauses of the statement have their expressions exchanged. -/
theorem clauses_mapExpr (hf : KeepsShape f) (q : Query) (nested : Bool) :
    (q.mapExpr f).clauses nested = (q.clauses nested).mapExpr f := by
  unfold clauses
  rw [distinctClause_mapExpr, projectionClause_mapExpr hf, filterClauses_mapExpr,
    (keys_mapExpr q).1, (keys_mapExpr q).2, (counts_mapExpr q).1, (counts_mapExpr q).2]
  cases nested <;> rfl

/-- The reference to a nested query has its expressions exchanged, if the tables have. -/
theorem reference_mapExpr (hf : KeepsShape f) {q : Query}
    (htables : ∀ next, (q.mapExpr f).tables next =
      ((q.tables next).1.mapExpr f, (q.tables next).2)) (next : Nat) :
    (q.mapExpr f).reference (q.mapExpr f).tables next =
      ((q.reference q.tables next).1.mapExpr f, (q.reference q.tables next).2) := by
  unfold reference
  rw [tableName?_mapExpr]
  cases q.tableName? with
  | some name => rfl
  | none => simp only [htables, clauses_mapExpr hf, TableRef.mapExpr]

/-- The tables have their expressions exchanged, under the same aliases. -/
theorem tables_mapExpr (hf : KeepsShape f) (q : Query) (next : Nat) :
    (q.mapExpr f).tables next = ((q.tables next).1.mapExpr f, (q.tables next).2) := by
  induction q generalizing next with
  | sourceless | table => rfl
  | subquery inner ih => simp [mapExpr, tables, reference_mapExpr hf ih, Tables.mapExpr]
  | step prior step ih => exact ih next
  | join prior other on kind ih ihother =>
    simp [mapExpr, tables, ih, reference_mapExpr hf ihother, Tables.mapExpr]

/-- The statement of a query has its expressions exchanged. -/
theorem statement_mapExpr (hf : KeepsShape f) (q : Query) :
    (q.mapExpr f).statement = q.statement.mapExpr f := by
  simp [statement, toStatement, tables_mapExpr hf, clauses_mapExpr hf, Statement.mapExpr]

end Query

/-! ### From statements to pieces -/

section Tokens

variable (f : Expr → Expr)

/-- The listed expressions are exchanged. -/
theorem Token.separated_map {separator : List Token}
    (h : separator.map (mapExpr f) = separator) (items : List Expr) :
    separated separator (items.map f) = (separated separator items).map (mapExpr f) := by
  cases items with
  | nil => rfl
  | cons first rest =>
    rw [List.map_cons, separated_cons, separated_cons, List.map_cons, List.flatMap_map,
      List.map_flatMap]
    simp [h, mapExpr]

/-- The expressions of the tokens for rows left out are exchanged. -/
theorem Distinct.tokens_mapExpr (d : Distinct) :
    (d.mapExpr f).tokens = d.tokens.map (Token.mapExpr f) := by
  cases d with
  | all => rfl
  | on subset => simp [mapExpr, tokens, Token.separated_map f, Token.mapExpr]

/-- The expressions of the tokens of a projection are exchanged. -/
theorem Projection.itemTokens_mapExpr (p : Projection) :
    [Token.comma].intercalate (p.mapExpr f).itemTokens =
      ([Token.comma].intercalate p.itemTokens).map (Token.mapExpr f) := by
  cases p with
  | wildcard => rfl
  | items columns => exact Token.separated_map f rfl columns
  | replace columns =>
    cases columns with
    | nil => rfl
    | cons e es =>
      have h : Token.separated [.comma] ((e :: es).map f) =
          (Token.separated [.comma] (e :: es)).map (Token.mapExpr f) :=
        Token.separated_map f rfl (e :: es)
      simp [mapExpr, itemTokens, ← h, Token.mapExpr]

namespace Clauses

/-- The expressions of the tokens of the `SELECT` clause are exchanged. -/
theorem selectTokens_mapExpr (c : Clauses) :
    (c.mapExpr f).selectTokens = c.selectTokens.map (Token.mapExpr f) := by
  have hitems := c.projection.itemTokens_mapExpr f
  unfold selectTokens
  cases hdistinct : c.distinct with
  | none => simp [mapExpr, hdistinct, hitems, Token.mapExpr]
  | some d => simp [mapExpr, hdistinct, hitems, d.tokens_mapExpr f, Token.mapExpr]

/-- The expressions of the tokens of a clause that lists expressions are exchanged. -/
theorem listTokens_map {keywords separator : List Token}
    (hkeywords : keywords.map (Token.mapExpr f) = keywords)
    (hseparator : separator.map (Token.mapExpr f) = separator) (items : List Expr) :
    listTokens keywords separator (items.map f) =
      (listTokens keywords separator items).map (Token.mapExpr f) := by
  unfold listTokens
  cases items with
  | nil => rfl
  | cons e es =>
    rw [Token.separated_map f hseparator]
    simp [hkeywords]

/-- The tokens of a clause with a number have no expression. -/
theorem countTokens_map (keyword : String) (count : Option UInt64) :
    (countTokens keyword count).map (Token.mapExpr f) = countTokens keyword count := by
  cases count <;> rfl

/-- The expressions of the tokens of all clauses are exchanged. -/
theorem tokens_mapExpr (c : Clauses) (tables : List Token) :
    (c.mapExpr f).tokens (tables.map (Token.mapExpr f)) =
      (c.tokens tables).map (Token.mapExpr f) := by
  unfold tokens tailTokens
  rw [selectTokens_mapExpr]
  simp only [mapExpr, List.map_append, countTokens_map]
  rw [listTokens_map f rfl rfl, listTokens_map f rfl rfl, listTokens_map f rfl rfl]

end Clauses

mutual

/-- The expressions of the tokens of a table are exchanged. -/
theorem TableRef.tokens_mapExpr (t : TableRef) :
    (t.mapExpr f).tokens = t.tokens.map (Token.mapExpr f) := by
  cases t with
  | table name => rfl
  | subquery tables clauses name =>
    have htables := tables.tokens_mapExpr
    simp [TableRef.mapExpr, TableRef.tokens, htables, clauses.tokens_mapExpr f, Token.mapExpr]

/-- The expressions of the tokens of tables are exchanged. -/
theorem Tables.tokens_mapExpr (t : Tables) :
    (t.mapExpr f).tokens = t.tokens.map (Token.mapExpr f) := by
  cases t with
  | none => rfl
  | source table =>
    simp [Tables.mapExpr, Tables.tokens, table.tokens_mapExpr, Token.mapExpr]
  | join left kind table on =>
    simp [Tables.mapExpr, Tables.tokens, left.tokens_mapExpr, table.tokens_mapExpr, Token.mapExpr]

end

/-- The expressions of the tokens of a statement are exchanged. -/
theorem Statement.tokens_mapExpr (s : Statement) :
    (s.mapExpr f).tokens = s.tokens.map (Token.mapExpr f) := by
  rw [tokens, mapExpr, Tables.tokens_mapExpr, Clauses.tokens_mapExpr, tokens]

end Tokens

/-! ### Outlines -/

/-- The name is taken out, unless it is the wildcard. -/
def Text.blanked (name : String) : String :=
  if name = "*" then "*" else ""

/-- The expression without the names of columns, the aliases and the texts of constants. -/
def Expr.outline : Expr → Expr
  | column name => column (Text.blanked name)
  | literal (.text _) => literal (.text "")
  | literal value => literal value
  | binary left op right => binary left.outline op right.outline
  | nullTest operand test => nullTest operand.outline test
  | range operand test lower upper => range operand.outline test lower.outline upper.outline
  | cast operand dataType => cast operand.outline dataType
  | named operand name => named operand.outline (Text.blanked name)
  | sort operand direction => sort operand.outline direction
  | aggregate function operand => aggregate function operand.outline

/-- The query without the names of columns, the aliases and the texts of constants. -/
def Query.outline (q : Query) : Query :=
  q.mapExpr Expr.outline

/-- The piece without its name or its text. -/
def Piece.outline : Piece → Piece
  | fixed t => fixed t
  | name n => name (Text.blanked n)
  | text _ => text ""

/-- The outline of an expression keeps what decides on clauses. -/
theorem Expr.keepsShape_outline : KeepsShape outline where
  isWildcard e := by
    cases e with
    | column name =>
      by_cases hstar : name = "*" <;> simp [outline, isWildcard, Text.blanked, hstar]
    | literal value => cases value <;> rfl
    | _ => rfl
  isNamed e := by
    cases e with
    | literal value => cases value <;> rfl
    | _ => rfl

/-- Words have no name and no text. -/
theorem Piece.words_outline (ws : List String) : (words ws).map outline = words ws := by
  rw [words, List.map_map]
  rfl

/-- Numbers have no name and no text. -/
theorem Piece.number_outline (s : String) : (number s).map outline = number s := by
  unfold number
  split
  · next n _ _ => cases n.negative <;> rfl
  · rfl

/-- Operators have no name and no text. -/
theorem BinaryOp.pieces_outline (op : BinaryOp) : op.pieces.map Piece.outline = op.pieces := by
  cases op <;> rfl

/-- Tests for a missing value have no name and no text. -/
theorem NullTest.pieces_outline (test : NullTest) :
    test.pieces.map Piece.outline = test.pieces := by
  cases test <;> rfl

/-- Tests against bounds have no name and no text. -/
theorem RangeTest.pieces_outline (test : RangeTest) :
    test.pieces.map Piece.outline = test.pieces := by
  cases test <;> rfl

/-- The pieces of an outline are the outlines of the pieces. -/
theorem Expr.pieces_outline (e : Expr) : e.outline.pieces = e.pieces.map Piece.outline := by
  have hparenthesized (ps : List Piece) : (Piece.parenthesized ps).map Piece.outline =
      Piece.parenthesized (ps.map Piece.outline) := by
    simp [Piece.parenthesized, Piece.outline]
  induction e with
  | column name => rfl
  | literal value =>
    cases value with
    | text s => rfl
    | integer i => exact (Piece.number_outline _).symm
    | float x =>
      cases x with
      | finite negative rank => exact (Piece.number_outline _).symm
      | _ => rfl
    | boolean b => cases b <;> rfl
  | binary left op right ihleft ihright =>
    simp [outline, pieces, ihleft, ihright, hparenthesized, op.pieces_outline]
  | nullTest operand test ih => simp [outline, pieces, ih, hparenthesized, test.pieces_outline]
  | range operand test lower upper ih ihlower ihupper =>
    simp [outline, pieces, ih, ihlower, ihupper, hparenthesized, test.pieces_outline,
      Piece.words_outline]
  | cast operand dataType ih => simp [outline, pieces, ih, hparenthesized, Piece.words_outline]
  | named operand name ih => simp [outline, pieces, ih, Piece.words_outline, Piece.outline]
  | sort operand direction ih => simp [outline, pieces, ih, Piece.words_outline]
  | aggregate function operand ih =>
    simp [outline, pieces, ih, hparenthesized, Piece.words_outline]

/-- The pieces of a token without names and texts are the outlines of its pieces. -/
theorem Token.pieces_outline (t : Token) :
    (t.mapExpr Expr.outline).pieces = t.pieces.map Piece.outline := by
  cases t with
  | keyword word =>
    simp only [mapExpr, pieces]
    split
    · rfl
    · exact (Piece.words_outline [word]).symm
  | expr e => exact e.pieces_outline
  | number count => exact (Piece.number_outline _).symm
  | _ => rfl

/-- The pieces of the statement of an outline are the outlines of the pieces. -/
theorem Query.pieces_outline (q : Query) :
    q.outline.statement.pieces = q.statement.pieces.map Piece.outline := by
  rw [outline, statement_mapExpr Expr.keepsShape_outline]
  unfold Statement.pieces
  rw [Statement.tokens_mapExpr, List.flatMap_map, List.map_flatMap]
  congr 1
  funext t
  exact t.pieces_outline

end FluentSql
