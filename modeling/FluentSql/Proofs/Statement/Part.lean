import FluentSql.Proofs.Statement.Token

/-!
# Tokens within clauses

The clauses of a statement, apart from the word `SELECT` at its start and from its tables, consist
of tokens that neither start a statement nor name what is read.
-/

namespace FluentSql

namespace Token

/-- The token may stand within a clause: it neither starts a statement nor names what is read. -/
def isPart : Token → Bool
  | keyword word => word != "SELECT"
  | table _ | label _ => false
  | expr _ | number _ | comma | opening | closing => true

/-- Listed expressions are within a clause, if what is between them is. -/
theorem isPart_separated {separator : List Token} (h : ∀ t ∈ separator, t.isPart = true)
    (items : List Expr) : ∀ t ∈ separated separator items, t.isPart = true :=
  forall_mem_separated h fun _ _ => rfl

/-- Expressions with commas between them are within a clause. -/
theorem isPart_listed (items : List Expr) :
    ∀ t ∈ separated [comma] items, t.isPart = true :=
  isPart_separated (List.forall_mem_singleton.mpr rfl) items

/-- Expressions in parentheses after two words are within a clause, if the words are. -/
theorem isPart_parenthesized {first second : String} (hfirst : (keyword first).isPart = true)
    (hsecond : (keyword second).isPart = true) (items : List Expr) :
    ∀ t ∈ keyword first :: keyword second :: opening :: separated [comma] items ++ [closing],
      t.isPart = true := by
  intro t ht
  simp only [List.mem_append, List.mem_cons, List.not_mem_nil, or_false] at ht
  rcases ht with (rfl | rfl | rfl | ht) | rfl
  · exact hfirst
  · exact hsecond
  · rfl
  · exact isPart_listed items t ht
  · rfl

end Token

/-- What is said of rows left out is within a clause. -/
theorem Distinct.isPart_tokens (d : Distinct) : ∀ t ∈ d.tokens, t.isPart = true := by
  cases d with
  | all => simp [Distinct.tokens, Token.isPart]
  | on subset => exact Token.isPart_parenthesized rfl rfl subset

/-- The items of a projection are within a clause. -/
theorem Projection.isPart_itemTokens (p : Projection) :
    ∀ t ∈ [Token.comma].intercalate p.itemTokens, t.isPart = true := by
  cases p with
  | wildcard => simp [Projection.itemTokens, Token.isPart]
  | items columns => exact Token.isPart_listed columns
  | replace columns =>
    cases columns with
    | nil => simp [Projection.itemTokens, Token.isPart]
    | cons e es =>
      simp only [Projection.itemTokens, List.intercalate_singleton]
      exact Token.isPart_parenthesized rfl rfl (e :: es)

namespace Clauses

/-- A clause that lists expressions consists of such tokens, if its words do. -/
theorem isPart_listTokens {keywords separator : List Token}
    (hkeywords : ∀ t ∈ keywords, t.isPart = true) (hseparator : ∀ t ∈ separator, t.isPart = true)
    (items : List Expr) : ∀ t ∈ listTokens keywords separator items, t.isPart = true := by
  unfold listTokens
  split
  · nofun
  · exact List.forall_mem_append.mpr ⟨hkeywords, Token.isPart_separated hseparator items⟩

/-- A clause with a number consists of such tokens, if its word is one. -/
theorem isPart_countTokens {keyword : String} (h : (Token.keyword keyword).isPart = true)
    (count : Option UInt64) : ∀ t ∈ countTokens keyword count, t.isPart = true := by
  cases count with
  | none => nofun
  | some n => exact List.forall_mem_cons.mpr ⟨h, List.forall_mem_singleton.mpr rfl⟩

/-- The tokens between the word `SELECT` and the tables. -/
def projectionTokens (c : Clauses) : List Token :=
  c.distinct.elim [] Distinct.tokens ++ [Token.comma].intercalate c.projection.itemTokens

/-- The tokens between the word `SELECT` and the tables are within a clause. -/
theorem isPart_projectionTokens (c : Clauses) : ∀ t ∈ c.projectionTokens, t.isPart = true := by
  refine List.forall_mem_append.mpr ⟨?_, c.projection.isPart_itemTokens⟩
  cases c.distinct with
  | none => nofun
  | some d => exact d.isPart_tokens

/-- The tokens after the tables are within a clause. -/
theorem isPart_tailTokens (c : Clauses) : ∀ t ∈ c.tailTokens, t.isPart = true := by
  unfold tailTokens
  simp only [List.forall_mem_append]
  refine ⟨⟨⟨⟨?_, ?_⟩, ?_⟩, ?_⟩, ?_⟩
  · exact isPart_listTokens (by decide) (by decide) c.filters
  · exact isPart_listTokens (by decide) (by decide) c.groupBy
  · exact isPart_listTokens (by decide) (by decide) c.orderBy
  · exact isPart_countTokens rfl c.limit
  · exact isPart_countTokens rfl c.offset

/-- The tokens of all clauses: the word `SELECT`, what it projects, the tables, and the rest. -/
theorem tokens_eq (c : Clauses) (tables : List Token) :
    c.tokens tables = .keyword "SELECT" :: (c.projectionTokens ++ tables ++ c.tailTokens) := rfl

end Clauses

end FluentSql
