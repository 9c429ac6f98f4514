import Mathlib.Data.List.Forall2
import FluentSql.Statement.Pretty

/-!
# Tokens of statements

A statement is a sequence of tokens: keywords, expressions, table names, aliases, numbers and marks.
A text spells the sequence when it consists of the texts of the tokens, in order, with blanks
between them, and with at least one blank between two tokens that are both words.
-/

namespace FluentSql

/-- A token of a statement. -/
inductive Token
  /-- A keyword, or the star for all columns. -/
  | keyword (word : String)
  /-- An expression. -/
  | expr (e : Expr)
  /-- The name of a table. -/
  | table (name : String)
  /-- The alias of a nested statement. -/
  | label (name : String)
  /-- A number of rows. -/
  | number (count : UInt64)
  | comma | opening | closing
deriving DecidableEq

namespace Token

/-- The text of a token. -/
def text : Token → String
  | keyword word => word
  | expr e => e.toSql
  | table name | label name => name
  | number count => toString count.toNat
  | comma => ","
  | opening => "("
  | closing => ")"

/-- Two neighbours of this sort are kept apart. -/
def isWord : Token → Bool
  | comma | opening | closing => false
  | _ => true

/-- The expressions, with other tokens between every two of them. -/
def separated (separator : List Token) (items : List Expr) : List Token :=
  separator.intercalate (items.map ([expr ·]))

/-- All expressions but the first follow a separator. -/
theorem separated_cons (separator : List Token) (first : Expr) (rest : List Expr) :
    separated separator (first :: rest) =
      expr first :: rest.flatMap fun e => separator ++ [expr e] := by
  induction rest generalizing first with
  | nil => simp [separated]
  | cons e rest ih =>
    have hrest := ih e
    simp only [separated, List.map_cons, List.intercalate_cons_cons] at hrest ⊢
    rw [hrest]
    simp

/-- What holds of the expressions and of what is between them holds of the whole list. -/
theorem forall_mem_separated {p : Token → Prop} {separator : List Token} {items : List Expr}
    (hseparator : ∀ t ∈ separator, p t) (hitems : ∀ e ∈ items, p (expr e)) :
    ∀ t ∈ separated separator items, p t := by
  cases items with
  | nil => nofun
  | cons first rest =>
    intro t ht
    simp only [separated_cons, List.mem_cons, List.mem_flatMap, List.mem_append,
      List.not_mem_nil, or_false] at ht
    rcases ht with rfl | ⟨e, he, ht | rfl⟩
    · exact hitems first List.mem_cons_self
    · exact hseparator t ht
    · exact hitems e (List.mem_cons_of_mem first he)

end Token

/-- The tokens that follow `SELECT` for rows left out. -/
def Distinct.tokens : Distinct → List Token
  | all => [.keyword "DISTINCT"]
  | on subset =>
    .keyword "DISTINCT" :: .keyword "ON" :: .opening ::
      Token.separated [.comma] subset ++ [.closing]

/-- The tokens of each item of a projection. -/
def Projection.itemTokens : Projection → List (List Token)
  | wildcard | replace [] => [[.keyword "*"]]
  | items columns => columns.map ([.expr ·])
  | replace columns =>
    [.keyword "*" :: .keyword "REPLACE" :: .opening ::
      Token.separated [.comma] columns ++ [.closing]]

namespace Clauses

/-- The tokens of the `SELECT` clause. -/
def selectTokens (c : Clauses) : List Token :=
  .keyword "SELECT" :: c.distinct.elim [] Distinct.tokens ++
    [Token.comma].intercalate c.projection.itemTokens

/-- The tokens of a clause that lists expressions, unless there are none. -/
def listTokens (keywords separator : List Token) (items : List Expr) : List Token :=
  if items.isEmpty then [] else keywords ++ Token.separated separator items

/-- The tokens of a clause with a number, unless there is none. -/
def countTokens (keyword : String) : Option UInt64 → List Token
  | none => []
  | some n => [.keyword keyword, .number n]

/-- The tokens of the clauses that follow the tables. -/
def tailTokens (c : Clauses) : List Token :=
  listTokens [.keyword "WHERE"] [.keyword "AND"] c.filters ++
    listTokens [.keyword "GROUP", .keyword "BY"] [.comma] c.groupBy ++
    listTokens [.keyword "ORDER", .keyword "BY"] [.comma] c.orderBy ++
    countTokens "LIMIT" c.limit ++ countTokens "OFFSET" c.offset

/-- The tokens of all clauses, around those for the tables. -/
def tokens (c : Clauses) (tables : List Token) : List Token :=
  c.selectTokens ++ tables ++ c.tailTokens

end Clauses

mutual

/-- The tokens of a table. -/
def TableRef.tokens : TableRef → List Token
  | .table name => [.table name]
  | .subquery tables clauses name =>
    .opening :: clauses.tokens tables.tokens ++ [.closing, .keyword "AS", .label name]

/-- The tokens of the `FROM` clause and the `JOIN` clauses. -/
def Tables.tokens : Tables → List Token
  | .none => []
  | .source table => .keyword "FROM" :: table.tokens
  | .join left kind table on =>
    left.tokens ++ .keyword kind.sql :: .keyword "JOIN" :: table.tokens ++ [.keyword "ON", .expr on]

end

/-- The tokens of a statement. -/
def Statement.tokens (s : Statement) : List Token :=
  s.clauses.tokens s.tables.tokens

/-- The text consists of the tokens with blanks around them. The first flag says that a word may
stand right before the text, the second one that a word may stand at its end. -/
inductive Spells : Bool → List Token → Bool → String → Prop
  | nil {before after : Bool} (h : before = true → after = true) : Spells before [] after ""
  | blank {before after : Bool} {c : Char} {tokens : List Token} {text : String}
      (hblank : c.isWhitespace = true) (h : Spells false tokens after text) :
      Spells before tokens after (String.singleton c ++ text)
  | token {before after : Bool} {t : Token} {tokens : List Token} {text : String}
      (hapart : before = true → t.isWord = false) (h : Spells t.isWord tokens after text) :
      Spells before (t :: tokens) after (t.text ++ text)

namespace Spells

variable {before between after : Bool} {ts us : List Token} {x y : String}

/-- Where a word may stand in front, a word need not stand. -/
theorem weaken_before (h : Spells between ts after x) (hbefore : before = true → between = true) :
    Spells before ts after x := by
  cases h with
  | nil hafter => exact .nil (hafter ∘ hbefore)
  | blank hblank h => exact .blank hblank h
  | token hapart h => exact .token (hapart ∘ hbefore) h

/-- Where no word stands at the end, a word may as well. -/
theorem weaken_after (h : Spells before ts after x) : Spells before ts true x := by
  induction h with
  | nil => exact .nil fun _ => rfl
  | blank hblank _ ih => exact .blank hblank ih
  | token hapart _ ih => exact .token hapart ih

/-- Texts that follow each other spell what follows each other. -/
theorem append (h : Spells before ts between x) (h' : Spells between us after y) :
    Spells before (ts ++ us) after (x ++ y) := by
  induction h with
  | nil hbefore =>
    rw [List.nil_append, String.empty_append]
    exact h'.weaken_before hbefore
  | blank hblank _ ih =>
    rw [String.append_assoc]
    exact .blank hblank (ih h')
  | token hapart _ ih =>
    rw [String.append_assoc]
    exact .token hapart (ih h')

/-- A token spells itself. -/
theorem single (t : Token) : Spells false [t] t.isWord t.text := by
  have h : Spells false [t] t.isWord (t.text ++ "") := .token nofun (.nil id)
  rwa [String.append_empty] at h

/-- A blank keeps words apart. -/
theorem separates {c : Char} (hblank : c.isWhitespace = true) :
    Spells before [] false (String.singleton c) := by
  have h : Spells before [] false (String.singleton c ++ "") := .blank hblank (.nil nofun)
  rwa [String.append_empty] at h

/-- A space keeps words apart. -/
theorem space : Spells before [] false " " :=
  separates (c := ' ') rfl

/-- The end of a line keeps words apart. -/
theorem newline : Spells before [] false "\n" :=
  separates (c := '\n') rfl

/-- A keyword with spaces around it. -/
theorem spaced (word : String) : Spells before [.keyword word] false (" " ++ word ++ " ") := by
  have hfront : Spells before [] false " " := space
  exact (hfront.append (single (.keyword word))).append space

/-- Blanks in front of a text change nothing. -/
theorem padded (h : Spells false ts after x) (count : Nat) :
    Spells false ts after (String.ofList (List.replicate count ' ') ++ x) := by
  induction count with
  | zero => simpa using h
  | succ count ih =>
    have hpad : String.ofList (List.replicate (count + 1) ' ') =
        String.singleton ' ' ++ String.ofList (List.replicate count ' ') := by
      simp [List.replicate_succ]
    rw [hpad, String.append_assoc]
    exact .blank rfl ih

/-- A margin in front of a text changes nothing. -/
theorem indented (h : Spells false ts after x) (indent depth : Nat) :
    Spells false ts after (margin indent depth ++ x) :=
  h.padded (indent * depth)

/-- Texts with a separator between every two of them. -/
theorem intercalate {tss : List (List Token)} {xs : List String} {separator : List Token}
    {text : String} (h : List.Forall₂ (Spells false · true ·) tss xs)
    (hseparator : Spells true separator false text) :
    Spells false (separator.intercalate tss) true (text.intercalate xs) := by
  induction h with
  | nil => exact .nil nofun
  | @cons ts x tss xs hitem hrest ih =>
    cases hrest with
    | nil => simpa using hitem
    | cons hnext hrest =>
      rw [List.intercalate_cons_cons, String.intercalate_cons_cons]
      exact (hitem.append hseparator).append ih

end Spells

end FluentSql
