import FluentSql.Query.Basic

/-!
# SELECT statements

A statement is what one segment of a query amounts to in SQL: the tables that it reads, with nested
statements among them, and its other clauses.
-/

namespace FluentSql

/-- Which rows a statement leaves out as repeated. -/
inductive Distinct
  /-- Rows that are equal as a whole. -/
  | all
  /-- Rows that are equal in some expressions. -/
  | on (subset : List Expr)
deriving DecidableEq

/-- What a statement projects. -/
inductive Projection
  /-- All columns. -/
  | wildcard
  /-- The given expressions. -/
  | items (columns : List Expr)
  /-- All columns, some of them overwritten. -/
  | replace (columns : List Expr)
deriving DecidableEq

/-- The clauses of a statement other than `FROM` and `JOIN`. -/
structure Clauses where
  /-- The rows left out as repeated. -/
  distinct : Option Distinct := none
  /-- What is projected. -/
  projection : Projection := .wildcard
  /-- The predicates, all of which a row has to satisfy. -/
  filters : List Expr := []
  /-- The expressions that rows are grouped by. -/
  groupBy : List Expr := []
  /-- The sort keys. -/
  orderBy : List Expr := []
  /-- The number of rows kept. -/
  limit : Option UInt64 := none
  /-- The number of rows left out at the start. -/
  offset : Option UInt64 := none
deriving DecidableEq

mutual
/-- A table in a `FROM` or `JOIN` clause. -/
inductive TableRef
  /-- A table by name, which is written as it stands. -/
  | table (name : String)
  /-- A nested statement, given by its tables and its other clauses, under an alias name. -/
  | subquery (tables : Tables) (clauses : Clauses) (name : String)

/-- The `FROM` clause and the `JOIN` clauses of a statement. -/
inductive Tables
  /-- No `FROM` clause. -/
  | none
  /-- A `FROM` clause. -/
  | source (table : TableRef)
  /-- The clauses on the left and one more `JOIN`. -/
  | join (left : Tables) (kind : JoinKind) (table : TableRef) (on : Expr)
end

/-- A statement. -/
structure Statement where
  /-- The tables that it reads. -/
  tables : Tables
  /-- Its other clauses. -/
  clauses : Clauses

end FluentSql
