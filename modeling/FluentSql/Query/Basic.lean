import FluentSql.Expr.Basic

/-!
# Queries

A query is a source of rows and the operations applied to them in order. A query that another one
reads from is nested in it; the operations between two nestings form a segment.
-/

namespace FluentSql

/-- A kind of join between two queries. -/
inductive JoinKind
  | inner | left | right | full | semi | anti
deriving DecidableEq

namespace JoinKind

/-- All kinds of join. -/
def all : List JoinKind :=
  [inner, left, right, full, semi, anti]

/-- The name of the kind in a script. -/
def name : JoinKind → String
  | inner => "inner"
  | left => "left"
  | right => "right"
  | full => "full"
  | semi => "semi"
  | anti => "anti"

/-- The kind in SQL. -/
def sql : JoinKind → String
  | inner => "INNER"
  | left => "LEFT"
  | right => "RIGHT"
  | full => "FULL"
  | semi => "SEMI"
  | anti => "ANTI"

end JoinKind

/-- An operation on the rows of one query. -/
inductive Step
  /-- Projects columns. -/
  | select (columns : List Expr)
  /-- Drops repeated rows, or rows that repeat the columns of a subset. -/
  | distinct (subset : Option (List Expr))
  /-- Keeps the rows that satisfy a predicate. -/
  | filter (predicate : Expr)
  /-- Groups rows. -/
  | groupBy (columns : List Expr)
  /-- Aggregates each group. -/
  | agg (aggregations : List Expr)
  /-- Sorts rows. -/
  | orderBy (keys : List Expr)
  /-- Overwrites columns in place. -/
  | withColumns (columns : List Expr)
  /-- Keeps the first rows. -/
  | limit (count : UInt64)
  /-- Leaves out the first rows. -/
  | offset (count : UInt64)
deriving DecidableEq

/-- A query, built up from its source. -/
inductive Query
  /-- No source: the query projects constants. -/
  | sourceless
  /-- The rows of a table. -/
  | table (name : String)
  /-- The rows of another query. -/
  | subquery (inner : Query)
  /-- A query and one more operation on its rows. -/
  | step (prior : Query) (next : Step)
  /-- A query joined with another one. -/
  | join (prior other : Query) (on : Expr) (kind : JoinKind)
deriving DecidableEq

/-- One operation of a query. -/
inductive Operation
  /-- An operation on the rows of one query. -/
  | step (next : Step)
  /-- A join with another query. -/
  | join (other : Query) (on : Expr) (kind : JoinKind)
deriving DecidableEq

/-- Where a query reads its rows from. -/
inductive Source
  /-- A table. -/
  | table (name : String)
  /-- Another query. -/
  | query (inner : Query)
deriving DecidableEq

/-- The kind of an operation. -/
inductive OperationKind
  | select | distinct | filter | groupBy | agg | orderBy | withColumns | join | limit | offset
deriving DecidableEq

namespace OperationKind

/-- The method that applies operations of the kind. -/
def method : OperationKind → String
  | select => "select"
  | distinct => "distinct"
  | filter => "filter"
  | groupBy => "group_by"
  | agg => "agg"
  | orderBy => "order_by"
  | withColumns => "with_columns"
  | join => "join"
  | limit => "limit"
  | offset => "offset"

/-- The kinds of earlier operations that an operation of this kind cannot share a segment with. -/
def conflicts : OperationKind → List OperationKind
  | select => [withColumns, groupBy, agg]
  | groupBy => [groupBy, agg, orderBy]
  | agg => [agg, orderBy, distinct]
  | withColumns => [select, withColumns, groupBy, agg]
  | distinct | filter | orderBy | join | limit | offset => []

end OperationKind

/-- The kind of a step. -/
def Step.kind : Step → OperationKind
  | select _ => .select
  | distinct _ => .distinct
  | filter _ => .filter
  | groupBy _ => .groupBy
  | agg _ => .agg
  | orderBy _ => .orderBy
  | withColumns _ => .withColumns
  | limit _ => .limit
  | offset _ => .offset

/-- The kind of an operation. -/
def Operation.kind : Operation → OperationKind
  | step next => next.kind
  | join .. => .join

namespace Query

/-- The source of the last segment. -/
def source : Query → Option Source
  | sourceless => none
  | table name => some (.table name)
  | subquery inner => some (.query inner)
  | step prior _ | join prior .. => prior.source

/-- The operations of the last segment, in the order in which they were applied. -/
def operations : Query → List Operation
  | sourceless | table _ | subquery _ => []
  | step prior next => prior.operations ++ [.step next]
  | join prior other on kind => prior.operations ++ [.join other on kind]

/-- The name of the table when the query is a table and nothing more. -/
def tableName? : Query → Option String
  | table name => some name
  | _ => none

/-- A query with the name of a table is that table. -/
theorem eq_table_of_tableName? {q : Query} {name : String} (h : q.tableName? = some name) :
    q = table name := by
  cases q with
  | table => rw [Option.some.inj h]
  | _ => cases h

/-- The query with one more operation in its last segment. -/
def append (q : Query) : Operation → Query
  | .step next => .step q next
  | .join other on kind => .join q other on kind

/-- One more operation keeps the source. -/
@[simp] theorem source_append (q : Query) (next : Operation) :
    (q.append next).source = q.source := by
  cases next <;> rfl

/-- One more operation comes after all others. -/
@[simp] theorem operations_append (q : Query) (next : Operation) :
    (q.append next).operations = q.operations ++ [next] := by
  cases next <;> rfl

end Query

end FluentSql
