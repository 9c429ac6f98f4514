import FluentSql.Query.Projection
import FluentSql.Statement.Basic

/-!
# From queries to statements

Each segment becomes one statement. A nested query that is a bare table is read by name; every other
one becomes a nested statement under the next alias `t0`, `t1`, … . A nested statement keeps neither
order nor limits, which belong to the outermost statement alone.
-/

namespace FluentSql

/-- The alias with a number. -/
def subqueryAlias (index : Nat) : String :=
  "t" ++ toString index

namespace Query

/-- What a segment keeps of repeated rows; its first request counts. -/
def distinctClause (q : Query) : Option Distinct :=
  q.operations.findSome? fun
    | .step (.distinct none) => some .all
    | .step (.distinct (some subset)) => some (.on subset)
    | _ => none

/-- All predicates of a segment. -/
def filterClauses (q : Query) : List Expr :=
  q.operations.filterMap fun
    | .step (.filter predicate) => some predicate
    | _ => none

/-- The columns of the first grouping of a segment. -/
def groupClause (q : Query) : List Expr :=
  (q.operations.findSome? fun
    | .step (.groupBy columns) => some columns
    | _ => none).getD []

/-- The first aggregation of a segment. -/
def aggregations (q : Query) : Option (List Expr) :=
  q.operations.findSome? fun
    | .step (.agg items) => some items
    | _ => none

/-- The first overwriting of columns in a segment. -/
def overwrites (q : Query) : Option (List Expr) :=
  q.operations.findSome? fun
    | .step (.withColumns columns) => some columns
    | _ => none

/-- What a segment projects: the groups and their aggregates, or the overwritten columns that carry
an alias, or the columns of the projection in effect. -/
def projectionClause (q : Query) : Projection :=
  match q.aggregations, q.overwrites, q.projectedColumns with
  | some items, _, _ => .items (q.groupClause ++ items)
  | none, some columns, _ => .replace (columns.filter (·.givenName?.isSome))
  | none, none, some columns => .items columns
  | none, none, none => .wildcard

/-- The keys of the last sort of a segment. -/
def orderClause (q : Query) : List Expr :=
  (q.operations.reverse.findSome? fun
    | .step (.orderBy keys) => some keys
    | _ => none).getD []

/-- The first limit of a segment. -/
def limitClause (q : Query) : Option UInt64 :=
  q.operations.findSome? fun
    | .step (.limit count) => some count
    | _ => none

/-- The first offset of a segment. -/
def offsetClause (q : Query) : Option UInt64 :=
  q.operations.findSome? fun
    | .step (.offset count) => some count
    | _ => none

/-- The clauses of the statement of a segment, other than its tables. -/
def clauses (q : Query) (nested : Bool) : Clauses where
  distinct := q.distinctClause
  projection := q.projectionClause
  filters := q.filterClauses
  groupBy := q.groupClause
  orderBy := if nested then [] else q.orderClause
  limit := if nested then none else q.limitClause
  offset := if nested then none else q.offsetClause

/-- The reference to a nested query, given how its own tables are read from the next alias number
on, and the alias number after it. An alias is numbered before those inside it. -/
def reference (q : Query) (tables : Nat → Tables × Nat) (next : Nat) : TableRef × Nat :=
  match q.tableName? with
  | some name => (.table name, next)
  | none =>
    let (inner, after) := tables (next + 1)
    (.subquery inner (q.clauses true) (subqueryAlias next), after)

/-- The tables of a segment, where `next` numbers the next alias, and the alias number after them.
The source comes before the joins. -/
def tables : Query → Nat → Tables × Nat
  | sourceless, next => (.none, next)
  | table name, next => (.source (.table name), next)
  | subquery inner, next =>
    let (source, after) := reference inner (tables inner) next
    (.source source, after)
  | step prior _, next => tables prior next
  | join prior other on kind, next =>
    let (left, between) := tables prior next
    let (right, after) := reference other (tables other) between
    (.join left kind right on, after)

/-- The statement of a query, where `next` numbers the next alias, and the alias number after it. -/
def toStatement (q : Query) (nested : Bool) (next : Nat) : Statement × Nat :=
  let (tables, after) := q.tables next
  (⟨tables, q.clauses nested⟩, after)

/-- The statement of a query that stands alone. -/
def statement (q : Query) : Statement :=
  (q.toStatement false 0).1

end Query

end FluentSql
