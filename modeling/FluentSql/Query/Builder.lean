import FluentSql.Query.Basic
import FluentSql.Text.Case

/-!
# Building queries

Every method gives a new query. An operation goes into the last segment unless that segment already
holds an operation which it cannot share a `SELECT` with; then it opens a new segment that reads
from the whole query.
-/

namespace FluentSql

/-- The kind of join of a name, in any letter case. -/
def JoinKind.ofName? (name : String) : Option JoinKind :=
  all.find? fun kind => Text.equalIgnoringCase kind.name name

/-- A kind of join is found by its name. -/
theorem JoinKind.ofName?_name (kind : JoinKind) : ofName? kind.name = some kind := by
  cases kind <;> decide

namespace Query

/-- The last segment holds an operation that one of the given kind cannot follow. -/
def conflictsWith (q : Query) (kind : OperationKind) : Bool :=
  q.operations.any fun prior => kind.conflicts.contains prior.kind

/-- The query with one more operation, in a segment of its own if it has to be. -/
def apply (q : Query) (next : Operation) : Query :=
  if q.conflictsWith next.kind then (subquery q).append next else q.append next

/-- An operation that needs a segment of its own reads from the whole query. -/
theorem source_apply (q : Query) (next : Operation) :
    (q.apply next).source =
      if q.conflictsWith next.kind then some (.query q) else q.source := by
  unfold apply
  split <;> simp [source]

/-- An operation that needs a segment of its own is the first one there. -/
theorem operations_apply (q : Query) (next : Operation) :
    (q.apply next).operations =
      if q.conflictsWith next.kind then [next] else q.operations ++ [next] := by
  unfold apply
  split <;> simp [operations]

/-- Projects columns; without any, all columns. -/
def select (q : Query) (columns : List Expr) : Query :=
  q.apply (.step (.select (if columns.isEmpty then [.column "*"] else columns)))

/-- A query without a source that projects columns. -/
def ofColumns (columns : List Expr) : Query :=
  sourceless.select columns

/-- Drops repeated rows. -/
def distinct (q : Query) : Query :=
  q.apply (.step (.distinct none))

/-- Drops rows that repeat the columns of a subset; without any, repeated rows. -/
def distinctOn (q : Query) (subset : List Expr) : Query :=
  if subset.isEmpty then q.distinct else q.apply (.step (.distinct (some subset)))

/-- Keeps the rows that satisfy a predicate, besides those given before. -/
def filter (q : Query) (predicate : Expr) : Query :=
  q.apply (.step (.filter predicate))

/-- Groups rows by columns. -/
def groupBy (q : Query) (columns : List Expr) : Query :=
  q.apply (.step (.groupBy columns))

/-- Aggregates each group. -/
def agg (q : Query) (aggregations : List Expr) : Query :=
  q.apply (.step (.agg aggregations))

/-- Sorts rows by keys. -/
def orderBy (q : Query) (keys : List Expr) : Query :=
  q.apply (.step (.orderBy keys))

/-- Overwrites columns in place; only entries with an alias take effect in SQL. -/
def withColumns (q : Query) (columns : List Expr) : Query :=
  q.apply (.step (.withColumns columns))

/-- Joins the rows of another query. -/
def joinWith (q other : Query) (on : Expr) (kind : JoinKind) : Query :=
  q.apply (.join other on kind)

/-- Keeps the first rows. -/
def limit (q : Query) (count : UInt64) : Query :=
  q.apply (.step (.limit count))

/-- Leaves out the first rows. -/
def offset (q : Query) (count : UInt64) : Query :=
  q.apply (.step (.offset count))

/-- The names that the columns of a list are known by: a column's own, or an alias. -/
def knownNames (columns : List Expr) : List String :=
  columns.filterMap fun
    | .column name => some name
    | e => e.givenName?

/-- The name doubled until none of the others is equal to it. Each doubling is a longer name, so as
many tries as there are names are enough. -/
def freshName (names : List String) : Nat → String → String
  | 0, name => name
  | tries + 1, name =>
    if names.contains name then freshName names tries (name ++ "_" ++ name) else name

/-- The name of the column that holds the counts of the values of some columns. -/
def countName (columns : List Expr) : String :=
  let names := knownNames columns
  freshName names names.length "count"

/-- Counts how often each combination of values occurs, the most frequent first. -/
def valueCounts (q : Query) (columns : List Expr) : Query :=
  if columns.isEmpty then q
  else
    let name := countName columns
    ((q.groupBy columns).agg [.named (.aggregate .count (.column "*")) name]).orderBy
      [.sort (.column name) .desc]

/-- Converts a column in place. The conversion joins those of a last overwriting operation. -/
def withCast (q : Query) (column dataType : String) : Query :=
  let cast := Expr.named (.cast (.column column) (Text.upper dataType)) column
  match q with
  | step prior (.withColumns columns) => step prior (.withColumns (columns ++ [cast]))
  | _ => q.withColumns [cast]

/-- Sorts by a column. The column joins the keys of a last sort. -/
def sortBy (q : Query) (column : String) (direction : SortDirection) : Query :=
  let key := Expr.sort (.column column) direction
  match q with
  | step prior (.orderBy keys) => step prior (.orderBy (keys ++ [key]))
  | _ => q.orderBy [key]

end Query

end FluentSql
