import FluentSql.Expr.Sql
import FluentSql.Statement.Basic

/-!
# Statements on one line

The clauses of a statement in order, separated by single spaces; a clause without content is left
out.
-/

namespace FluentSql

/-- The words that follow `SELECT` for rows left out. -/
def Distinct.toSql : Distinct → String
  | all => "DISTINCT"
  | on subset => "DISTINCT ON (" ++ Expr.listSql subset ++ ")"

/-- The items of a projection. -/
def Projection.itemsSql : Projection → List String
  | wildcard | replace [] => ["*"]
  | items columns => columns.map Expr.toSql
  | replace columns => ["* REPLACE (" ++ Expr.listSql columns ++ ")"]

namespace Clauses

/-- The `SELECT` clause. -/
def selectClause (c : Clauses) : String :=
  "SELECT " ++ (c.distinct.elim "" fun d => d.toSql ++ " ") ++
    ", ".intercalate c.projection.itemsSql

/-- A clause that lists expressions, unless there are none. -/
def listClause (keyword separator : String) (items : List Expr) : List String :=
  if items.isEmpty then []
  else [keyword ++ " " ++ separator.intercalate (items.map Expr.toSql)]

/-- A clause with a number, unless there is none. -/
def countClause (keyword : String) (count : Option UInt64) : List String :=
  count.toList.map fun n => keyword ++ " " ++ toString n.toNat

/-- The clauses that follow the tables. -/
def tailClauses (c : Clauses) : List String :=
  listClause "WHERE" " AND " c.filters ++ listClause "GROUP BY" ", " c.groupBy ++
    listClause "ORDER BY" ", " c.orderBy ++ countClause "LIMIT" c.limit ++
    countClause "OFFSET" c.offset

/-- All clauses on one line, around those for the tables. -/
def line (c : Clauses) (tables : List String) : String :=
  " ".intercalate (c.selectClause :: tables ++ c.tailClauses)

end Clauses

mutual
/-- A table on one line. -/
def TableRef.compact : TableRef → String
  | .table name => name
  | .subquery tables clauses name => "(" ++ clauses.line tables.compactClauses ++ ") AS " ++ name

/-- The `FROM` clause and the `JOIN` clauses, each on one line. -/
def Tables.compactClauses : Tables → List String
  | .none => []
  | .source table => ["FROM " ++ table.compact]
  | .join left kind table on =>
    left.compactClauses ++ [kind.sql ++ " JOIN " ++ table.compact ++ " ON " ++ on.toSql]
end

/-- A statement on one line. -/
def Statement.compact (s : Statement) : String :=
  s.clauses.line s.tables.compactClauses

end FluentSql
