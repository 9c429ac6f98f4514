import FluentSql.Statement.OfQuery
import FluentSql.Statement.Pretty

/-!
# Queries in SQL
-/

namespace FluentSql

namespace Query

/-- The SQL of a query on one line. -/
def toCompactSql (q : Query) : String :=
  q.statement.compact

/-- The SQL of a query on many lines, with `indent` spaces a level. -/
def toSql (q : Query) (indent : Nat) : String :=
  q.statement.pretty indent

end Query

end FluentSql
