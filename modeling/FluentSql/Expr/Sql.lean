import FluentSql.Expr.Basic
import FluentSql.Number.Shortest
import FluentSql.Text.Case
import FluentSql.Text.Name

/-!
# Expressions in SQL

Every operator is written with parentheses around it and its operands, and names and texts are
quoted where they have to be.
-/

namespace FluentSql

/-- A constant in SQL. Numbers that are not finite are written as texts of the type DOUBLE. -/
def Literal.toSql : Literal → String
  | text s => Text.enclosed '\'' s
  | integer i => toString i.toInt
  | float (.finite negative rank) => (Double.finite negative rank).text
  | float x => "'" ++ x.text ++ "'::DOUBLE"
  | boolean true => "true"
  | boolean false => "false"

namespace Expr

/-- An expression in SQL. -/
def toSql : Expr → String
  | column name => Text.sqlName name
  | literal value => value.toSql
  | binary left op right => "(" ++ left.toSql ++ " " ++ op.sql ++ " " ++ right.toSql ++ ")"
  | nullTest operand test => "(" ++ operand.toSql ++ " " ++ test.sql ++ ")"
  | range operand test lower upper =>
    "(" ++ operand.toSql ++ " " ++ test.sql ++ " " ++ lower.toSql ++ " AND " ++ upper.toSql ++ ")"
  | cast operand dataType => "TRY_CAST(" ++ operand.toSql ++ " AS " ++ Text.upper dataType ++ ")"
  | named operand name => operand.toSql ++ " AS " ++ Text.sqlName name
  | sort operand direction => operand.toSql ++ " " ++ direction.sql
  | aggregate function operand => function.sql ++ "(" ++ operand.toSql ++ ")"

/-- Expressions in SQL, separated by commas. -/
def listSql (items : List Expr) : String :=
  ", ".intercalate (items.map toSql)

end Expr

end FluentSql
