import FluentSql.Expr.Operator
import FluentSql.Number.Double

/-!
# Expressions

Scalar expressions over the columns of a query.
-/

namespace FluentSql

/-- A constant. -/
inductive Literal
  /-- A text. -/
  | text (value : String)
  /-- A signed 64-bit integer. -/
  | integer (value : Int64)
  /-- A binary64 number. -/
  | float (value : Double)
  /-- A truth value. -/
  | boolean (value : Bool)
deriving DecidableEq

/-- A scalar expression. -/
inductive Expr
  /-- A column by name; `*` stands for all columns. -/
  | column (name : String)
  /-- A constant. -/
  | literal (value : Literal)
  /-- An operator between two operands. -/
  | binary (left : Expr) (op : BinaryOp) (right : Expr)
  /-- A test for a missing value. -/
  | nullTest (operand : Expr) (test : NullTest)
  /-- A test against two bounds. -/
  | range (operand : Expr) (test : RangeTest) (lower upper : Expr)
  /-- A conversion that gives no value where it fails. -/
  | cast (operand : Expr) (dataType : String)
  /-- An expression with a name of its own. -/
  | named (operand : Expr) (name : String)
  /-- A sort key with its direction. -/
  | sort (operand : Expr) (direction : SortDirection)
  /-- A function of all values of a column. -/
  | aggregate (function : Aggregate) (operand : Expr)
deriving DecidableEq

namespace Expr

/-- The expression stands for all columns. -/
def isWildcard : Expr → Bool
  | column name => name == "*"
  | _ => false

/-- The name that an aliased expression carries. -/
def givenName? : Expr → Option String
  | named _ name => some name
  | _ => none

end Expr

end FluentSql
