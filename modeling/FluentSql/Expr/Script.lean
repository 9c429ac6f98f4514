import FluentSql.Expr.Basic
import FluentSql.Number.Shortest
import FluentSql.Text.Quoted

/-!
# Expressions in builder scripts

An expression is written as the chain of calls that builds it.
-/

namespace FluentSql

/-- A constant in a script. -/
def Literal.toScript : Literal → String
  | text s => Text.quoted s
  | integer i => toString i.toInt
  | float x => x.text
  | boolean true => "true"
  | boolean false => "false"

namespace Expr

/-- An expression in a script. -/
def toScript : Expr → String
  | column name => "c(" ++ Text.quoted name ++ ")"
  | literal value => "F.lit(" ++ value.toScript ++ ")"
  | binary left op right => left.toScript ++ "." ++ op.method ++ "(" ++ right.toScript ++ ")"
  | nullTest operand test => operand.toScript ++ "." ++ test.method ++ "()"
  | range operand test lower upper =>
    operand.toScript ++ "." ++ test.method ++ "(" ++ lower.toScript ++ ", " ++ upper.toScript ++ ")"
  | cast operand dataType => operand.toScript ++ ".cast(" ++ Text.quoted dataType ++ ")"
  | named operand name => operand.toScript ++ ".alias(" ++ Text.quoted name ++ ")"
  | sort operand direction => operand.toScript ++ "." ++ direction.method ++ "()"
  | aggregate function operand => "F." ++ function.function ++ "(" ++ operand.toScript ++ ")"

/-- Expressions in a script, separated by commas. -/
def listScript (items : List Expr) : String :=
  ", ".intercalate (items.map toScript)

end Expr

end FluentSql
