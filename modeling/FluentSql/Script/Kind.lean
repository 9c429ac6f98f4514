/-!
# Kinds of values
-/

namespace FluentSql

/-- The kind of a value that a builder script computes. -/
inductive Kind
  | query | expression | string | integer | float | boolean | namespace
deriving DecidableEq

/-- The kind as messages name it. -/
def Kind.name : Kind → String
  | query => "query"
  | expression => "expression"
  | string => "string"
  | integer => "integer"
  | float => "float"
  | boolean => "boolean"
  | «namespace» => "namespace"

end FluentSql
