import FluentSql.Number.Double

/-!
# Builder scripts

A script is a list of bindings and a final expression, all made of calls. Nothing here knows what
any name means.
-/

namespace FluentSql

/-- An expression of a script. -/
inductive Node
  /-- A string. -/
  | string (value : String)
  /-- An integer. -/
  | integer (value : Int64)
  /-- A number with a point or an exponent, or one that is not finite. -/
  | float (value : Double)
  /-- A truth value. -/
  | boolean (value : Bool)
  /-- A bare name. -/
  | name (name : String)
  /-- A call of a function. -/
  | call (function : String) (arguments : List Node)
  /-- A call of a method of a target. -/
  | method (target : Node) (method : String) (arguments : List Node)

/-- A name and the expression bound to it. -/
structure Binding where
  /-- The name. -/
  name : String
  /-- The expression. -/
  value : Node

/-- A script. -/
structure Script where
  /-- The bindings, in order. -/
  bindings : List Binding
  /-- The final expression. -/
  body : Node

end FluentSql
