import FluentSql.Error
import FluentSql.Query.Builder

/-!
# Values of builder scripts

What an expression of a script stands for, and the readings of a value that the position of an
argument calls for.
-/

namespace FluentSql

/-- A namespace of functions. -/
inductive Namespace
  /-- The starting points of queries, `XQL`. -/
  | queries
  /-- The functions of columns, `F`. -/
  | functions
deriving DecidableEq

/-- The name of a namespace in scripts. -/
def Namespace.name : Namespace → String
  | queries => "XQL"
  | functions => "F"

/-- A value. -/
inductive Value
  /-- A query. -/
  | query (query : Query)
  /-- An expression over columns. -/
  | expr (expr : Expr)
  /-- A string. -/
  | string (value : String)
  /-- An integer. -/
  | integer (value : Int64)
  /-- A binary64 number. -/
  | float (value : Double)
  /-- A truth value. -/
  | boolean (value : Bool)
  /-- A namespace. -/
  | scope (value : Namespace)
deriving DecidableEq

namespace Value

/-- The kind of a value. -/
def kind : Value → Kind
  | query _ => .query
  | expr _ => .expression
  | string _ => .string
  | integer _ => .integer
  | float _ => .float
  | boolean _ => .boolean
  | scope _ => .namespace

/-- The value as a string argument of a method. -/
def toText (method : String) : Value → Except Error String
  | string s => .ok s
  | v => .error (.invalidArgument method (.notString v.kind))

/-- The value as an expression argument: a plain value is a constant. -/
def toScalar (method : String) : Value → Except Error Expr
  | expr e => .ok e
  | string s => .ok (.literal (.text s))
  | integer i => .ok (.literal (.integer i))
  | float x => .ok (.literal (.float x))
  | boolean b => .ok (.literal (.boolean b))
  | v => .error (.invalidArgument method (.notExpression v.kind))

/-- The value as a column argument: a string names a column. -/
def toColumn (method : String) : Value → Except Error Expr
  | string s => .ok (.column s)
  | v => v.toScalar method

/-- The value as a number of rows. -/
def toCount (method : String) : Value → Except Error UInt64
  | integer i =>
    if 0 ≤ i.toInt then .ok (UInt64.ofNat i.toInt.toNat)
    else .error (.invalidArgument method (.negative i))
  | v => .error (.invalidArgument method (.notInteger v.kind))

/-- The query that a value to read from stands for. -/
def toSource (method : String) : Value → Except Error Query
  | string name => .ok (.table name)
  | query q => .ok (.subquery q)
  | v => .error (.invalidArgument method (.notSource v.kind))

/-- The value as a query to join with: a string names a table. -/
def toPartner (method : String) : Value → Except Error Query
  | query q => .ok q
  | string name => .ok (.table name)
  | v => .error (.invalidArgument method (.notQuery v.kind))

/-- The value as the name of a kind of join. -/
def toJoinKind (method : String) (v : Value) : Except Error JoinKind := do
  let name ← v.toText method
  match JoinKind.ofName? name with
  | some kind => .ok kind
  | none => .error (.invalidArgument method (.unknownJoin name))

end Value

end FluentSql
