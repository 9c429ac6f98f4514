import FluentSql.Script.Grammar
import FluentSql.Script.Value

/-!
# Evaluating builder scripts

An expression is evaluated against bindings, which hide the namespaces `XQL` and `F`. The arguments
of a call come before its target, from left to right, and the first error is the answer.
-/

namespace FluentSql

/-- The values bound to names; the first entry for a name counts. -/
abbrev Bindings := List (String × Value)

namespace Script

/-- The only argument of a call. -/
def single (method : String) : List Value → Except Error Value
  | [v] => .ok v
  | vs => .error (.invalidArgument method (.count 1 vs.length))

/-- There are no arguments. -/
def noArguments (method : String) : List Value → Except Error Unit
  | [] => .ok ()
  | vs => .error (.invalidArgument method (.count 0 vs.length))

/-- The arguments as columns. -/
def columns (method : String) (arguments : List Value) : Except Error (List Expr) :=
  arguments.mapM (Value.toColumn method)

/-- The column with the name given by the only argument. -/
def columnCall (name : String) (arguments : List Value) : Except Error Value := do
  let column ← (← single name arguments).toText name
  return .expr (.column column)

/-- A call of a free function. -/
def callFunction (name : String) (arguments : List Value) : Except Error Value :=
  if name = "c" ∨ name = "col" then columnCall name arguments
  else .error (.unknownFunction name)

/-- A call in the namespace `XQL`. -/
def callQueries (name : String) (arguments : List Value) : Except Error Value :=
  match name with
  | "from" => do return .query (← (← single name arguments).toSource name)
  | "select" => do return .query (.ofColumns (← columns name arguments))
  | _ => .error (.unknownFunction ("XQL." ++ name))

/-- A call in the namespace `F`. -/
def callFunctions (name : String) (arguments : List Value) : Except Error Value :=
  match Aggregate.ofFunction? name with
  | some function => do
    let column ← (← single name arguments).toColumn name
    return .expr (.aggregate function column)
  | none =>
    match name with
    | "col" => columnCall name arguments
    | "lit" => do return .expr (← (← single name arguments).toScalar name)
    | _ => .error (.unknownFunction ("F." ++ name))

/-- A call of a method of an expression other than an operator. -/
def callPlainMethod (e : Expr) (name : String) (arguments : List Value) : Except Error Expr :=
  match name with
  | "cast" => do return .cast e (← (← single name arguments).toText name)
  | "alias" => do return .named e (← (← single name arguments).toText name)
  | "asc" => do noArguments name arguments; return .sort e .asc
  | "desc" => do noArguments name arguments; return .sort e .desc
  | _ => .error (.unsupportedMethod .expression name)

/-- A call of a method of an expression. -/
def callExprMethod (e : Expr) (name : String) (arguments : List Value) : Except Error Expr :=
  match BinaryOp.ofMethod? name, NullTest.ofMethod? name, RangeTest.ofMethod? name with
  | some op, _, _ => do
    let right ← (← single name arguments).toScalar name
    return .binary e op right
  | none, some test, _ => do
    noArguments name arguments
    return .nullTest e test
  | none, none, some test =>
    match arguments with
    | [lower, upper] => do
      let lower ← lower.toScalar name
      let upper ← upper.toScalar name
      return .range e test lower upper
    | _ => .error (.invalidArgument name (.count 2 arguments.length))
  | none, none, none => callPlainMethod e name arguments

/-- A join with the given arguments: a query, a condition, and perhaps a kind. -/
def callJoin (q : Query) (name : String) (arguments : List Value) : Except Error Query := do
  let (other, on, kind) ← match arguments with
    | [other, on] => pure (other, on, none)
    | [other, on, kind] => pure (other, on, some kind)
    | _ => .error (.invalidArgument name (.joinCount arguments.length))
  let other ← other.toPartner name
  let on ← on.toScalar name
  let kind ← match kind with
    | none => pure .inner
    | some kind => kind.toJoinKind name
  return q.joinWith other on kind

/-- A call of a method of a query. -/
def callQueryMethod (q : Query) (name : String) (arguments : List Value) : Except Error Query :=
  match name with
  | "select" => do return q.select (← columns name arguments)
  | "distinct" => do return q.distinctOn (← columns name arguments)
  | "filter" => do return q.filter (← (← single name arguments).toScalar name)
  | "group_by" => do return q.groupBy (← columns name arguments)
  | "agg" => do return q.agg (← columns name arguments)
  | "order_by" => do return q.orderBy (← columns name arguments)
  | "with_columns" => do return q.withColumns (← columns name arguments)
  | "join" => callJoin q name arguments
  | "limit" => do return q.limit (← (← single name arguments).toCount name)
  | "offset" => do return q.offset (← (← single name arguments).toCount name)
  | _ => .error (.unsupportedMethod .query name)

/-- A call of a method of a value. -/
def callMethod (target : Value) (name : String) (arguments : List Value) : Except Error Value :=
  match target with
  | .scope .queries => callQueries name arguments
  | .scope .functions => callFunctions name arguments
  | .expr e => .expr <$> callExprMethod e name arguments
  | .query q => .query <$> callQueryMethod q name arguments
  | v => .error (.unsupportedMethod v.kind name)

/-- The value of a bare name. -/
def lookup (bindings : Bindings) (name : String) : Except Error Value :=
  match bindings.lookup name with
  | some v => .ok v
  | none =>
    if name = Namespace.queries.name then .ok (.scope .queries)
    else if name = Namespace.functions.name then .ok (.scope .functions)
    else .error (.unboundVariable name)

mutual
/-- The value of an expression. -/
def eval (bindings : Bindings) : Node → Except Error Value
  | .string s => .ok (.string s)
  | .integer i => .ok (.integer i)
  | .float x => .ok (.float x)
  | .boolean b => .ok (.boolean b)
  | .name name => lookup bindings name
  | .call function arguments => do callFunction function (← evalList bindings arguments)
  | .method target method arguments => do
    let arguments ← evalList bindings arguments
    callMethod (← eval bindings target) method arguments

/-- The values of expressions, from left to right. -/
def evalList (bindings : Bindings) : List Node → Except Error (List Value)
  | [] => .ok []
  | node :: nodes => do
    let v ← eval bindings node
    return v :: (← evalList bindings nodes)
end

/-- Evaluates bindings in order. The bindings made before an error stay. -/
def bindAll (bindings : Bindings) : List Binding → Bindings × Except Error Unit
  | [] => (bindings, .ok ())
  | b :: bs =>
    match eval bindings b.value with
    | .ok v => bindAll ((b.name, v) :: bindings) bs
    | .error e => (bindings, .error e)

/-- Bindings after others are evaluated unless those before them fail. -/
theorem bindAll_append (start : Bindings) (before after : List Binding) :
    bindAll start (before ++ after) =
      match bindAll start before with
      | (bindings, .ok ()) => bindAll bindings after
      | (bindings, .error e) => (bindings, .error e) := by
  induction before generalizing start with
  | nil => rfl
  | cons b before ih =>
    rw [List.cons_append, bindAll, bindAll]
    cases eval start b.value with
    | ok v => exact ih ((b.name, v) :: start)
    | error e => rfl

/-- The query that an expression stands for. -/
def evalQuery (bindings : Bindings) (body : Node) : Except Error Query := do
  match ← eval bindings body with
  | .query q => return q
  | v => .error (.notAQuery v.kind)

/-- Evaluates a script against bindings, to the bindings after it and its query. -/
def run (bindings : Bindings) (script : Script) : Bindings × Except Error Query :=
  let (bindings, outcome) := bindAll bindings script.bindings
  (bindings, do outcome; evalQuery bindings script.body)

end Script

/-- The query that the text of a script stands for. -/
def Query.ofScript (text : String) : Except Error Query := do
  (Script.run [] (← Script.ofText text)).2

end FluentSql
