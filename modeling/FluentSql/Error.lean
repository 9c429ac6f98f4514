import FluentSql.Script.Kind

/-!
# Errors

Building and rendering a query never fails. Errors describe scripts that cannot be read or
evaluated, and SQL that is not one statement.
-/

namespace FluentSql

namespace Except

/-- A computation with a second part succeeds when both parts do. -/
theorem bind_eq_ok {ε α β : Type} {x : Except ε α} {f : α → Except ε β} {b : β} :
    x >>= f = .ok b ↔ ∃ a, x = .ok a ∧ f a = .ok b := by
  cases x <;> simp [bind, Except.bind]

/-- A changed result is the result of a success. -/
theorem map_eq_ok {ε α β : Type} {x : Except ε α} {f : α → β} {b : β} :
    f <$> x = .ok b ↔ ∃ a, x = .ok a ∧ f a = b := by
  cases x <;> simp [Functor.map, Except.map]

/-- A success is one whatever becomes of an error. -/
theorem mapError_eq_ok {ε ε' α : Type} {x : Except ε α} {f : ε → ε'} {a : α} :
    x.mapError f = .ok a ↔ x = .ok a := by
  cases x with
  | error e =>
    constructor
    all_goals
      intro h
      cases h
  | ok b =>
    constructor
    · intro h
      rw [← Except.ok.inj h]
    · intro h
      rw [← Except.ok.inj h]
      rfl

end Except

/-- Why a script cannot be read. -/
inductive ReadCause
  /-- Something else was expected; the text says what stands there, and is empty at the end. -/
  | unexpected (snippet : String)
  /-- Expressions are nested too deep; the number is the greatest depth allowed. -/
  | tooDeep (limit : Nat)
deriving DecidableEq

namespace ReadCause

/-- The cause in words. -/
def message : ReadCause → String
  | unexpected snippet =>
    if snippet = "" then "unexpected end of input"
    else "unexpected input near '" ++ snippet ++ "'"
  | tooDeep limit => "expression nested deeper than " ++ toString limit ++ " levels"

end ReadCause

/-- What is wrong with the arguments of a call. -/
inductive ArgumentCause
  /-- The number of arguments. -/
  | count (expected actual : Nat)
  /-- The number of arguments of a join. -/
  | joinCount (actual : Nat)
  /-- A string was expected. -/
  | notString (actual : Kind)
  /-- An expression was expected. -/
  | notExpression (actual : Kind)
  /-- A table name or a query to read from was expected. -/
  | notSource (actual : Kind)
  /-- A query to join with was expected. -/
  | notQuery (actual : Kind)
  /-- An integer was expected. -/
  | notInteger (actual : Kind)
  /-- A number of rows was expected. -/
  | negative (actual : Int64)
  /-- The name of a join kind was expected. -/
  | unknownJoin (name : String)
deriving DecidableEq

/-- The cause in words. -/
def ArgumentCause.message : ArgumentCause → String
  | count expected actual =>
    "expected " ++ toString expected ++ " argument(s), got " ++ toString actual
  | joinCount actual => "expected 2 or 3 arguments, got " ++ toString actual
  | notString actual => "expected a string, got " ++ actual.name
  | notExpression actual => "expected an expression, got " ++ actual.name
  | notSource actual => "expected a table name or query, got " ++ actual.name
  | notQuery actual => "expected a query, got " ++ actual.name
  | notInteger actual => "expected an integer, got " ++ actual.name
  | negative actual => "expected a non-negative integer, got " ++ toString actual.toInt
  | unknownJoin name => "unknown join kind '" ++ name ++ "'"

/-- What is wrong with SQL. -/
inductive SqlCause
  /-- It cannot be parsed, for the reason given. -/
  | unparsed (reason : String)
  /-- The number of statements is not one. -/
  | count (statements : Nat)
deriving DecidableEq

/-- The cause in words. -/
def SqlCause.message : SqlCause → String
  | unparsed reason => reason
  | count statements => "expected 1 statement, found " ++ toString statements

/-- An error of a script or of the SQL that comes of it. -/
inductive Error
  /-- The script cannot be read; the position counts bytes. -/
  | parse (position : Nat) (cause : ReadCause)
  /-- A value of the kind has no such method. -/
  | unsupportedMethod (target : Kind) (method : String)
  /-- There is no such function. -/
  | unknownFunction (name : String)
  /-- Nothing is bound to the name. -/
  | unboundVariable (name : String)
  /-- The arguments of a call are of the wrong number or kind. -/
  | invalidArgument (method : String) (cause : ArgumentCause)
  /-- The script does not end in a query. -/
  | notAQuery (actual : Kind)
  /-- The SQL is not one statement. -/
  | invalidSql (cause : SqlCause)
deriving DecidableEq

/-- The error in words. -/
def Error.message : Error → String
  | parse position cause =>
    "Parse error at position " ++ toString position ++ ": " ++ cause.message
  | unsupportedMethod target method =>
    "Unsupported method '" ++ method ++ "' on " ++ target.name
  | unknownFunction name => "Unknown function '" ++ name ++ "'"
  | unboundVariable name => "Unbound variable '" ++ name ++ "'"
  | invalidArgument method cause =>
    "Invalid argument for '" ++ method ++ "': " ++ cause.message
  | notAQuery actual => "Evaluated code is not a query (got " ++ actual.name ++ ")"
  | invalidSql cause => "Invalid SQL: " ++ cause.message

end FluentSql
