import FluentSql.Expr.Script
import FluentSql.Query.Projection

/-!
# Queries as builder scripts

A script names each nested query in a statement of its own, dependencies first, and ends with the
calls that build the query. A nested query that is a bare table is written where it is used, and
superseded projections are left out.
-/

namespace FluentSql

/-- A step as a method call. -/
def Step.toScript (s : Step) : String :=
  let arguments := match s with
    | select columns | groupBy columns | agg columns | orderBy columns | withColumns columns =>
      Expr.listScript columns
    | distinct none => ""
    | distinct (some subset) => Expr.listScript subset
    | filter predicate => predicate.toScript
    | limit count | offset count => toString count.toNat
  s.kind.method ++ "(" ++ arguments ++ ")"

namespace Query

/-- The call that starts with a table. -/
def tableScript (name : String) : String :=
  "XQL.from(" ++ Text.quoted name ++ ")"

/-- The name of the nested query with a number. -/
def bindingName (index : Nat) : String :=
  "t" ++ toString index

/-- The text that stands for a nested query, given how its own calls are written after some
statements, and the statements after it. -/
def scriptReference (q : Query) (calls : List String → String × List String)
    (before : List String) : String × List String :=
  match q.tableName? with
  | some name => (tableScript name, before)
  | none =>
    let (text, statements) := calls before
    let name := bindingName statements.length
    (name, statements ++ ["const " ++ name ++ " = " ++ text ++ ";"])

/-- The calls that build a query, each method on a line that starts with `margin`, and the
statements for nested queries, which follow those in `before`. -/
def calls (margin : String) : Query → List String → String × List String
  | sourceless, before => ("XQL.select()", before)
  | table name, before => (tableScript name, before)
  | subquery inner, before =>
    let (reference, statements) := scriptReference inner (calls margin inner) before
    ("XQL.from(" ++ reference ++ ")", statements)
  | step sourceless (.select columns), before =>
    ("XQL.select(" ++ Expr.listScript columns ++ ")", before)
  | step prior next, before =>
    let (text, statements) := calls margin prior before
    (text ++ "\n" ++ margin ++ "." ++ next.toScript, statements)
  | join prior other on kind, before =>
    let (text, between) := calls margin prior before
    let (reference, statements) := scriptReference other (calls margin other) between
    (text ++ "\n" ++ margin ++ ".join(" ++ reference ++ ", " ++ on.toScript ++ ", " ++
      Text.quoted kind.name ++ ")", statements)

/-- The script of a query, with `indent` spaces before each method. -/
def toScript (q : Query) (indent : Nat) : String :=
  let (text, statements) :=
    q.pruned.calls (String.ofList (List.replicate indent ' ')) []
  "\n".intercalate (statements ++ [text])

end Query

end FluentSql
