import FluentSql.Error
import FluentSql.Query.Sql
import FluentSql.Text.Blank

/-!
# Checking SQL

The SQL of a query is meant to be one statement. A parser of SQL decides on that, and the check is
told which one.
-/

namespace FluentSql

/-- A parser of SQL: the number of statements in a text, or why it cannot be parsed. -/
abbrev SqlParser := String → Except String Nat

namespace SqlParser

variable {parse : SqlParser} {sql : String}

/-- The parser finds one statement. -/
def check (parse : SqlParser) (sql : String) : Except Error Unit :=
  match parse sql with
  | .error reason => .error (.invalidSql (.unparsed reason))
  | .ok 1 => .ok ()
  | .ok statements => .error (.invalidSql (.count statements))

/-- SQL passes if the parser finds one statement. -/
theorem check_eq_ok {u : Unit} : parse.check sql = .ok u ↔ parse sql = .ok 1 := by
  unfold check
  split <;> simp_all

/-- The number of statements in the characters that follow: `quote` is the open quote, if there is
one, and `begun` says that a statement has begun. -/
def countFrom (quote : Option Char) (begun : Bool) : List Char → Nat
  | [] => if begun then 1 else 0
  | c :: cs =>
    match quote with
    | some q => countFrom (if c = q then none else quote) true cs
    | none =>
      if c = ';' then (if begun then 1 else 0) + countFrom none false cs
      else if c = '\'' ∨ c = '"' then countFrom (some c) true cs
      else countFrom none (begun || !Text.isBlank c) cs

/-- The parser that takes any text for SQL. It knows that semicolons outside of quotes separate
statements and that nothing but blanks is no statement. -/
def permissive : SqlParser := fun sql =>
  .ok (countFrom none false sql.toList)

end SqlParser

namespace Query

/-- Both forms of the SQL of a query are one statement to the parser. -/
def check (q : Query) (parse : SqlParser) (indent : Nat) : Except Error Unit := do
  parse.check q.toCompactSql
  parse.check (q.toSql indent)

/-- A query passes if the parser finds one statement in either form of its SQL. -/
theorem check_eq_ok {q : Query} {parse : SqlParser} {indent : Nat} {u : Unit} :
    q.check parse indent = .ok u ↔
      parse q.toCompactSql = .ok 1 ∧ parse (q.toSql indent) = .ok 1 := by
  rw [check, Except.bind_eq_ok, ← SqlParser.check_eq_ok (u := ()),
    ← SqlParser.check_eq_ok (u := u)]
  exact ⟨fun ⟨_, hcompact, hpretty⟩ => ⟨hcompact, hpretty⟩,
    fun ⟨hcompact, hpretty⟩ => ⟨_, hcompact, hpretty⟩⟩

end Query

end FluentSql
