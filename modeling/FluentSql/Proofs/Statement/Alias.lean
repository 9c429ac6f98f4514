import Mathlib.Data.List.Nodup
import FluentSql.Statement.OfQuery

/-!
# Aliases of nested statements

A counter numbers the aliases of a statement in the order in which the statement is written, one for
each nested query that is more than a table. So no two aliases are equal, also not in statements
that share a counter, and a counter that starts elsewhere shifts all numbers alike.
-/

namespace FluentSql

/-! ### The aliases of a statement -/

mutual

/-- The aliases of a table, its own one before those inside it. -/
def TableRef.aliases : TableRef → List String
  | .table _ => []
  | .subquery tables _ name => name :: tables.aliases

/-- The aliases of tables, those of the source before those of the joins. -/
def Tables.aliases : Tables → List String
  | .none => []
  | .source table => table.aliases
  | .join left _ table _ => left.aliases ++ table.aliases

end

/-- The aliases of all nested statements of a statement. -/
def Statement.aliases (s : Statement) : List String :=
  s.tables.aliases

section Rename

variable (f : String → String)

mutual

/-- The table with all aliases renamed. -/
def TableRef.mapAlias : TableRef → TableRef
  | .table name => .table name
  | .subquery tables clauses name => .subquery tables.mapAlias clauses (f name)

/-- The tables with all aliases renamed. -/
def Tables.mapAlias : Tables → Tables
  | .none => .none
  | .source table => .source table.mapAlias
  | .join left kind table on => .join left.mapAlias kind table.mapAlias on

end

/-- The statement with all aliases renamed. -/
def Statement.mapAlias (s : Statement) : Statement :=
  ⟨s.tables.mapAlias f, s.clauses⟩

end Rename

/-! ### Numbers of aliases -/

/-- The number of an alias. -/
def aliasIndex (name : String) : Nat :=
  Nat.ofDigitChars 10 name.toList.tail 0

/-- The alias with a number that is larger by `offset`. -/
def shiftAlias (offset : Nat) (name : String) : String :=
  subqueryAlias (aliasIndex name + offset)

/-- The alias with a number has that number. -/
@[simp] theorem aliasIndex_subqueryAlias (index : Nat) :
    aliasIndex (subqueryAlias index) = index := by
  simp [aliasIndex, subqueryAlias, Nat.toString_eq_repr, Nat.toList_repr]

/-- Aliases with different numbers are different. -/
theorem subqueryAlias_injective : Function.Injective subqueryAlias :=
  Function.LeftInverse.injective aliasIndex_subqueryAlias

/-- The aliases with the numbers from one on are different from each other. -/
theorem nodup_subqueryAlias (next count : Nat) :
    ((List.range' next count).map subqueryAlias).Nodup :=
  List.Nodup.map subqueryAlias_injective List.nodup_range'

/-! ### The aliases of a query -/

namespace Query

/-- The queries nested in a query, at any depth and as often as they occur. -/
def nestedQueries : Query → List Query
  | sourceless | table _ => []
  | subquery inner => inner :: inner.nestedQueries
  | step prior _ => prior.nestedQueries
  | join prior other .. => prior.nestedQueries ++ other :: other.nestedQueries

/-- The nested queries that are more than a table. -/
def aliasedQueries (q : Query) : List Query :=
  q.nestedQueries.filter (·.tableName?.isNone)

/-- The statements of queries, each of them nested or not, whose aliases one counter numbers. -/
def toStatements : List (Query × Bool) → Nat → List Statement × Nat
  | [], next => ([], next)
  | (q, nested) :: queries, next =>
    let (statement, between) := q.toStatement nested next
    let (statements, after) := toStatements queries between
    (statement :: statements, after)

/-- So many aliases with the numbers from `next` on, and the number after them. -/
def Numbers (names : List String) (after next count : Nat) : Prop :=
  names = (List.range' next count).map subqueryAlias ∧ after = next + count

/-- Aliases are numbered on where those before them end. -/
theorem Numbers.append {left right : List String} {next between after count more : Nat}
    (hleft : Numbers left between next count) (hright : Numbers right after between more) :
    Numbers (left ++ right) after next (count + more) := by
  obtain ⟨rfl, rfl⟩ := hleft
  obtain ⟨rfl, rfl⟩ := hright
  refine ⟨?_, Nat.add_assoc _ _ _⟩
  rw [← List.map_append, List.range'_append_1]

/-- A reference to a query takes one number for the query, unless that is a table, and then those
for the queries nested in it. -/
theorem numbers_reference {q : Query}
    (h : ∀ next, Numbers (q.tables next).1.aliases (q.tables next).2 next q.aliasedQueries.length)
    (next : Nat) :
    Numbers (q.reference q.tables next).1.aliases (q.reference q.tables next).2 next
      ((q :: q.nestedQueries).filter (·.tableName?.isNone)).length := by
  unfold reference
  cases hname : q.tableName? with
  | some name =>
    obtain rfl := eq_table_of_tableName? hname
    exact ⟨rfl, rfl⟩
  | none =>
    have hown : Numbers [subqueryAlias next] (next + 1) next 1 := ⟨rfl, rfl⟩
    have hall := hown.append (h (next + 1))
    simpa [hname, TableRef.aliases, aliasedQueries, Nat.add_comm] using hall

/-- The tables of a query take a number for each nested query that is more than a table. -/
theorem numbers_tables (q : Query) (next : Nat) :
    Numbers (q.tables next).1.aliases (q.tables next).2 next q.aliasedQueries.length := by
  induction q generalizing next with
  | sourceless | table => exact ⟨rfl, rfl⟩
  | subquery inner ih => exact numbers_reference ih next
  | step prior _ ih => exact ih next
  | join prior other on kind ih ihother =>
    have hall := (ih next).append (numbers_reference ihother (prior.tables next).2)
    simpa [tables, Tables.aliases, aliasedQueries, nestedQueries] using hall

/-- Statements that share a counter take a number for each query nested in one of them that is more
than a table. -/
theorem numbers_toStatements (queries : List (Query × Bool)) (next : Nat) :
    Numbers ((toStatements queries next).1.flatMap Statement.aliases) (toStatements queries next).2
      next (queries.flatMap (·.1.aliasedQueries)).length := by
  induction queries generalizing next with
  | nil => exact ⟨rfl, rfl⟩
  | cons first queries ih =>
    obtain ⟨q, nested⟩ := first
    have hfirst : Numbers (q.toStatement nested next).1.aliases (q.toStatement nested next).2 next
        q.aliasedQueries.length := numbers_tables q next
    have hall := hfirst.append (ih (q.toStatement nested next).2)
    simpa [toStatements] using hall

/-- A reference has its aliases shifted, if the tables have. -/
theorem reference_shift {q : Query} {offset : Nat}
    (h : ∀ next, q.tables (next + offset) =
      ((q.tables next).1.mapAlias (shiftAlias offset), (q.tables next).2 + offset)) (next : Nat) :
    q.reference q.tables (next + offset) =
      ((q.reference q.tables next).1.mapAlias (shiftAlias offset),
        (q.reference q.tables next).2 + offset) := by
  unfold reference
  cases q.tableName? with
  | some name => rfl
  | none =>
    have hinner := h (next + 1)
    rw [Nat.add_right_comm] at hinner
    simp [hinner, TableRef.mapAlias, shiftAlias]

/-- A counter that starts later by `offset` shifts the aliases of the tables. -/
theorem tables_shift (q : Query) (offset next : Nat) :
    q.tables (next + offset) =
      ((q.tables next).1.mapAlias (shiftAlias offset), (q.tables next).2 + offset) := by
  induction q generalizing next with
  | sourceless | table => rfl
  | subquery inner ih => simp [tables, reference_shift ih, Tables.mapAlias]
  | step prior _ ih => exact ih next
  | join prior other on kind ih ihother =>
    simp [tables, ih, reference_shift ihother, Tables.mapAlias]

/-- The aliases of a statement have the numbers from that of the counter on, in the order in which
they are written, one for each nested query that is more than a table; no two of them are equal, nor
are any two of statements that share a counter; and another start of the counter only shifts the
numbers. -/
theorem aliases_toStatement (q : Query) (nested : Bool) (next : Nat) :
    (q.toStatement nested next).1.aliases =
        (List.range' next q.aliasedQueries.length).map subqueryAlias ∧
      (q.toStatement nested next).2 = next + q.aliasedQueries.length ∧
      (q.toStatement nested next).1.aliases.Nodup ∧
      (∀ queries : List (Query × Bool),
        ((toStatements queries next).1.flatMap Statement.aliases).Nodup) ∧
      (∀ index, shiftAlias next (subqueryAlias index) = subqueryAlias (index + next)) ∧
      (q.toStatement nested next).1 =
        (q.toStatement nested 0).1.mapAlias (shiftAlias next) := by
  obtain ⟨haliases, hafter⟩ := q.numbers_tables next
  have hshift := q.tables_shift next 0
  rw [Nat.zero_add] at hshift
  refine ⟨haliases, hafter, ?_, fun queries => ?_, fun index => ?_, ?_⟩
  · change (q.tables next).1.aliases.Nodup
    rw [haliases]
    exact nodup_subqueryAlias _ _
  · rw [(numbers_toStatements queries next).1]
    exact nodup_subqueryAlias _ _
  · rw [shiftAlias, aliasIndex_subqueryAlias]
  · rw [toStatement, hshift]
    rfl

end Query

end FluentSql
