import FluentSql.Proofs.Statement.Alias
import FluentSql.Proofs.Statement.Part
import FluentSql.Query.Builder
import FluentSql.Query.Sql

/-!
# Aliases that are names of tables

Aliases are numbered without regard to the tables that a query reads, and a table is written by its
name. So a table whose name is one of the numbered aliases shares the name with the nested statement
under it; no other name stands for two things.
-/

namespace FluentSql

/-! ### The names that a statement reads from -/

/-- The name that a token gives to a table or to a nested statement. -/
def Token.sourceName? : Token → Option String
  | table name | label name => some name
  | _ => none

/-- The names in the `FROM` clauses and the `JOIN` clauses of a statement, at any depth. -/
def Statement.sourceNames (s : Statement) : List String :=
  s.tokens.filterMap Token.sourceName?

mutual

/-- The names of tables in a table, as they are written. -/
def TableRef.tableNames : TableRef → List String
  | .table name => [name]
  | .subquery tables _ _ => tables.tableNames

/-- The names of tables in tables, those of the source before those of the joins. -/
def Tables.tableNames : Tables → List String
  | .none => []
  | .source table => table.tableNames
  | .join left _ table _ => left.tableNames ++ table.tableNames

end

/-- The names of tables in a statement, at any depth. -/
def Statement.tableNames (s : Statement) : List String :=
  s.tables.tableNames

/-- The name is an alias in the statement and the name of a table as well. -/
def Statement.Captures (s : Statement) (name : String) : Prop :=
  name ∈ s.aliases ∧ name ∈ s.tableNames

/-- A part of a clause names nothing that is read. -/
theorem Token.sourceName?_of_isPart {t : Token} (h : t.isPart = true) : t.sourceName? = none := by
  cases t with
  | table | label => cases h
  | _ => rfl

/-- Only the tables of a statement have such names. -/
theorem Clauses.filterMap_tokens (c : Clauses) (tables : List Token) :
    (c.tokens tables).filterMap Token.sourceName? = tables.filterMap Token.sourceName? := by
  have hnone {tokens : List Token} (h : ∀ t ∈ tokens, t.isPart = true) :
      tokens.filterMap Token.sourceName? = [] :=
    List.filterMap_eq_nil_iff.mpr fun t ht => Token.sourceName?_of_isPart (h t ht)
  rw [c.tokens_eq, List.filterMap_cons_none rfl, List.filterMap_append, List.filterMap_append,
    hnone c.isPart_projectionTokens, hnone c.isPart_tailTokens, List.nil_append, List.append_nil]

mutual

/-- A name that is read is an alias or the name of a table. -/
theorem TableRef.count_sourceNames (t : TableRef) (name : String) :
    (t.tokens.filterMap Token.sourceName?).count name =
      t.aliases.count name + t.tableNames.count name := by
  cases t with
  | table => simp [TableRef.tokens, Token.sourceName?, TableRef.aliases, TableRef.tableNames]
  | subquery tables clauses label =>
    have htables := tables.count_sourceNames name
    simp only [TableRef.tokens, List.filterMap_append, List.filterMap_cons, List.filterMap_nil,
      Token.sourceName?, clauses.filterMap_tokens, List.count_append, List.count_cons,
      List.count_nil, TableRef.aliases, TableRef.tableNames]
    omega

/-- A name that is read in a `FROM` clause or a `JOIN` clause is an alias or the name of a table. -/
theorem Tables.count_sourceNames (t : Tables) (name : String) :
    (t.tokens.filterMap Token.sourceName?).count name =
      t.aliases.count name + t.tableNames.count name := by
  cases t with
  | none => rfl
  | source table => exact table.count_sourceNames name
  | join left _ table _ =>
    have hleft := left.count_sourceNames name
    have htable := table.count_sourceNames name
    simp only [Tables.tokens, List.filterMap_append, List.filterMap_cons, List.filterMap_nil,
      Token.sourceName?, List.count_append, List.count_nil, Tables.aliases, Tables.tableNames]
    omega

end

/-- A name occurs in a statement as often as it is an alias and the name of a table. -/
theorem Statement.count_sourceNames (s : Statement) (name : String) :
    s.sourceNames.count name = s.aliases.count name + s.tableNames.count name := by
  have hcount := s.tables.count_sourceNames name
  rwa [← s.clauses.filterMap_tokens] at hcount

/-! ### The names that a query reads from -/

namespace Query

/-- The tables that a query reads, those of nested queries among them, as often as they occur. -/
def tableNames : Query → List String
  | sourceless => []
  | table name => [name]
  | subquery inner => inner.tableNames
  | step prior _ => prior.tableNames
  | join prior other .. => prior.tableNames ++ other.tableNames

/-- A reference to a query writes the tables that the query reads, if its own tables do. -/
theorem tableNames_reference {q : Query} (h : ∀ next, (q.tables next).1.tableNames = q.tableNames)
    (next : Nat) : (q.reference q.tables next).1.tableNames = q.tableNames := by
  unfold reference
  cases hname : q.tableName? with
  | some name =>
    obtain rfl := eq_table_of_tableName? hname
    rfl
  | none => exact h (next + 1)

/-- A statement writes the tables that its query reads, whatever the aliases are. -/
theorem tableNames_tables (q : Query) (next : Nat) :
    (q.tables next).1.tableNames = q.tableNames := by
  induction q generalizing next with
  | sourceless | table => rfl
  | subquery inner ih => exact tableNames_reference ih next
  | step prior _ ih => exact ih next
  | join prior other on kind ih ihother =>
    have hright := tableNames_reference ihother (prior.tables next).2
    rw [tables, Tables.tableNames, ih next, hright, tableNames]

/-- The aliases of a query are numbered from zero on. -/
theorem aliases_statement (q : Query) :
    q.statement.aliases = (List.range' 0 q.aliasedQueries.length).map subqueryAlias :=
  (numbers_tables q 0).1

/-- A name is an alias and the name of a table at once exactly if the query reads a table with that
name and nests more queries than the number of the alias. An alias stands in the `FROM` clauses and
the `JOIN` clauses once for its nested statement, and once more for each table with its name. -/
theorem captures_iff (q : Query) (name : String) :
    (q.statement.Captures name ↔
        name ∈ q.tableNames ∧ ∃ index < q.aliasedQueries.length, subqueryAlias index = name) ∧
      (name ∈ q.statement.aliases →
        q.statement.sourceNames.count name = 1 + q.tableNames.count name) := by
  have htables : q.statement.tableNames = q.tableNames := tableNames_tables q 0
  have haliases := q.aliases_statement
  constructor
  · rw [Statement.Captures, htables, haliases, and_comm]
    simp [List.mem_map, List.mem_range'_1]
  · intro hmem
    have honce : q.statement.aliases.count name = 1 := by
      rw [haliases] at hmem ⊢
      exact List.count_eq_one_of_mem (nodup_subqueryAlias _ _) hmem
    rw [← htables, ← honce]
    exact q.statement.count_sourceNames name

/-- A table with the name of an alias, next to the nested statement under that alias. -/
example : ((table "t0").joinWith ((table "u").limit 1) (.column "a") .inner).toCompactSql =
    "SELECT * FROM t0 INNER JOIN (SELECT * FROM u) AS t0 ON a" := by
  decide

end Query

end FluentSql
