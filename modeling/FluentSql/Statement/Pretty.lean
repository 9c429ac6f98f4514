import FluentSql.Statement.Compact

/-!
# Statements on many lines

Each keyword of a clause has a line of its own with its items indented beneath it, one a line. A
nested statement stands one level deeper than its parentheses.
-/

namespace FluentSql

/-- The spaces in front of a line at a depth, with `indent` spaces a level. -/
def margin (indent depth : Nat) : String :=
  String.ofList (List.replicate (indent * depth) ' ')

/-- One item a line, with a comma after each but the last. -/
def itemLines (pad : String) : List String → List String
  | [] => []
  | [item] => [pad ++ item]
  | item :: rest => (pad ++ item ++ ",") :: itemLines pad rest

namespace Clauses

/-- The lines of the `SELECT` clause. -/
def selectLines (c : Clauses) (pad inner : String) : List String :=
  (pad ++ "SELECT" ++ c.distinct.elim "" fun d => " " ++ d.toSql) ::
    itemLines inner c.projection.itemsSql

/-- The lines of the `WHERE` clause. -/
def filterLines (c : Clauses) (pad inner : String) : List String :=
  match c.filters with
  | [] => []
  | first :: rest =>
    (pad ++ "WHERE") :: (inner ++ first.toSql) :: rest.map fun e => inner ++ "AND " ++ e.toSql

/-- The lines of a clause that lists expressions, unless there are none. -/
def listLines (keyword pad inner : String) (items : List Expr) : List String :=
  if items.isEmpty then [] else (pad ++ keyword) :: itemLines inner (items.map Expr.toSql)

/-- The lines of a clause with a number, unless there is none. -/
def countLines (keyword pad inner : String) : Option UInt64 → List String
  | none => []
  | some n => [pad ++ keyword, inner ++ toString n.toNat]

/-- The lines of the clauses that follow the tables. -/
def tailLines (c : Clauses) (pad inner : String) : List String :=
  c.filterLines pad inner ++ listLines "GROUP BY" pad inner c.groupBy ++
    listLines "ORDER BY" pad inner c.orderBy ++ countLines "LIMIT" pad inner c.limit ++
    countLines "OFFSET" pad inner c.offset

/-- All lines of the clauses at a depth, around those for the tables. -/
def lines (c : Clauses) (indent depth : Nat) (tables : List String) : List String :=
  let pad := margin indent depth
  let inner := margin indent (depth + 1)
  c.selectLines pad inner ++ tables ++ c.tailLines pad inner

end Clauses

mutual
/-- The lines of a table, where `before` and `after` are the rest of its first and its last line and
`depth` is that of the statement which reads it. -/
def TableRef.lines (indent depth : Nat) (before after : String) : TableRef → List String
  | .table name => [margin indent (depth + 1) ++ before ++ name ++ after]
  | .subquery tables clauses name =>
    (margin indent (depth + 1) ++ before ++ "(") ::
      clauses.lines indent (depth + 2) (tables.lines indent (depth + 2)) ++
        [margin indent (depth + 1) ++ ") AS " ++ name ++ after]

/-- The lines of the `FROM` clause and the `JOIN` clauses at a depth. -/
def Tables.lines (indent depth : Nat) : Tables → List String
  | .none => []
  | .source table => (margin indent depth ++ "FROM") :: table.lines indent depth "" ""
  | .join left kind table on =>
    left.lines indent depth ++
      table.lines indent depth (kind.sql ++ " JOIN ") (" ON " ++ on.toSql)
end

/-- A statement on many lines, with `indent` spaces a level. -/
def Statement.pretty (s : Statement) (indent : Nat) : String :=
  "\n".intercalate (s.clauses.lines indent 0 (s.tables.lines indent 0))

end FluentSql
