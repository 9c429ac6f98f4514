import FluentSql.Proofs.Query.Segment

/-!
# Statements mirror segments

The tree of statements of a query has the shape of its tree of segments. Each statement holds the
filters, the joins and the grouping of its segment, all of them and in the order of the calls; the
sort keys and the limits are those of the outermost segment alone.
-/

namespace FluentSql

/-! ### What a segment asks for -/

namespace Operation

/-- The predicate of a filter. -/
def predicate? : Operation → Option Expr
  | step (.filter predicate) => some predicate
  | _ => none

/-- The keys of a sort. -/
def keys? : Operation → Option (List Expr)
  | step (.orderBy keys) => some keys
  | _ => none

/-- The number of rows that a limit keeps. -/
def limit? : Operation → Option UInt64
  | step (.limit count) => some count
  | _ => none

/-- The number of rows that an offset leaves out. -/
def offset? : Operation → Option UInt64
  | step (.offset count) => some count
  | _ => none

end Operation

section Choice

variable {α : Type} (pick : Operation → Option α) (operations : List Operation)

/-- The value is what `pick` takes from the first operation that has it, if any does. -/
def IsFirst : Option α → Prop
  | none => ∀ op ∈ operations, pick op = none
  | some a => ∃ before op after, operations = before ++ op :: after ∧ pick op = some a ∧
      ∀ earlier ∈ before, pick earlier = none

/-- The value is what `pick` takes from the last operation that has it, if any does. -/
def IsLast : Option α → Prop
  | none => ∀ op ∈ operations, pick op = none
  | some a => ∃ before op after, operations = before ++ op :: after ∧ pick op = some a ∧
      ∀ later ∈ after, pick later = none

/-- A search from the start gives the first value. -/
theorem isFirst_findSome? : IsFirst pick operations (operations.findSome? pick) := by
  cases h : operations.findSome? pick with
  | none => exact List.findSome?_eq_none_iff.mp h
  | some a => exact List.findSome?_eq_some_iff.mp h

/-- A search from the end gives the last value. -/
theorem isLast_findSome?_reverse : IsLast pick operations (operations.reverse.findSome? pick) := by
  cases h : operations.reverse.findSome? pick with
  | none =>
    intro op hop
    exact List.findSome?_eq_none_iff.mp h op (List.mem_reverse.mpr hop)
  | some a =>
    obtain ⟨after, op, before, hops, hpick, hafter⟩ := List.findSome?_eq_some_iff.mp h
    refine ⟨before.reverse, op, after.reverse, ?_, hpick, ?_⟩
    · rw [List.reverse_eq_iff.mp hops]
      simp
    · intro later hlater
      exact hafter later (List.mem_reverse.mp hlater)

end Choice

/-- The clauses hold what the operations of a segment ask for. Those of a nested statement leave out
order and limits. -/
structure Clauses.Mirror (c : Clauses) (operations : List Operation) (nested : Bool) : Prop where
  /-- All predicates, in the order of the calls. -/
  filters : c.filters = operations.filterMap Operation.predicate?
  /-- The grouping of the segment. -/
  groupBy : ∀ columns, .step (.groupBy columns) ∈ operations → c.groupBy = columns
  /-- Without a grouping nothing is grouped. -/
  groupBy_nil : (∀ columns, .step (.groupBy columns) ∉ operations) → c.groupBy = []
  /-- The keys of the last sort, or none in a nested statement. -/
  orderBy : ∃ keys, IsLast Operation.keys? operations keys ∧
    c.orderBy = if nested then [] else keys.getD []
  /-- The first limit, or none in a nested statement. -/
  limit : ∃ count, IsFirst Operation.limit? operations count ∧
    c.limit = if nested then none else count
  /-- The first offset, or none in a nested statement. -/
  offset : ∃ count, IsFirst Operation.offset? operations count ∧
    c.offset = if nested then none else count

/-! ### The shape of a statement -/

/-- A `JOIN` clause. -/
structure JoinedTable where
  /-- The kind of the join. -/
  kind : JoinKind
  /-- The joined table. -/
  table : TableRef
  /-- The condition of the join. -/
  on : Expr

namespace Tables

/-- The table of the `FROM` clause. -/
def from? : Tables → Option TableRef
  | none => .none
  | source table => some table
  | join left .. => left.from?

/-- The `JOIN` clauses, in order. -/
def joins : Tables → List JoinedTable
  | none | source _ => []
  | join left kind table on => left.joins ++ [⟨kind, table, on⟩]

end Tables

/-- The `FROM` clause reads from the source of a segment, where `Stands` says which table stands for
a nested query. -/
inductive MirrorsSource (Stands : TableRef → Query → Prop) :
    Option TableRef → Option Source → Prop
  | none : MirrorsSource Stands none none
  | table (name : String) : MirrorsSource Stands (some (.table name)) (some (.table name))
  | query {table : TableRef} {inner : Query} (h : Stands table inner) :
      MirrorsSource Stands (some table) (some (.query inner))

/-- The `JOIN` clauses are the joins among the operations of a segment, one for one, where `Stands`
says which table stands for a nested query. -/
inductive MirrorsJoins (Stands : TableRef → Query → Prop) :
    List JoinedTable → List Operation → Prop
  | nil : MirrorsJoins Stands [] []
  | step {joins : List JoinedTable} {operations : List Operation} (next : Step)
      (h : MirrorsJoins Stands joins operations) :
      MirrorsJoins Stands joins (.step next :: operations)
  | join {table : TableRef} {other : Query} {joins : List JoinedTable} {operations : List Operation}
      (on : Expr) (kind : JoinKind) (htable : Stands table other)
      (h : MirrorsJoins Stands joins operations) :
      MirrorsJoins Stands (⟨kind, table, on⟩ :: joins) (.join other on kind :: operations)

/-- The table stands for a nested query: by name for a query that is a table and nothing more, and
for every other one as a nested statement that mirrors it. -/
inductive TableRef.StandsFor : TableRef → Query → Prop
  | table (name : String) : StandsFor (.table name) (.table name)
  | subquery {tables : Tables} {clauses : Clauses} {q : Query} (name : String)
      (hmore : ∀ bare, q ≠ .table bare) (hsource : MirrorsSource StandsFor tables.from? q.source)
      (hjoins : MirrorsJoins StandsFor tables.joins q.operations)
      (hclauses : clauses.Mirror q.operations true) :
      StandsFor (.subquery tables clauses name) q

/-- The tables of a statement are those that the segment reads. -/
structure Tables.Mirror (t : Tables) (q : Query) : Prop where
  /-- The `FROM` clause reads from the source. -/
  source : MirrorsSource TableRef.StandsFor t.from? q.source
  /-- The `JOIN` clauses are the joins. -/
  joins : MirrorsJoins TableRef.StandsFor t.joins q.operations

/-- The tree of statements mirrors the tree of segments. -/
structure Statement.Mirrors (s : Statement) (q : Query) (nested : Bool) : Prop where
  /-- The tables are those of the segment, with all statements nested in it. -/
  tables : s.tables.Mirror q
  /-- The other clauses are those of the segment. -/
  clauses : s.clauses.Mirror q.operations nested

/-- The statement without order and limits. -/
def Statement.cleared (s : Statement) : Statement :=
  { s with clauses := { s.clauses with orderBy := [], limit := none, offset := none } }

/-! ### The statement of a query -/

variable {Stands : TableRef → Query → Prop}

/-- A step at the end needs no `JOIN` clause. -/
theorem MirrorsJoins.snoc_step {joins : List JoinedTable} {operations : List Operation}
    (h : MirrorsJoins Stands joins operations) (next : Step) :
    MirrorsJoins Stands joins (operations ++ [.step next]) := by
  induction h with
  | nil => exact .step next .nil
  | step earlier _ ih => exact .step earlier ih
  | join on kind htable _ ih => exact .join on kind htable ih

/-- A join at the end is one more `JOIN` clause. -/
theorem MirrorsJoins.snoc_join {joins : List JoinedTable} {operations : List Operation}
    {table : TableRef} {other : Query} (h : MirrorsJoins Stands joins operations) (on : Expr)
    (kind : JoinKind) (htable : Stands table other) :
    MirrorsJoins Stands (joins ++ [⟨kind, table, on⟩]) (operations ++ [.join other on kind]) := by
  induction h with
  | nil => exact .join on kind htable .nil
  | step earlier _ ih => exact .step earlier ih
  | join on kind htable _ ih => exact .join on kind htable ih

namespace Query

/-- Without a grouping the segment groups nothing. -/
theorem groupClause_eq_nil {q : Query} (h : ∀ columns, .step (.groupBy columns) ∉ q.operations) :
    q.groupClause = [] := by
  refine congrArg (Option.getD · []) (List.findSome?_eq_none_iff.mpr ?_)
  intro op hop
  split
  · next columns => exact absurd hop (h columns)
  · rfl

/-- The clauses of the statement of a segment hold what its operations ask for. -/
theorem WellFormed.mirror_clauses {q : Query} (h : q.WellFormed) (nested : Bool) :
    (q.clauses nested).Mirror q.operations nested where
  filters := rfl
  groupBy := h.coherent.groupClause_eq
  groupBy_nil := groupClause_eq_nil
  orderBy := ⟨_, isLast_findSome?_reverse Operation.keys? q.operations, rfl⟩
  limit := ⟨_, isFirst_findSome? Operation.limit? q.operations, rfl⟩
  offset := ⟨_, isFirst_findSome? Operation.offset? q.operations, rfl⟩

/-- The reference to a nested query stands for it, if its own tables are those that it reads. -/
theorem WellFormed.standsFor_reference {q : Query} (h : q.WellFormed)
    (htables : ∀ next, (q.tables next).1.Mirror q) (next : Nat) :
    (q.reference q.tables next).1.StandsFor q := by
  unfold reference
  split
  · next name hname =>
    rw [eq_table_of_tableName? hname]
    exact .table name
  · next hname =>
    refine .subquery _ ?_ (htables _).source (htables _).joins (h.mirror_clauses true)
    rintro bare rfl
    cases hname

/-- The tables of a statement are those that the segment reads, from any alias number on. -/
theorem WellFormed.mirror_tables {q : Query} (h : q.WellFormed) (next : Nat) :
    (q.tables next).1.Mirror q := by
  -- The start of a segment without a source is not well-formed without its projection, so the
  -- induction is on the calls and not on the query.
  induction h generalizing next with
  | table name => exact ⟨.table name, .nil⟩
  | subquery h ih => exact ⟨.query (h.standsFor_reference ih next), .nil⟩
  | columns => exact ⟨.none, .step _ .nil⟩
  | @step prior step _ _ _ ih => exact ⟨(ih next).source, (ih next).joins.snoc_step step⟩
  | @join prior other _ hother on kind ih ihother =>
    exact ⟨(ih next).source,
      (ih next).joins.snoc_join on kind (hother.standsFor_reference ihother _)⟩

/-- The tree of statements of a query that builder calls make mirrors its tree of segments, nested
or not and from any alias number on. A nested one is the same but for order and limits, and takes as
many alias numbers. -/
theorem Built.toStatement_mirrors {q : Query} (h : q.Built) (nested : Bool) (next : Nat) :
    (q.toStatement nested next).1.Mirrors q nested ∧
      q.toStatement true next =
        ((q.toStatement false next).1.cleared, (q.toStatement false next).2) := by
  constructor
  · exact ⟨h.wellFormed.mirror_tables next, h.wellFormed.mirror_clauses nested⟩
  · rfl

/-- A limit of a nested query is dropped, and that of the outermost one is kept. -/
theorem Built.toStatement_mirrors_limit :
    let inner := ((Query.table "t").filter (.column "a")).limit 3
    let q := ((Query.subquery inner).joinWith (.table "u") (.column "b") .left).limit 5
    (q.toStatement false 0).1.Mirrors q false ∧
      (q.toStatement false 0).1.clauses.limit = some 5 ∧
      (q.toStatement true 0).1.clauses.limit = none ∧
      ∃ clauses : Clauses, clauses.filters = [.column "a"] ∧ clauses.limit = none ∧
        (q.toStatement false 0).1.tables =
          .join (.source (.subquery (.source (.table "t")) clauses "t0")) .left (.table "u")
            (.column "b") := by
  intro inner q
  have hinner : inner.Built := ((Built.table "t").filter (.column "a")).limit 3
  have hq : q.Built := (hinner.subquery.joinWith (.table "u") (.column "b") .left).limit 5
  obtain ⟨hmirrors, hcleared⟩ := hq.toStatement_mirrors false 0
  refine ⟨hmirrors, rfl, ?_, inner.clauses true, rfl, rfl, rfl⟩
  rw [hcleared]
  rfl

end Query

end FluentSql
