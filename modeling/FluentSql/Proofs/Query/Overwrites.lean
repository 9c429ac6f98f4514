import Mathlib.Data.List.Forall2
import FluentSql.Proofs.Query.Segment
import FluentSql.Proofs.Statement.Alias
import FluentSql.Statement.Compact

/-!
# Overwritten columns

Every entry of an overwriting that carries an alias is replaced in the statement of its segment, in
the order of the call, unless an aggregation follows in the segment. An aggregation does not open a
segment of its own after an overwriting, as a projection does, and it leaves the overwriting out.
-/

namespace FluentSql

/-! ### The statements of the segments -/

mutual

/-- The statements in a table, each before those nested in it. -/
def TableRef.statements : TableRef → List Statement
  | .table _ => []
  | .subquery tables clauses _ => ⟨tables, clauses⟩ :: tables.statements

/-- The statements in tables, those of the source before those of the joins. -/
def Tables.statements : Tables → List Statement
  | .none => []
  | .source table => table.statements
  | .join left _ table _ => left.statements ++ table.statements

end

/-- The statement and all those nested in it, in the order in which they are written. -/
def Statement.statements (s : Statement) : List Statement :=
  s :: s.tables.statements

namespace Query

/-- The segments of a query: the last one, which the query itself gives, and those of the nested
queries that are more than a table. -/
def segments (q : Query) : List Query :=
  q :: q.aliasedQueries

/-- The statement is that of the segment, nested or not and from some alias number on. -/
def LoweredTo (segment : Query) (s : Statement) : Prop :=
  ∃ nested next, s = (segment.toStatement nested next).1

/-- A query that is read from is nested, with all those nested in it. -/
theorem nestedQueries_of_source {q inner : Query} (h : q.source = some (.query inner)) :
    inner :: inner.nestedQueries ⊆ q.nestedQueries := by
  induction q with
  | sourceless | table => cases h
  | subquery =>
    obtain rfl := Source.query.inj (Option.some.inj h)
    exact List.Subset.refl _
  | step _ _ ih => exact ih h
  | join _ _ _ _ ih _ => exact List.Subset.trans (ih h) (List.subset_append_left _ _)

/-- A query that is joined is nested, with all those nested in it. -/
theorem nestedQueries_of_join {q other : Query} {on : Expr} {kind : JoinKind}
    (h : .join other on kind ∈ q.operations) :
    other :: other.nestedQueries ⊆ q.nestedQueries := by
  induction q with
  | sourceless | table | subquery => cases h
  | step _ _ ih =>
    simp only [operations, List.mem_append, List.mem_singleton, reduceCtorEq, or_false] at h
    exact ih h
  | join _ _ _ _ ih _ =>
    simp only [operations, List.mem_append, List.mem_singleton, Operation.join.injEq] at h
    rcases h with h | ⟨rfl, -, -⟩
    · exact List.Subset.trans (ih h) (List.subset_append_left _ _)
    · exact List.subset_append_right _ _

/-- A query that is reached is the query itself or nested in it. -/
theorem Reaches.mem_nestedQueries {q r : Query} (h : q.Reaches r) : r ∈ q :: q.nestedQueries := by
  induction h with
  | refl => exact List.mem_cons_self
  | source hsource _ ih => exact .tail _ (nestedQueries_of_source hsource ih)
  | partner hjoin _ ih => exact .tail _ (nestedQueries_of_join hjoin ih)

/-- Every operation of a query that is reached stands in one of the segments. -/
theorem Reaches.mem_segments {q r : Query} (h : q.Reaches r) (hmore : r.operations ≠ []) :
    r ∈ q.segments := by
  rcases List.mem_cons.mp h.mem_nestedQueries with rfl | hnested
  · exact List.mem_cons_self
  · refine .tail _ (List.mem_filter.mpr ⟨hnested, ?_⟩)
    cases r with
    | table => exact absurd rfl hmore
    | _ => rfl

/-- All queries nested in a well-formed one are well-formed. -/
theorem WellFormed.of_mem_nestedQueries {q r : Query} (h : q.WellFormed)
    (hr : r ∈ q.nestedQueries) : r.WellFormed := by
  induction h with
  | table | columns => cases hr
  | subquery hinner ih =>
    rcases List.mem_cons.mp hr with rfl | hr
    · exact hinner
    · exact ih hr
  | step _ _ _ ih => exact ih hr
  | join _ hother _ _ ih ihother =>
    rcases List.mem_append.mp hr with hr | hr
    · exact ih hr
    · rcases List.mem_cons.mp hr with rfl | hr
      · exact hother
      · exact ihother hr

/-- The segments of a well-formed query are well-formed. -/
theorem WellFormed.of_mem_segments {q r : Query} (h : q.WellFormed) (hr : r ∈ q.segments) :
    r.WellFormed := by
  rcases List.mem_cons.mp hr with rfl | hr
  · exact h
  · exact h.of_mem_nestedQueries (List.mem_of_mem_filter hr)

/-- A reference to a query holds the statements of the segments of the query, if its tables do; of a
table it holds none. -/
theorem loweredTo_reference {q : Query}
    (h : ∀ next, List.Forall₂ LoweredTo q.aliasedQueries (q.tables next).1.statements)
    (next : Nat) :
    List.Forall₂ LoweredTo ((q :: q.nestedQueries).filter (·.tableName?.isNone))
      (q.reference q.tables next).1.statements := by
  unfold reference
  cases hname : q.tableName? with
  | some name =>
    obtain rfl := eq_table_of_tableName? hname
    exact .nil
  | none =>
    rw [List.filter_cons_of_pos (by simp [hname])]
    exact .cons ⟨true, next + 1, rfl⟩ (h (next + 1))

/-- The statements nested in the tables of a query are those of its nested segments, one for one. -/
theorem loweredTo_tables (q : Query) (next : Nat) :
    List.Forall₂ LoweredTo q.aliasedQueries (q.tables next).1.statements := by
  induction q generalizing next with
  | sourceless | table => exact .nil
  | subquery inner ih => exact loweredTo_reference ih next
  | step prior _ ih => exact ih next
  | join prior other on kind ih ihother =>
    have hleft := ih next
    have hright := loweredTo_reference ihother (prior.tables next).2
    rw [aliasedQueries, nestedQueries, List.filter_append]
    exact List.rel_append hleft hright

/-- The statements of a query are those of its segments, one for one and in order. -/
theorem loweredTo_toStatement (q : Query) (nested : Bool) (next : Nat) :
    List.Forall₂ LoweredTo q.segments (q.toStatement nested next).1.statements :=
  .cons ⟨nested, next, rfl⟩ (loweredTo_tables q next)

end Query

/-! ### Overwritten columns in a statement -/

/-- The entries that carry an alias, in order. -/
def Expr.namedEntries (columns : List Expr) : List Expr :=
  columns.filter (·.givenName?.isSome)

/-- What the clauses of a statement make of the columns that its segment overwrites. -/
structure Clauses.Overwrite (c : Clauses) (segment : Query) (columns : List Expr) : Prop where
  /-- Without an aggregation, the entries that carry an alias are replaced, and no others. -/
  replace_eq : .agg ∉ segment.kinds → c.projection = .replace (Expr.namedEntries columns)
  /-- In SQL they stand in the replacement of columns, if there are any. -/
  sql_eq : .agg ∉ segment.kinds → Expr.namedEntries columns ≠ [] →
    c.projection.itemsSql = ["* REPLACE (" ++ Expr.listSql (Expr.namedEntries columns) ++ ")"]
  /-- An aggregation follows the overwriting, and its statement projects groups and aggregates
  alone. -/
  agg_eq : ∀ items, .step (.agg items) ∈ segment.operations →
    [.withColumns, .agg].Sublist segment.kinds ∧
      c.projection = .items (segment.groupClause ++ items)

/-- A replacement of columns is written as such unless it is empty. -/
theorem Projection.itemsSql_replace {columns : List Expr} (h : columns ≠ []) :
    (Projection.replace columns).itemsSql = ["* REPLACE (" ++ Expr.listSql columns ++ ")"] := by
  cases columns with
  | nil => exact absurd rfl h
  | cons => rfl

namespace Query

/-- What is taken from the operations of a kind is not found in a segment without them. -/
theorem findSome?_eq_none_of_kinds {α : Type} {q : Query} {kind : OperationKind}
    {pick : Operation → Option α} (hpick : ∀ op, op.kind ≠ kind → pick op = none)
    (h : kind ∉ q.kinds) : q.operations.findSome? pick = none :=
  List.findSome?_eq_none_iff.mpr fun op hop =>
    hpick op fun hkind => h (hkind ▸ List.mem_map_of_mem hop)

/-- Without an aggregation there are no aggregates. -/
theorem aggregations_eq_none {q : Query} (h : .agg ∉ q.kinds) : q.aggregations = none := by
  refine findSome?_eq_none_of_kinds (fun op hkind => ?_) h
  split
  · exact absurd rfl hkind
  · rfl

/-- A segment that overwrites no column has nothing to replace. -/
theorem overwrites_eq_none {q : Query} (h : .withColumns ∉ q.kinds) : q.overwrites = none := by
  refine findSome?_eq_none_of_kinds (fun op hkind => ?_) h
  split
  · exact absurd rfl hkind
  · rfl

/-- The columns that a segment overwrites are replaced, unless it aggregates. -/
theorem Coherent.projectionClause_eq_replace {q : Query} (h : q.Coherent) {columns : List Expr}
    (hcolumns : .step (.withColumns columns) ∈ q.operations) (hagg : .agg ∉ q.kinds) :
    q.projectionClause = .replace (Expr.namedEntries columns) := by
  rw [projectionClause, aggregations_eq_none hagg, h.overwrites_eq columns hcolumns]
  rfl

/-- A segment that aggregates projects its groups and their aggregates. -/
theorem Coherent.projectionClause_eq_items {q : Query} (h : q.Coherent) {items : List Expr}
    (hitems : .step (.agg items) ∈ q.operations) :
    q.projectionClause = .items (q.groupClause ++ items) := by
  rw [projectionClause, h.aggregations_eq items hitems]

/-- An aggregation in a segment that overwrites columns comes after the overwriting, since the
other way round the overwriting opens a segment of its own. -/
theorem WellFormed.withColumns_before_agg {q : Query} (h : q.WellFormed)
    (hover : .withColumns ∈ q.kinds) (hagg : .agg ∈ q.kinds) :
    [.withColumns, .agg].Sublist q.kinds := by
  obtain ⟨before, after, hsplit⟩ := List.append_of_mem hagg
  have hbefore : .withColumns ∈ before := by
    rw [hsplit, List.mem_append, List.mem_cons] at hover
    rcases hover with hbefore | heq | hafter
    · exact hbefore
    · cases heq
    · have hlate : [.agg, .withColumns].Sublist (.agg :: after) :=
        (List.singleton_sublist.mpr hafter).cons_cons _
      have hkinds : (OperationKind.agg :: after).Sublist q.kinds := by
        rw [hsplit]
        exact List.sublist_append_right _ _
      exact absurd (hlate.trans hkinds) (h.not_sublist_kinds (by decide))
  rw [hsplit]
  exact (List.singleton_sublist.mpr hbefore).append
    ((List.nil_sublist after).cons_cons OperationKind.agg)

/-- The clauses of a statement replace the columns that its segment overwrites, unless the segment
aggregates. -/
theorem WellFormed.overwrite_clauses {q : Query} (h : q.WellFormed) {columns : List Expr}
    (hcolumns : .step (.withColumns columns) ∈ q.operations) (nested : Bool) :
    (q.clauses nested).Overwrite q columns where
  replace_eq := h.coherent.projectionClause_eq_replace hcolumns
  sql_eq hagg hnamed := by
    have hreplace := h.coherent.projectionClause_eq_replace hcolumns hagg
    rw [clauses, hreplace, Projection.itemsSql_replace hnamed]
  agg_eq items hitems :=
    ⟨h.withColumns_before_agg (List.mem_map_of_mem hcolumns) (List.mem_map_of_mem hitems),
      h.coherent.projectionClause_eq_items hitems⟩

/-- The statements of a query that builder calls make, nested or not and from any alias number on,
are those of its segments, one for one, and every operation stands in a segment. The columns that a
segment overwrites are replaced in its statement, all entries that carry an alias in the order of
the call, unless an aggregation follows in the segment: then none of them is. -/
theorem Built.overwrite_statements {q : Query} (h : q.Built) (nested : Bool) (next : Nat) :
    (∀ r, q.Reaches r → r.operations ≠ [] → r ∈ q.segments) ∧
      List.Forall₂ (fun segment s => segment.LoweredTo s ∧
          ∀ columns, .step (.withColumns columns) ∈ segment.operations →
            s.clauses.Overwrite segment columns)
        q.segments (q.toStatement nested next).1.statements := by
  refine ⟨fun r hr => hr.mem_segments, ?_⟩
  have hwell : ∀ segment ∈ q.segments, segment.WellFormed := fun _ hmem =>
    h.wellFormed.of_mem_segments hmem
  refine ((List.forall₂_and_left _ _).mpr ⟨hwell, loweredTo_toStatement q nested next⟩).imp ?_
  rintro segment s ⟨hsegment, nested, next, rfl⟩
  exact ⟨⟨nested, next, rfl⟩, fun columns hcolumns => hsegment.overwrite_clauses hcolumns nested⟩

/-- Two conversions in a nested segment are replaced there; the overwriting after them is left out,
as it is aggregated in its segment. -/
theorem Built.overwrite_statements_agg :
    let inner := ((Query.table "t").withCast "a" "int").withCast "b" "text"
    let columns := [Expr.column "c", .named (.binary (.column "a") .plus (.column "b")) "b"]
    let items := [Expr.aggregate .sum (.column "b")]
    let q := (inner.withColumns columns).agg items
    q.Built ∧ ∃ s t, (q.toStatement false 0).1.statements = [s, t] ∧
      s.clauses.Overwrite q columns ∧ s.clauses.projection = .items items ∧
      t.clauses.projection = .replace [
        .named (.cast (.column "a") (Text.upper "int")) "a",
        .named (.cast (.column "b") (Text.upper "text")) "b"] := by
  intro inner columns items q
  have hq : q.Built := ((((Built.table "t").withCast "a" "int").withCast "b" "text").withColumns
    columns).agg items
  have hsegments : q.segments = [q, inner] := rfl
  obtain ⟨-, hstatements⟩ := hq.overwrite_statements false 0
  rw [hsegments] at hstatements
  obtain ⟨s, rest, ⟨-, hs⟩, hrest, hcons⟩ := List.forall₂_cons_left_iff.mp hstatements
  obtain ⟨t, _, ⟨-, ht⟩, hnil, rfl⟩ := List.forall₂_cons_left_iff.mp hrest
  obtain rfl := List.forall₂_nil_left_iff.mp hnil
  have hover := hs columns List.mem_cons_self
  refine ⟨hq, s, t, hcons, hover, (hover.agg_eq items (.tail _ List.mem_cons_self)).2, ?_⟩
  exact (ht _ List.mem_cons_self).replace_eq (by decide)

end Query

end FluentSql
