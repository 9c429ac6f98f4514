import FluentSql.Proofs.Query.CountName
import FluentSql.Proofs.Query.Overwrites
import FluentSql.Query.Sql

/-!
# Counting values

Values are counted in three calls: a grouping, the aggregation that counts, and a sort by the
counts. The column of the counts has a name that none of the counted columns is known by. The
grouping and the aggregation share a segment, except where the grouping joins a segment that drops
repeated rows: there the aggregation opens a segment of its own, and counts the groups instead of
the rows in them.
-/

namespace FluentSql

/-- The number of rows in each group, under a name. -/
def Expr.rowCount (name : String) : Expr :=
  .named (.aggregate .count (.column "*")) name

/-- The statement groups rows by columns, and projects next to the columns the number of rows in
each group under a name, the greatest number first. -/
structure Clauses.CountsBy (c : Clauses) (columns : List Expr) (name : String) : Prop where
  /-- The rows are grouped by the columns. -/
  groupBy : c.groupBy = columns
  /-- The columns and the numbers of rows are projected. -/
  projection : c.projection = .items (columns ++ [.rowCount name])
  /-- The numbers of rows are the one key of the sort. -/
  orderBy : c.orderBy = [.sort (.column name) .desc]

namespace Query

/-! ### The segments of a count -/

/-- A search from the start looks at one more step last. -/
theorem findSome?_step {α : Type} (f : Operation → Option α) (q : Query) (next : Step) :
    (step q next).operations.findSome? f = (q.operations.findSome? f).or (f (.step next)) := by
  rw [operations, List.findSome?_append, List.findSome?_singleton]

/-- A segment without groupings groups by the columns of the next one. -/
theorem groupClause_step_groupBy {q : Query} (h : .groupBy ∉ q.kinds) (columns : List Expr) :
    (step q (.groupBy columns)).groupClause = columns := by
  rw [groupClause, findSome?_step, List.findSome?_eq_none_iff.mpr]
  · rfl
  · intro op hop
    split
    · exact absurd (List.mem_map_of_mem hop) h
    · rfl

/-- A grouping is what its segment groups by, since an earlier one stays in a segment of its own. -/
theorem groupClause_groupBy (q : Query) (columns : List Expr) :
    (q.groupBy columns).groupClause = columns := by
  unfold groupBy apply
  split
  · rfl
  · next hfree =>
    have hkinds := conflictsWith_eq_false.mp (Bool.eq_false_iff.mpr hfree)
    exact groupClause_step_groupBy (fun hmem => hkinds _ hmem (.head _)) columns

/-- What a conflict means, operation by operation. -/
theorem conflictsWith_eq_true {q : Query} {kind : OperationKind} :
    q.conflictsWith kind = true ↔ ∃ earlier ∈ kind.conflicts, earlier ∈ q.kinds := by
  rw [← Bool.not_eq_false, conflictsWith_eq_false]
  simp [and_comm]

/-- After a grouping an aggregation needs a segment of its own exactly if repeated rows are dropped
before, and the grouping has not opened a segment. -/
theorem conflictsWith_agg_groupBy (q : Query) (columns : List Expr) :
    (q.groupBy columns).conflictsWith .agg = true ↔
      .distinct ∈ q.kinds ∧ q.conflictsWith .groupBy = false := by
  cases hfree : q.conflictsWith .groupBy with
  | true =>
    have happly : q.groupBy columns = step (subquery q) (.groupBy columns) := if_pos hfree
    have hagg : (step (subquery q) (.groupBy columns)).conflictsWith .agg = false := rfl
    rw [happly, hagg]
    exact iff_of_false Bool.false_ne_true (fun h => Bool.noConfusion h.2)
  | false =>
    have happly : q.groupBy columns = step q (.groupBy columns) :=
      if_neg (Bool.eq_false_iff.mp hfree)
    -- Besides dropped rows, all that an aggregation conflicts with is in the way of a grouping.
    have hkinds := conflictsWith_eq_false.mp hfree
    have hagg : .agg ∉ q.kinds := fun hmem => hkinds _ hmem (.tail _ (.head _))
    have horder : .orderBy ∉ q.kinds := fun hmem => hkinds _ hmem (.tail _ (.tail _ (.head _)))
    rw [happly, conflictsWith_eq_true]
    simp [OperationKind.conflicts, Step.kind, hagg, horder]

/-- The query with its rows counted, and sorted by the counts, in its last segment. -/
def counted (q : Query) (name : String) : Query :=
  step (step q (.agg [.rowCount name])) (.orderBy [.sort (.column name) .desc])

/-- Rows are counted in the segment of the grouping, or in one that reads from it. -/
theorem valueCounts_eq_counted (q : Query) {columns : List Expr} (h : columns ≠ []) :
    q.valueCounts columns =
      (if (q.groupBy columns).conflictsWith .agg then subquery (q.groupBy columns)
        else q.groupBy columns).counted (countName columns) := by
  have hsort (p : Query) (keys : List Expr) : p.orderBy keys = step p (.orderBy keys) :=
    if_neg (Bool.eq_false_iff.mp (conflictsWith_eq_false.mpr fun _ _ => List.not_mem_nil))
  have hcount (p : Query) (items : List Expr) :
      p.agg items = step (if p.conflictsWith .agg then subquery p else p) (.agg items) :=
    (apply_ite (step · (.agg items)) _ _ _).symm
  have hfilled : columns.isEmpty = false := List.isEmpty_eq_false_iff.mpr h
  rw [valueCounts, hfilled, if_neg Bool.false_ne_true, hsort, hcount]
  rfl

/-- Where rows can be counted in the last segment, they are counted by what it groups by. -/
theorem countsBy_counted {q : Query} (h : q.conflictsWith .agg = false) (name : String) :
    (q.counted name).statement.clauses.CountsBy q.groupClause name := by
  have hagg : .agg ∉ q.kinds := fun hmem => conflictsWith_eq_false.mp h _ hmem (.head _)
  have hgroup : (q.counted name).groupClause = q.groupClause := by
    rw [groupClause, counted, findSome?_step, findSome?_step, Option.or_none, Option.or_none]
    rfl
  have haggregations : (q.counted name).aggregations = some [.rowCount name] := by
    rw [aggregations, counted, findSome?_step, findSome?_step]
    change ((q.aggregations.or _).or _) = _
    rw [aggregations_eq_none hagg]
    rfl
  have horder : (q.counted name).orderClause = [.sort (.column name) .desc] := by
    rw [orderClause, counted, operations, List.reverse_append]
    rfl
  refine ⟨hgroup, ?_, horder⟩
  change projectionClause _ = _
  rw [projectionClause, haggregations, hgroup]

/-- Rows that are dropped as repeated are so in the clauses. -/
theorem isSome_distinctClause {q : Query} (h : .distinct ∈ q.kinds) :
    q.distinctClause.isSome = true := by
  obtain ⟨op, hop, hkind⟩ := List.mem_map.mp h
  refine List.findSome?_isSome_iff.mpr ⟨op, hop, ?_⟩
  match op with
  | .step (.distinct none) => rfl
  | .step (.distinct (some _)) => rfl

/-- Where the rows are counted in the segment of the grouping, they are counted by its columns. -/
theorem countsBy_valueCounts {q : Query} {columns : List Expr} (h : columns ≠ [])
    (hagg : (q.groupBy columns).conflictsWith .agg = false) :
    (q.valueCounts columns).statement.clauses.CountsBy columns (countName columns) := by
  have hquery := valueCounts_eq_counted q h
  rw [if_neg (Bool.eq_false_iff.mp hagg)] at hquery
  have hcounts := countsBy_counted hagg (countName columns)
  rwa [← hquery, groupClause_groupBy] at hcounts

/-- Where the rows are counted in a segment of their own, they are not grouped there. The segment
with the grouping is nested, and drops repeated rows. -/
theorem countsBy_nil_valueCounts {q : Query} {columns : List Expr} (h : columns ≠ [])
    (hagg : (q.groupBy columns).conflictsWith .agg = true) :
    let s := (q.valueCounts columns).statement
    s.clauses.CountsBy [] (countName columns) ∧
      ∃ tables inner, s.tables = .source (.subquery tables inner (subqueryAlias 0)) ∧
        inner.distinct.isSome ∧ inner.groupBy = columns := by
  obtain ⟨hdistinct, hfree⟩ := (conflictsWith_agg_groupBy q columns).mp hagg
  have hinner : q.groupBy columns = step q (.groupBy columns) :=
    if_neg (Bool.eq_false_iff.mp hfree)
  have hquery := valueCounts_eq_counted q h
  rw [if_pos hagg] at hquery
  rw [hquery]
  refine ⟨countsBy_counted (conflictsWith_subquery _ .agg) _, (q.tables 1).1,
    (q.groupBy columns).clauses true, ?_, ?_, groupClause_groupBy q columns⟩
  · rw [hinner]
    rfl
  · apply isSome_distinctClause
    rw [hinner, kinds_step]
    exact List.mem_append_left _ hdistinct

/-- The column of the counts has a name that none of the counted columns is known by. The outermost
statement counts by the columns exactly if the grouping opens a segment of its own wherever repeated
rows are dropped before it. Where it does not, the grouping is in a nested statement, and the
outermost one counts all that is left of it, without a grouping. -/
theorem countsBy_valueCounts_iff (q : Query) {columns : List Expr} (hcolumns : columns ≠ []) :
    let s := (q.valueCounts columns).statement
    let name := countName columns
    (∀ e ∈ columns, e ≠ .column name ∧ e.givenName? ≠ some name) ∧
      (s.clauses.CountsBy columns name ↔
        (.distinct ∈ q.kinds → q.conflictsWith .groupBy = true)) ∧
      (¬ s.clauses.CountsBy columns name → s.clauses.CountsBy [] name ∧
        ∃ tables inner, s.tables = .source (.subquery tables inner (subqueryAlias 0)) ∧
          inner.distinct.isSome ∧ inner.groupBy = columns) := by
  refine ⟨fun _ => countName_fresh, ?_⟩
  have hconflict := conflictsWith_agg_groupBy q columns
  cases hagg : (q.groupBy columns).conflictsWith .agg with
  | false =>
    have hcounts := countsBy_valueCounts hcolumns hagg
    refine ⟨iff_of_true hcounts fun hdistinct => ?_, fun hnot => absurd hcounts hnot⟩
    by_contra hfree
    have hopens := hconflict.mpr ⟨hdistinct, Bool.eq_false_iff.mpr hfree⟩
    exact Bool.false_ne_true (hagg.symm.trans hopens)
  | true =>
    obtain ⟨hdistinct, hfree⟩ := hconflict.mp hagg
    have hcounts := countsBy_nil_valueCounts hcolumns hagg
    refine ⟨iff_of_false ?_ fun hopens => ?_, fun _ => hcounts⟩
    · exact fun h => hcolumns (h.groupBy.symm.trans hcounts.1.groupBy)
    · exact Bool.false_ne_true (hfree.symm.trans (hopens hdistinct))

/-- A column with the name `count`: its values are counted among the rows of a table, and once
repeated rows are dropped only their groups are. -/
theorem countsBy_valueCounts_iff_distinct :
    let columns := [Expr.column "count"]
    let q := Query.table "t"
    columns ≠ [] ∧ (q.valueCounts columns).statement.clauses.CountsBy columns "count_count" ∧
      (q.distinct.valueCounts columns).statement.clauses.CountsBy [] "count_count" := by
  intro columns q
  have hcolumns : columns ≠ [] := List.cons_ne_nil _ _
  obtain ⟨-, hiff, -⟩ := countsBy_valueCounts_iff q hcolumns
  obtain ⟨-, hiffDistinct, hgroups⟩ := countsBy_valueCounts_iff q.distinct hcolumns
  refine ⟨hcolumns, hiff.mpr (by decide), (hgroups ?_).1⟩
  exact fun h => absurd (hiffDistinct.mp h) (by decide)

/-- The rows that are counted are those of a nested statement, which has a row for each group. -/
example : ((table "t").distinct.valueCounts [.column "a"]).toCompactSql =
    "SELECT COUNT(*) AS count FROM (SELECT DISTINCT * FROM t GROUP BY a) AS t0 " ++
      "ORDER BY count DESC" := by
  decide

end Query

end FluentSql
