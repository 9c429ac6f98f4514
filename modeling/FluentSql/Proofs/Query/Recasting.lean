import FluentSql.Proofs.Query.Overwrites
import FluentSql.Query.Sql

/-!
# Columns that are converted again

A conversion joins the columns that a last overwriting operation overwrites. It does not look at
them, so a column that is converted twice in a row stands twice in one replacement of columns. A
recipe, which is the builder calls themselves, tells where that happens: exactly where a call
converts a column which the overwriting right before it already names.
-/

namespace FluentSql

/-! ### Recipes -/

/-- A builder call on one query. -/
inductive Call
  | select (columns : List Expr)
  | distinct
  | distinctOn (subset : List Expr)
  | filter (predicate : Expr)
  | groupBy (columns : List Expr)
  | agg (aggregations : List Expr)
  | orderBy (keys : List Expr)
  | withColumns (columns : List Expr)
  | limit (count : UInt64)
  | offset (count : UInt64)
  | valueCounts (columns : List Expr)
  | withCast (column dataType : String)
  | sortBy (column : String) (direction : SortDirection)

/-- What the call makes of a query. -/
def Call.on (q : Query) : Call → Query
  | select columns => q.select columns
  | distinct => q.distinct
  | distinctOn subset => q.distinctOn subset
  | filter predicate => q.filter predicate
  | groupBy columns => q.groupBy columns
  | agg aggregations => q.agg aggregations
  | orderBy keys => q.orderBy keys
  | withColumns columns => q.withColumns columns
  | limit count => q.limit count
  | offset count => q.offset count
  | valueCounts columns => q.valueCounts columns
  | withCast column dataType => q.withCast column dataType
  | sortBy column direction => q.sortBy column direction

/-- Builder calls that make a query, from its source on. -/
inductive Recipe
  | table (name : String)
  | subquery (inner : Recipe)
  | ofColumns (columns : List Expr)
  | call (prior : Recipe) (next : Call)
  | join (prior other : Recipe) (on : Expr) (kind : JoinKind)

/-- The query that the calls make. -/
def Recipe.query : Recipe → Query
  | table name => .table name
  | subquery inner => .subquery inner.query
  | ofColumns columns => .ofColumns columns
  | call prior next => next.on prior.query
  | join prior other on kind => prior.query.joinWith other.query on kind

/-- A call makes a built query of a built one. -/
theorem Query.Built.call {q : Query} (h : q.Built) (next : Call) : (next.on q).Built := by
  cases next with
  | select columns => exact h.select columns
  | distinct => exact h.distinct
  | distinctOn subset => exact h.distinctOn subset
  | filter predicate => exact h.filter predicate
  | groupBy columns => exact h.groupBy columns
  | agg aggregations => exact h.agg aggregations
  | orderBy keys => exact h.orderBy keys
  | withColumns columns => exact h.withColumns columns
  | limit count => exact h.limit count
  | offset count => exact h.offset count
  | valueCounts columns => exact h.valueCounts columns
  | withCast column dataType => exact h.withCast column dataType
  | sortBy column direction => exact h.sortBy column direction

/-- The queries of recipes are built. -/
theorem Recipe.built (r : Recipe) : r.query.Built := by
  induction r with
  | table name => exact .table name
  | subquery _ ih => exact .subquery ih
  | ofColumns columns => exact .ofColumns columns
  | call _ next ih => exact ih.call next
  | join _ _ on kind ih ihother => exact ih.joinWith ihother on kind

/-- Every built query has a recipe. -/
theorem Query.Built.exists_recipe {q : Query} (h : q.Built) : ∃ r : Recipe, r.query = q := by
  have hcall {q : Query} (next : Call) : (∃ r : Recipe, r.query = q) →
      ∃ r : Recipe, r.query = next.on q := by
    rintro ⟨r, rfl⟩
    exact ⟨.call r next, rfl⟩
  induction h with
  | table name => exact ⟨.table name, rfl⟩
  | subquery _ ih =>
    obtain ⟨r, rfl⟩ := ih
    exact ⟨.subquery r, rfl⟩
  | ofColumns columns => exact ⟨.ofColumns columns, rfl⟩
  | joinWith _ _ on kind ih ihother =>
    obtain ⟨r, rfl⟩ := ih
    obtain ⟨other, rfl⟩ := ihother
    exact ⟨.join r other on kind, rfl⟩
  | select _ columns ih => exact hcall (.select columns) ih
  | distinct _ ih => exact hcall .distinct ih
  | distinctOn _ subset ih => exact hcall (.distinctOn subset) ih
  | filter _ predicate ih => exact hcall (.filter predicate) ih
  | groupBy _ columns ih => exact hcall (.groupBy columns) ih
  | agg _ aggregations ih => exact hcall (.agg aggregations) ih
  | orderBy _ keys ih => exact hcall (.orderBy keys) ih
  | withColumns _ columns ih => exact hcall (.withColumns columns) ih
  | limit _ count ih => exact hcall (.limit count) ih
  | offset _ count ih => exact hcall (.offset count) ih
  | valueCounts _ columns ih => exact hcall (.valueCounts columns) ih
  | withCast _ column dataType ih => exact hcall (.withCast column dataType) ih
  | sortBy _ column direction ih => exact hcall (.sortBy column direction) ih

/-! ### The names in an overwriting -/

namespace Expr

/-- The names that the entries of an overwriting are given, in order. -/
def givenNames (columns : List Expr) : List String :=
  columns.filterMap (·.givenName?)

/-- The entry that converts a column in place. -/
def conversion (column dataType : String) : Expr :=
  .named (.cast (.column column) (Text.upper dataType)) column

/-- One more conversion gives one more name. -/
@[simp] theorem givenNames_conversion (columns : List Expr) (column dataType : String) :
    givenNames (columns ++ [conversion column dataType]) = givenNames columns ++ [column] := by
  rw [givenNames, List.filterMap_append]
  rfl

/-- The entries that take effect give all names. -/
@[simp] theorem givenNames_namedEntries (columns : List Expr) :
    givenNames (namedEntries columns) = givenNames columns := by
  rw [givenNames, namedEntries, List.filterMap_filter]
  refine List.filterMap_congr fun e _ => ?_
  cases e <;> rfl

/-- The entries that convert columns in place, each to a type of its own. -/
def conversions (casts : List (String × String)) : List Expr :=
  casts.map fun (name, dataType) => conversion name dataType

/-- Conversions take effect. -/
theorem namedEntries_conversions (columns : List Expr) (casts : List (String × String)) :
    namedEntries (columns ++ conversions casts) = namedEntries columns ++ conversions casts := by
  have hall : ∀ e ∈ conversions casts, e.givenName?.isSome := by
    intro e he
    obtain ⟨_, -, rfl⟩ := List.mem_map.mp he
    rfl
  rw [namedEntries, List.filter_append, List.filter_eq_self.mpr hall]
  rfl

end Expr

/-- The projection replaces a column twice. -/
def Projection.ReplacesTwice : Projection → Prop
  | replace columns => ¬ (Expr.givenNames columns).Nodup
  | _ => False

namespace Query

/-- The last segment overwrites a column twice. -/
def OverwritesTwice (q : Query) : Prop :=
  ∃ columns, .step (.withColumns columns) ∈ q.operations ∧ ¬ (Expr.givenNames columns).Nodup

/-- A kind other than that of joins is the kind of a step. -/
theorem exists_step_of_mem_kinds {q : Query} {kind : OperationKind} (h : kind ∈ q.kinds)
    (hkind : kind ≠ .join) : ∃ next, .step next ∈ q.operations ∧ next.kind = kind := by
  obtain ⟨op, hop, rfl⟩ := List.mem_map.mp h
  cases op with
  | step next => exact ⟨next, hop, rfl⟩
  | join => exact absurd rfl hkind

/-- A statement replaces a column twice exactly if its segment overwrites one twice and does not
aggregate. -/
theorem WellFormed.replacesTwice_iff {q : Query} (h : q.WellFormed) :
    q.projectionClause.ReplacesTwice ↔ q.OverwritesTwice ∧ .agg ∉ q.kinds := by
  by_cases hagg : .agg ∈ q.kinds
  · obtain ⟨next, hnext, hkind⟩ := exists_step_of_mem_kinds hagg (by decide)
    cases next with
    | agg items =>
      rw [h.coherent.projectionClause_eq_items hnext]
      exact iff_of_false id fun htwice => htwice.2 hagg
    | _ => cases hkind
  by_cases hover : .withColumns ∈ q.kinds
  · obtain ⟨next, hnext, hkind⟩ := exists_step_of_mem_kinds hover (by decide)
    cases next with
    | withColumns columns =>
      rw [h.coherent.projectionClause_eq_replace hnext hagg, Projection.ReplacesTwice,
        Expr.givenNames_namedEntries]
      refine ⟨fun htwice => ⟨⟨columns, hnext, htwice⟩, hagg⟩, ?_⟩
      rintro ⟨⟨others, hothers, htwice⟩, -⟩
      have hsame := (h.coherent.overwrites_eq others hothers).symm.trans
        (h.coherent.overwrites_eq columns hnext)
      rwa [Option.some.inj hsame] at htwice
    | _ => cases hkind
  · rw [projectionClause, aggregations_eq_none hagg, overwrites_eq_none hover]
    refine iff_of_false ?_ ?_
    · cases q.projectedColumns <;> exact id
    · rintro ⟨⟨columns, hcolumns, -⟩, -⟩
      exact hover (List.mem_map_of_mem hcolumns)

/-- Of statements and their segments, some statement replaces a column twice exactly if some segment
overwrites one twice and does not aggregate. -/
theorem exists_replacesTwice_iff {segments : List Query} {statements : List Statement}
    (hlowered : List.Forall₂ LoweredTo segments statements)
    (hwell : ∀ segment ∈ segments, segment.WellFormed) :
    (∃ s ∈ statements, s.clauses.projection.ReplacesTwice) ↔
      ∃ segment ∈ segments, segment.OverwritesTwice ∧ .agg ∉ segment.kinds := by
  induction hlowered with
  | nil => simp only [List.not_mem_nil, false_and, exists_false]
  | cons hfirst _ ih =>
    obtain ⟨_, _, rfl⟩ := hfirst
    obtain ⟨hsegment, hrest⟩ := List.forall_mem_cons.mp hwell
    rw [List.exists_mem_cons_iff, List.exists_mem_cons_iff, ih hrest]
    exact or_congr_left hsegment.replacesTwice_iff

end Query

/-! ### The steps of a query -/

/-- The step does not overwrite a column twice. -/
def Step.OverwritesApart : Step → Prop
  | withColumns columns => (Expr.givenNames columns).Nodup
  | _ => True

namespace Query

/-- The steps of a query and of those nested in it. -/
def steps : Query → List Step
  | sourceless | table _ => []
  | subquery inner => inner.steps
  | step prior next => prior.steps ++ [next]
  | join prior other .. => prior.steps ++ other.steps

/-- No step at any depth overwrites a column twice. -/
def OverwritesApart (q : Query) : Prop :=
  ∀ next ∈ q.steps, next.OverwritesApart

/-- The steps are those among the operations of the query and of the queries nested in it. -/
theorem mem_steps_iff {q : Query} {next : Step} :
    next ∈ q.steps ↔
      .step next ∈ q.operations ∨ ∃ r ∈ q.nestedQueries, .step next ∈ r.operations := by
  induction q with
  | sourceless | table => simp [steps, nestedQueries, operations]
  | subquery inner ih => simp [steps, nestedQueries, operations, ih]
  | step prior last ih => simp [steps, nestedQueries, operations, ih, or_right_comm]
  | join prior other on kind ih ihother =>
    simp [steps, nestedQueries, operations, ih, ihother, or_and_right, exists_or, or_assoc]

/-- The steps are those among the operations of the segments. -/
theorem mem_steps_iff_segment {q : Query} {next : Step} :
    next ∈ q.steps ↔ ∃ segment ∈ q.segments, .step next ∈ segment.operations := by
  rw [mem_steps_iff, segments, List.exists_mem_cons_iff]
  refine or_congr_right (exists_congr fun r => and_congr_left fun hnext => ?_)
  refine (List.mem_filter.trans (and_iff_left ?_)).symm
  cases r with
  | table => cases hnext
  | _ => rfl

/-- A segment overwrites a column twice exactly if one of its steps does. -/
theorem overwritesTwice_iff {q : Query} :
    q.OverwritesTwice ↔ ∃ next, .step next ∈ q.operations ∧ ¬ next.OverwritesApart := by
  refine ⟨fun ⟨columns, hcolumns, htwice⟩ => ⟨_, hcolumns, htwice⟩, ?_⟩
  rintro ⟨next, hnext, htwice⟩
  cases next with
  | withColumns columns => exact ⟨columns, hnext, htwice⟩
  | _ => exact absurd trivial htwice

/-- No step overwrites a column twice exactly if no segment does. -/
theorem overwritesApart_iff {q : Query} :
    q.OverwritesApart ↔ ¬ ∃ segment ∈ q.segments, segment.OverwritesTwice := by
  simp only [OverwritesApart, mem_steps_iff_segment, overwritesTwice_iff]
  grind

/-- One more step comes to those before. -/
@[simp] theorem overwritesApart_step {prior : Query} {next : Step} :
    (step prior next).OverwritesApart ↔ prior.OverwritesApart ∧ next.OverwritesApart := by
  simp only [OverwritesApart, steps, List.forall_mem_append, List.forall_mem_singleton]

/-- Applying a step makes it come to those before, in a segment of its own or not. -/
@[simp] theorem overwritesApart_apply_step {q : Query} {next : Step} :
    (q.apply (.step next)).OverwritesApart ↔ q.OverwritesApart ∧ next.OverwritesApart := by
  unfold apply
  split <;> exact overwritesApart_step

/-- The steps of a join are those of both sides. -/
@[simp] theorem overwritesApart_joinWith {q other : Query} {on : Expr} {kind : JoinKind} :
    (q.joinWith other on kind).OverwritesApart ↔ q.OverwritesApart ∧ other.OverwritesApart := by
  have hnone : q.conflictsWith .join = false :=
    conflictsWith_eq_false.mpr fun _ _ => List.not_mem_nil
  rw [joinWith, apply, Operation.kind, hnone, OverwritesApart]
  exact List.forall_mem_append

/-- Projecting columns overwrites none. -/
@[simp] theorem overwritesApart_select {q : Query} {columns : List Expr} :
    (q.select columns).OverwritesApart ↔ q.OverwritesApart :=
  overwritesApart_apply_step.trans (and_iff_left trivial)

/-- Dropping rows that repeat the columns of a subset overwrites no column. -/
theorem overwritesApart_distinctOn {q : Query} {subset : List Expr} :
    (q.distinctOn subset).OverwritesApart ↔ q.OverwritesApart := by
  unfold distinctOn
  split <;> simp [distinct, Step.OverwritesApart]

/-- Counting values overwrites no column. -/
theorem overwritesApart_valueCounts {q : Query} {columns : List Expr} :
    (q.valueCounts columns).OverwritesApart ↔ q.OverwritesApart := by
  unfold valueCounts
  split <;> simp [groupBy, agg, orderBy, Step.OverwritesApart]

/-- Sorting overwrites no column. -/
theorem overwritesApart_sortBy {q : Query} {column : String} {direction : SortDirection} :
    (q.sortBy column direction).OverwritesApart ↔ q.OverwritesApart := by
  unfold sortBy
  split <;> simp [orderBy, Step.OverwritesApart]

/-! ### Conversions -/

/-- The entries of a last overwriting operation. -/
def lastOverwrites : Query → List Expr
  | step _ (.withColumns columns) => columns
  | _ => []

/-- A conversion is one more entry of the last overwriting, which is that of the query it is
applied to, or a new one. -/
theorem withCast_eq (q : Query) (column dataType : String) :
    ∃ prior, q.withCast column dataType =
        step prior (.withColumns (q.lastOverwrites ++ [.conversion column dataType])) ∧
      (q.OverwritesApart ↔
        prior.OverwritesApart ∧ (Expr.givenNames q.lastOverwrites).Nodup) := by
  unfold withCast
  split
  · exact ⟨_, rfl, overwritesApart_step⟩
  · next hlast =>
    have hnone : q.lastOverwrites = [] := by
      unfold lastOverwrites
      split
      · exact absurd rfl (hlast _ _)
      · rfl
    rw [hnone, withColumns, apply]
    split <;> exact ⟨_, rfl, (and_iff_left List.nodup_nil).symm⟩

/-- A conversion overwrites a column twice exactly if the overwriting that it joins names the
column. -/
theorem overwritesApart_withCast {q : Query} {column dataType : String} :
    (q.withCast column dataType).OverwritesApart ↔
      q.OverwritesApart ∧ column ∉ Expr.givenNames q.lastOverwrites := by
  obtain ⟨prior, heq, hprior⟩ := q.withCast_eq column dataType
  rw [heq, overwritesApart_step, hprior, Step.OverwritesApart, Expr.givenNames_conversion,
    ← List.concat_eq_append, List.nodup_concat, and_assoc, and_comm (a := column ∉ _)]

/-- An operation that does not overwrite columns leaves none for a conversion to join. -/
theorem lastOverwrites_apply {q : Query} {next : Operation} (h : next.kind ≠ .withColumns) :
    (q.apply next).lastOverwrites = [] := by
  have happend (q : Query) : (q.append next).lastOverwrites = [] := by
    cases next with
    | step next =>
      cases next with
      | withColumns => exact absurd rfl h
      | _ => rfl
    | join => rfl
  unfold apply
  split <;> exact happend _

/-- The entries of an overwriting are left for a conversion to join. -/
theorem lastOverwrites_withColumns (q : Query) (columns : List Expr) :
    (q.withColumns columns).lastOverwrites = columns := by
  unfold withColumns apply
  split <;> rfl

/-- The statement of a segment that ends with an overwriting replaces the entries that carry an
alias: after an aggregation the overwriting would have opened a segment of its own. -/
theorem projectionClause_step_withColumns {prior : Query} {columns : List Expr}
    (h : (step prior (.withColumns columns)).WellFormed) :
    (step prior (.withColumns columns)).projectionClause =
      .replace (Expr.namedEntries columns) := by
  refine h.coherent.projectionClause_eq_replace (by simp [operations]) fun hagg => ?_
  rw [kinds_step, List.mem_append] at hagg
  cases h with
  | step _ hfree =>
    rcases hagg with hagg | hagg
    · exact conflictsWith_eq_false.mp hfree .agg hagg (by simp [Step.kind, OperationKind.conflicts])
    · cases List.mem_singleton.mp hagg

end Query

namespace Recipe

/-- No call that overwrites columns gives a name twice. -/
def AliasesApart : Recipe → Prop
  | table _ | ofColumns _ => True
  | subquery inner => inner.AliasesApart
  | call prior (.withColumns columns) => prior.AliasesApart ∧ (Expr.givenNames columns).Nodup
  | call prior _ => prior.AliasesApart
  | join prior other .. => prior.AliasesApart ∧ other.AliasesApart

/-- The entries that a conversion would join: those of a last call that overwrites columns, and the
conversions right after it. Counting the values of no columns is no call at all. -/
def lastOverwrites : Recipe → List Expr
  | call _ (.withColumns columns) => columns
  | call prior (.withCast column dataType) =>
    prior.lastOverwrites ++ [.conversion column dataType]
  | call prior (.valueCounts []) => prior.lastOverwrites
  | _ => []

/-- Some call converts a column that the overwriting it joins already names. -/
def Recasts : Recipe → Prop
  | table _ | ofColumns _ => False
  | subquery inner => inner.Recasts
  | call prior (.withCast column _) =>
    prior.Recasts ∨ column ∈ Expr.givenNames prior.lastOverwrites
  | call prior _ => prior.Recasts
  | join prior other .. => prior.Recasts ∨ other.Recasts

/-- The entries that a conversion would join are told by the calls. -/
theorem lastOverwrites_query (r : Recipe) : r.query.lastOverwrites = r.lastOverwrites := by
  induction r with
  | table | subquery => rfl
  | ofColumns columns =>
    change (Query.sourceless.select columns).lastOverwrites = []
    exact Query.lastOverwrites_apply nofun
  | join => exact Query.lastOverwrites_apply nofun
  | call prior next ih =>
    cases next with
    | withColumns columns => exact Query.lastOverwrites_withColumns _ _
    | withCast column dataType =>
      obtain ⟨_, heq, -⟩ := prior.query.withCast_eq column dataType
      rw [query, Call.on, heq, Query.lastOverwrites, ih, lastOverwrites]
    | valueCounts columns =>
      cases columns with
      | nil => exact ih
      | cons => exact Query.lastOverwrites_apply nofun
    | distinctOn subset =>
      cases subset with
      | nil => exact Query.lastOverwrites_apply nofun
      | cons => exact Query.lastOverwrites_apply nofun
    | sortBy column direction =>
      change (prior.query.sortBy column direction).lastOverwrites = []
      unfold Query.sortBy
      split
      · rfl
      · exact Query.lastOverwrites_apply nofun
    | _ => exact Query.lastOverwrites_apply nofun

/-- No step overwrites a column twice exactly if no call converts one again. -/
theorem overwritesApart_query {r : Recipe} (h : r.AliasesApart) :
    r.query.OverwritesApart ↔ ¬ r.Recasts := by
  induction r with
  | table => exact iff_of_true nofun not_false
  | ofColumns columns =>
    have hsource : Query.sourceless.OverwritesApart := nofun
    exact iff_of_true (Query.overwritesApart_select.mpr hsource) not_false
  | subquery inner ih => exact ih h
  | join prior other on kind ih ihother =>
    rw [query, Query.overwritesApart_joinWith, ih h.1, ihother h.2, Recasts, not_or]
  | call prior next ih =>
    cases next with
    | withColumns columns =>
      rw [query, Call.on, Query.withColumns, Query.overwritesApart_apply_step, ih h.1]
      exact and_iff_left h.2
    | withCast column dataType =>
      rw [query, Call.on, Query.overwritesApart_withCast, ih h, lastOverwrites_query, Recasts,
        not_or]
    | select => exact Query.overwritesApart_select.trans (ih h)
    | valueCounts => exact Query.overwritesApart_valueCounts.trans (ih h)
    | distinctOn => exact Query.overwritesApart_distinctOn.trans (ih h)
    | sortBy => exact Query.overwritesApart_sortBy.trans (ih h)
    | _ =>
      refine Query.overwritesApart_apply_step.trans (Iff.trans (and_iff_left ?_) (ih h))
      trivial

/-- The calls and conversions of columns after them, in order. -/
def casting (r : Recipe) (casts : List (String × String)) : Recipe :=
  casts.foldl (fun prior (column, dataType) => .call prior (.withCast column dataType)) r

/-- Conversions in a row are entries in a row. -/
theorem lastOverwrites_casting (r : Recipe) (casts : List (String × String)) :
    (r.casting casts).lastOverwrites = r.lastOverwrites ++ Expr.conversions casts := by
  induction casts generalizing r with
  | nil => exact (List.append_nil _).symm
  | cons cast casts ih => exact (ih _).trans (List.append_assoc _ _ _)

/-- The statement of a query that ends with a conversion replaces the entries that the conversion
joins, and after them the conversion. -/
theorem projectionClause_withCast (r : Recipe) (column dataType : String) :
    (call r (.withCast column dataType)).query.projectionClause =
      .replace (Expr.namedEntries (call r (.withCast column dataType)).lastOverwrites) := by
  have hwell := (call r (.withCast column dataType)).built.wellFormed
  rw [query, Call.on] at hwell ⊢
  obtain ⟨prior, heq, -⟩ := r.query.withCast_eq column dataType
  rw [heq] at hwell ⊢
  rw [Query.projectionClause_step_withColumns hwell, lastOverwrites_query, lastOverwrites]

/-- Conversions in a row are replaced in the order of the calls, after the entries that they join,
whether or not some of them name the same column. -/
theorem projectionClause_casting (r : Recipe) {casts : List (String × String)} (h : casts ≠ []) :
    (r.casting casts).query.projectionClause =
      .replace (Expr.namedEntries r.lastOverwrites ++ Expr.conversions casts) := by
  rw [← Expr.namedEntries_conversions, ← lastOverwrites_casting]
  obtain ⟨front, ⟨column, dataType⟩, rfl⟩ := (List.eq_nil_or_concat' casts).resolve_left h
  have hlast : r.casting (front ++ [(column, dataType)]) =
      call (r.casting front) (.withCast column dataType) := List.foldl_append
  rw [hlast, projectionClause_withCast]

/-- Let no call that overwrites columns give a name twice. Then some segment overwrites a column
twice exactly if some call converts a column that the overwriting it joins already names, and some
statement replaces a column twice exactly if a segment overwrites one twice and does not aggregate.
Conversions in a row are all replaced, in the order of the calls. -/
theorem statements_replacesTwice_iff {r : Recipe} (h : r.AliasesApart) (nested : Bool)
    (next : Nat) :
    ((∃ segment ∈ r.query.segments, segment.OverwritesTwice) ↔ r.Recasts) ∧
      ((∃ s ∈ (r.query.toStatement nested next).1.statements,
          s.clauses.projection.ReplacesTwice) ↔
        ∃ segment ∈ r.query.segments, segment.OverwritesTwice ∧ .agg ∉ segment.kinds) ∧
      ∀ casts ≠ [],
        let columns := Expr.namedEntries r.lastOverwrites ++ Expr.conversions casts
        let s := ((r.casting casts).query.toStatement nested next).1
        s.clauses.projection = .replace columns ∧
          s.clauses.projection.itemsSql = ["* REPLACE (" ++ Expr.listSql columns ++ ")"] := by
  refine ⟨?_, ?_, fun casts hcasts => ?_⟩
  · have hquery := overwritesApart_query h
    rw [Query.overwritesApart_iff] at hquery
    exact not_iff_not.mp hquery
  · exact Query.exists_replacesTwice_iff (Query.loweredTo_toStatement _ _ _) fun _ =>
      r.built.wellFormed.of_mem_segments
  · have hreplace := r.projectionClause_casting hcasts
    refine ⟨hreplace, (congrArg Projection.itemsSql hreplace).trans ?_⟩
    exact Projection.itemsSql_replace (by simpa [Expr.conversions] using fun _ => hcasts)

/-- A column that is converted to an integer and then to a floating-point number is replaced twice;
with a limit in between, each conversion has a statement of its own. -/
theorem statements_replacesTwice_iff_double :
    let once := call (table "t") (.withCast "a" "integer")
    let twice := call once (.withCast "a" "double")
    let apart := call (call once (.limit 10)) (.withCast "a" "double")
    (twice.AliasesApart ∧ twice.Recasts ∧
      ∃ s ∈ (twice.query.toStatement false 0).1.statements,
        s.clauses.projection.ReplacesTwice) ∧
    apart.AliasesApart ∧ ¬ apart.Recasts ∧
      ¬ ∃ s ∈ (apart.query.toStatement false 0).1.statements,
        s.clauses.projection.ReplacesTwice := by
  intro once twice apart
  have htwice : twice.AliasesApart := trivial
  have hapart : apart.AliasesApart := trivial
  have hrecasts : twice.Recasts := .inr (by decide)
  have hkeeps : ¬ apart.Recasts := by
    rintro (hfirst | hlater)
    · exact hfirst.elim id (by decide)
    · exact absurd hlater (by decide)
  obtain ⟨htwiceSegments, htwiceStatements, -⟩ := statements_replacesTwice_iff htwice false 0
  obtain ⟨hapartSegments, hapartStatements, -⟩ := statements_replacesTwice_iff hapart false 0
  refine ⟨⟨htwice, hrecasts, htwiceStatements.mpr ?_⟩, hapart, hkeeps, fun hreplaces => ?_⟩
  · obtain ⟨segment, hsegment, hover⟩ := htwiceSegments.mpr hrecasts
    have hone : ∀ segment ∈ twice.query.segments, .agg ∉ segment.kinds := by decide
    exact ⟨segment, hsegment, hover, hone segment hsegment⟩
  · obtain ⟨segment, hsegment, hover, -⟩ := hapartStatements.mp hreplaces
    exact hkeeps (hapartSegments.mp ⟨segment, hsegment, hover⟩)

/-- The conversion that was asked for first stands next to the last one. -/
example : (((Query.table "t").withCast "a" "integer").withCast "a" "double").toCompactSql =
    "SELECT * REPLACE (TRY_CAST(a AS INTEGER) AS a, TRY_CAST(a AS DOUBLE) AS a) FROM t" := by
  decide +kernel

end Recipe

end FluentSql
