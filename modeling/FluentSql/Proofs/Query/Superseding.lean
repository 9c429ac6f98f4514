import FluentSql.Proofs.Query.Commute

/-!
# Projections that supersede others

The last projection of a segment that is more than the wildcard is in effect, and those before it
leave no trace in SQL, nor do wildcards after it. So the other calls of a segment may as well come
before it as after it, and no segment needs a wildcard for its SQL.
-/

namespace FluentSql

/-- A builder call that can share a segment with a projection, on either side of it. -/
inductive SharedCall
  | select (columns : List Expr)
  | distinct
  | distinctOn (subset : List Expr)
  | filter (predicate : Expr)
  | orderBy (keys : List Expr)
  | joinWith (other : Query) (on : Expr) (kind : JoinKind)
  | limit (count : UInt64)
  | offset (count : UInt64)

namespace SharedCall

/-- What the call makes of a query. -/
def on (q : Query) : SharedCall → Query
  | select columns => q.select columns
  | distinct => q.distinct
  | distinctOn subset => q.distinctOn subset
  | filter predicate => q.filter predicate
  | orderBy keys => q.orderBy keys
  | joinWith other on kind => q.joinWith other on kind
  | limit count => q.limit count
  | offset count => q.offset count

/-- What a sequence of calls makes of a query. -/
def allOn (q : Query) (calls : List SharedCall) : Query :=
  calls.foldl on q

/-- The call projects all columns, if it projects any. -/
def KeepsColumns : SharedCall → Prop
  | select columns => columns = [] ∨ columns = [.column "*"]
  | _ => True

/-- The operation that the call applies. -/
def operation : SharedCall → Operation
  | select columns => .step (.select (if columns.isEmpty then [.column "*"] else columns))
  | distinct => .step (.distinct none)
  | distinctOn subset => .step (.distinct (if subset.isEmpty then none else some subset))
  | filter predicate => .step (.filter predicate)
  | orderBy keys => .step (.orderBy keys)
  | joinWith other on kind => .join other on kind
  | limit count => .step (.limit count)
  | offset count => .step (.offset count)

/-- A call applies its operation. -/
theorem on_eq_apply (q : Query) (call : SharedCall) : call.on q = q.apply call.operation := by
  cases call with
  | distinctOn subset =>
    rw [on, Query.distinctOn, operation]
    split <;> rfl
  | _ => rfl

/-- No call overwrites columns, groups rows or aggregates groups. -/
theorem kind_operation_notMem (call : SharedCall) :
    call.operation.kind ∉ [OperationKind.withColumns, .groupBy, .agg] := by
  cases call <;> simp [operation, Operation.kind, Step.kind]

/-- A projection that keeps all columns applies the wildcard. -/
theorem operation_of_keepsColumns {columns : List Expr} (h : (select columns).KeepsColumns) :
    (select columns).operation = .step (.select [.column "*"]) := by
  rcases h with rfl | rfl <;> rfl

/-- Calls that keep all columns apply no projection but the wildcard. -/
theorem isAllColumns_of_keepsColumns {call : SharedCall} (h : call.KeepsColumns)
    {columns : List Expr} (hcolumns : call.operation.columns? = some columns) :
    Query.isAllColumns columns = true := by
  cases call with
  | select =>
    rw [operation_of_keepsColumns h] at hcolumns
    rw [← Option.some.inj hcolumns]
    rfl
  | _ => cases hcolumns

end SharedCall

namespace Query

variable {p q : Query}

/-! ### Segments that a projection can join -/

/-- The last segment neither overwrites columns, nor groups rows, nor aggregates groups. -/
structure Ungrouped (q : Query) : Prop where
  /-- No column is overwritten. -/
  withColumns : .withColumns ∉ q.kinds
  /-- No rows are grouped. -/
  groupBy : .groupBy ∉ q.kinds
  /-- No groups are aggregated. -/
  agg : .agg ∉ q.kinds

namespace Ungrouped

/-- A shared call neither overwrites, nor groups, nor aggregates. -/
theorem append (h : q.Ungrouped) (call : SharedCall) : (q.append call.operation).Ungrouped := by
  have hkinds : (q.append call.operation).kinds = q.kinds ++ [call.operation.kind] := by
    rw [kinds, operations_append, List.map_append]
    rfl
  have hkind := call.kind_operation_notMem
  simp only [List.mem_cons, List.not_mem_nil, or_false, not_or] at hkind
  obtain ⟨hover, hgroup, hagg⟩ := hkind
  constructor <;> rw [hkinds, List.mem_append, List.mem_singleton, not_or]
  · exact ⟨h.withColumns, Ne.symm hover⟩
  · exact ⟨h.groupBy, Ne.symm hgroup⟩
  · exact ⟨h.agg, Ne.symm hagg⟩

/-- A shared call goes into the last segment. -/
theorem on_eq_append (h : q.Ungrouped) (call : SharedCall) :
    call.on q = q.append call.operation := by
  rw [call.on_eq_apply]
  refine apply_eq_append (conflictsWith_eq_false.mpr fun earlier hearlier hconflict => ?_)
  cases call with
  | select =>
    -- All that a projection conflicts with is missing.
    simp only [SharedCall.operation, Operation.kind, Step.kind, OperationKind.conflicts,
      List.mem_cons, List.not_mem_nil, or_false] at hconflict
    rcases hconflict with rfl | rfl | rfl
    · exact h.withColumns hearlier
    · exact h.groupBy hearlier
    · exact h.agg hearlier
  | _ => cases hconflict

/-- Shared calls all go into the last segment, in order. -/
theorem allOn_eq (h : q.Ungrouped) (calls : List SharedCall) :
    SharedCall.allOn q calls = (calls.map SharedCall.operation).foldl Query.append q ∧
      (SharedCall.allOn q calls).Ungrouped := by
  induction calls generalizing q with
  | nil => exact ⟨rfl, h⟩
  | cons call calls ih =>
    have hfirst : SharedCall.allOn q (call :: calls) =
        SharedCall.allOn (q.append call.operation) calls :=
      congrArg (SharedCall.allOn · calls) (h.on_eq_append call)
    rw [hfirst]
    exact ih (h.append call)

end Ungrouped

/-! ### The projection in effect -/

/-- The columns that operations project come after those of the query. -/
theorem selections_foldl_append (q : Query) (operations : List Operation) :
    (operations.foldl append q).selections =
      q.selections ++ operations.filterMap Operation.columns? := by
  induction operations generalizing q with
  | nil => exact (List.append_nil _).symm
  | cons next operations ih =>
    rw [List.foldl_cons, ih, selections_append, List.append_assoc, List.filterMap_cons]
    cases next.columns? <;> rfl

/-- A projection that is more than the wildcard is in effect if only wildcards come after it. -/
theorem projectedColumns_of_selections {columns : List Expr} {before after : List (List Expr)}
    (hselections : q.selections = before ++ columns :: after)
    (hcolumns : isAllColumns columns = false) (hafter : ∀ c ∈ after, isAllColumns c = true) :
    q.projectedColumns = some columns := by
  have hskip : after.reverse.find? (fun c => !isAllColumns c) = none := by
    rw [List.find?_eq_none]
    intro c hc
    simp [hafter c (List.mem_reverse.mp hc)]
  rw [projectedColumns_eq, hselections, List.reverse_append, List.reverse_cons, List.append_assoc,
    List.find?_append, hskip, Option.none_or, List.singleton_append,
    List.find?_cons_of_pos (by simp [hcolumns])]
  rfl

/-- A last projection that is more than the wildcard is in effect. -/
theorem projectedColumns_append_select (q : Query) {columns : List Expr}
    (hcolumns : isAllColumns columns = false) :
    (q.append (.step (.select columns))).projectedColumns = some columns :=
  projectedColumns_of_selections (selections_append q (.step (.select columns))) hcolumns nofun

/-- One more wildcard is in effect only if it is the first projection. -/
theorem projectedColumns_wildcard (q : Query) {columns : List Expr}
    (hcolumns : isAllColumns columns = true) :
    (q.append (.step (.select columns))).projectedColumns =
      q.projectedColumns.or (some columns) := by
  have hselections : (q.append (.step (.select columns))).selections = q.selections ++ [columns] :=
    selections_append q (.step (.select columns))
  rw [projectedColumns_eq, projectedColumns_eq, hselections, List.reverse_append,
    List.reverse_singleton, List.singleton_append, List.find?_cons_of_neg (by simp [hcolumns]),
    List.head?_append, Option.or_assoc]
  rfl

/-! ### Queries that differ in their projections -/

/-- The queries have the same SQL on one line, and on many lines for every indent. -/
structure SameSql (p q : Query) : Prop where
  /-- The SQL on one line is the same. -/
  compact : p.toCompactSql = q.toCompactSql
  /-- The SQL on many lines is the same. -/
  pretty : ∀ indent, p.toSql indent = q.toSql indent

/-- The queries read the same tables under the same aliases, and their last segments have the same
steps of each kind other than projections. -/
structure DifferInSelect (p q : Query) : Prop where
  /-- The tables are the same, from any alias number on. -/
  tables : p.tables = q.tables
  /-- The steps are the same, projections apart. -/
  steps : AlikeButSelect p q

namespace DifferInSelect

/-- One more projection makes no other difference. -/
theorem select (q : Query) (columns : List Expr) :
    DifferInSelect (q.append (.step (.select columns))) q where
  tables := rfl
  steps kind hkind := by
    rw [stepsOf_append]
    simp [Operation.step?, Step.kind, hkind.symm]

/-- Queries that differ in projections alone do so in either order. -/
theorem symm (h : DifferInSelect p q) : DifferInSelect q p :=
  ⟨h.tables.symm, fun kind hkind => (h.steps kind hkind).symm⟩

/-- Two differences in projections alone are one. -/
theorem trans {r : Query} (h : DifferInSelect p q) (hr : DifferInSelect q r) :
    DifferInSelect p r :=
  ⟨h.tables.trans hr.tables, fun kind hkind => (h.steps kind hkind).trans (hr.steps kind hkind)⟩

/-- The same operation after both makes no difference. -/
theorem append (h : DifferInSelect p q) (next : Operation) :
    DifferInSelect (p.append next) (q.append next) where
  tables := by
    cases next with
    | step => exact h.tables
    | join other on kind =>
      funext index
      simp only [Query.append, Query.tables, h.tables]
  steps kind hkind := by
    rw [stepsOf_append, stepsOf_append, h.steps kind hkind]

/-- The same operations after both make no difference. -/
theorem foldl_append (h : DifferInSelect p q) (operations : List Operation) :
    DifferInSelect (operations.foldl Query.append p) (operations.foldl Query.append q) := by
  induction operations generalizing p q with
  | nil => exact h
  | cons next operations ih => exact ih (h.append next)

/-- Queries that differ in projections alone have the same SQL if they project the same items. -/
theorem sameSql_of_itemsSql (h : DifferInSelect p q)
    (hitems : p.projectionClause.itemsSql = q.projectionClause.itemsSql) : p.SameSql q := by
  have hstatement : p.statement =
      ⟨q.statement.tables, { q.statement.clauses with projection := p.projectionClause }⟩ := by
    rw [statement, toStatement, h.tables, h.steps.clauses_eq false]
    rfl
  have hprojection : q.statement.clauses.projection = q.projectionClause := rfl
  constructor
  · rw [toCompactSql, toCompactSql, hstatement, Statement.compact, Statement.compact, Clauses.line,
      Clauses.line, Clauses.selectClause, Clauses.selectClause, hprojection, ← hitems]
    rfl
  · intro indent
    rw [toSql, toSql, hstatement, Statement.pretty, Statement.pretty, Clauses.lines, Clauses.lines,
      Clauses.selectLines, Clauses.selectLines, hprojection, ← hitems]
    rfl

/-- Queries that differ in projections alone have the same SQL if the same columns are in effect. -/
theorem sameSql (h : DifferInSelect p q) (hcolumns : p.projectedColumns = q.projectedColumns) :
    p.SameSql q :=
  h.sameSql_of_itemsSql (congrArg Projection.itemsSql (h.steps.projectionClause_eq hcolumns))

end DifferInSelect

/-- One more wildcard leaves the SQL as it is: it is not in effect next to another projection, and
without one a statement projects all columns anyway. -/
theorem sameSql_wildcard (q : Query) :
    (q.append (.step (.select [.column "*"]))).SameSql q := by
  have hdiffer := DifferInSelect.select q [.column "*"]
  have hcolumns : (q.append (.step (.select [.column "*"]))).projectedColumns =
      q.projectedColumns.or (some [.column "*"]) := projectedColumns_wildcard q rfl
  cases hprojected : q.projectedColumns with
  | some columns =>
    rw [hprojected, Option.some_or] at hcolumns
    exact hdiffer.sameSql (hcolumns.trans hprojected.symm)
  | none =>
    refine hdiffer.sameSql_of_itemsSql ?_
    rw [projectionClause, projectionClause, hdiffer.steps.groupClause_eq,
      hdiffer.steps.aggregations_eq, hdiffer.steps.overwrites_eq, hcolumns, hprojected]
    cases q.aggregations <;> cases q.overwrites <;> rfl

/-! ### Calls around a projection -/

/-- A list of columns is the wildcard exactly if it is `*` alone. -/
theorem isAllColumns_iff {columns : List Expr} :
    isAllColumns columns = true ↔ columns = [.column "*"] := by
  unfold isAllColumns
  split
  · next e => cases e <;> simp [Expr.isWildcard]
  · next hmany => exact iff_of_false Bool.false_ne_true fun h => hmany _ h

namespace Ungrouped

/-- A projection goes into the last segment, and more calls can share it. -/
theorem select (h : q.Ungrouped) (columns : List Expr) :
    q.select columns = q.append (SharedCall.select columns).operation ∧
      (q.select columns).Ungrouped := by
  have hselect : q.select columns = q.append (SharedCall.select columns).operation :=
    h.on_eq_append (.select columns)
  exact ⟨hselect, hselect ▸ h.append (.select columns)⟩

/-- A projection of some columns is applied as it stands. -/
theorem select_eq_append (h : q.Ungrouped) {columns : List Expr} (hfilled : columns ≠ []) :
    q.select columns = q.append (.step (.select columns)) := by
  rw [(h.select columns).1, SharedCall.operation, if_neg (by simpa using hfilled)]

/-- A projection that keeps all columns leaves the SQL as it is. -/
theorem sameSql_select (h : q.Ungrouped) {columns : List Expr}
    (hkeeps : (SharedCall.select columns).KeepsColumns) : (q.select columns).SameSql q := by
  rw [(h.select columns).1, SharedCall.operation_of_keepsColumns hkeeps]
  exact sameSql_wildcard q

/-- A projection that is more than the wildcard supersedes an earlier one. -/
theorem sameSql_select_earlier (h : q.Ungrouped) {columns : List Expr} (hfilled : columns ≠ [])
    (hcolumns : isAllColumns columns = false) (earlier : List Expr) (calls : List SharedCall) :
    ((SharedCall.allOn (q.select earlier) calls).select columns).SameSql
      ((SharedCall.allOn q calls).select columns) := by
  obtain ⟨hearlier, hselected⟩ := h.select earlier
  obtain ⟨hleft, hleftUngrouped⟩ := hselected.allOn_eq calls
  obtain ⟨hright, hrightUngrouped⟩ := h.allOn_eq calls
  rw [hleftUngrouped.select_eq_append hfilled, hrightUngrouped.select_eq_append hfilled, hleft,
    hright, hearlier]
  exact (((DifferInSelect.select q _).foldl_append _).append _).sameSql
    ((projectedColumns_append_select _ hcolumns).trans
      (projectedColumns_append_select _ hcolumns).symm)

/-- A projection that is more than the wildcard can come before calls that keep all columns. -/
theorem sameSql_select_before (h : q.Ungrouped) {columns : List Expr} (hfilled : columns ≠ [])
    (hcolumns : isAllColumns columns = false) {calls : List SharedCall}
    (hkeep : ∀ call ∈ calls, call.KeepsColumns) :
    (SharedCall.allOn (q.select columns) calls).SameSql
      ((SharedCall.allOn q calls).select columns) := by
  obtain ⟨hleft, -⟩ := (h.select columns).2.allOn_eq calls
  obtain ⟨hright, hungrouped⟩ := h.allOn_eq calls
  rw [hungrouped.select_eq_append hfilled, hleft, hright, h.select_eq_append hfilled]
  have hafter : ∀ c ∈ (calls.map SharedCall.operation).filterMap Operation.columns?,
      isAllColumns c = true := by
    intro c hc
    rw [List.filterMap_map, List.mem_filterMap] at hc
    obtain ⟨call, hcall, hc⟩ := hc
    exact SharedCall.isAllColumns_of_keepsColumns (hkeep call hcall) hc
  have hbefore : ((calls.map SharedCall.operation).foldl Query.append
      (q.append (.step (.select columns)))).selections = q.selections ++ columns ::
        (calls.map SharedCall.operation).filterMap Operation.columns? := by
    rw [selections_foldl_append, selections_append, List.append_assoc]
    rfl
  have hdiffer := ((DifferInSelect.select q columns).foldl_append
    (calls.map SharedCall.operation)).trans (DifferInSelect.select _ columns).symm
  exact hdiffer.sameSql ((projectedColumns_of_selections hbefore hcolumns hafter).trans
    (projectedColumns_append_select _ hcolumns).symm)

end Ungrouped

/-- On a segment that neither overwrites, nor groups, nor aggregates, a wildcard changes nothing in
SQL, nor does a projection of no columns. A projection that is more than the wildcard supersedes
all those before it, whatever calls that can share its segment stand in between. It has the same
effect before such calls as after them if they project nothing but all columns. -/
theorem Ungrouped.select_supersedes (h : q.Ungrouped) :
    (q.select [.column "*"]).SameSql q ∧ (q.select []).SameSql q ∧
      ∀ columns ≠ [], columns ≠ [.column "*"] →
        (∀ earlier calls, ((SharedCall.allOn (q.select earlier) calls).select columns).SameSql
          ((SharedCall.allOn q calls).select columns)) ∧
        ∀ calls, (∀ call ∈ calls, call.KeepsColumns) →
          (SharedCall.allOn (q.select columns) calls).SameSql
            ((SharedCall.allOn q calls).select columns) := by
  refine ⟨h.sameSql_select (.inr rfl), h.sameSql_select (.inl rfl), fun columns hfilled hstar => ?_⟩
  have hcolumns : isAllColumns columns = false := by
    rw [Bool.eq_false_iff]
    exact fun hall => hstar (isAllColumns_iff.mp hall)
  exact ⟨h.sameSql_select_earlier hfilled hcolumns,
    fun calls => h.sameSql_select_before hfilled hcolumns⟩

/-- Two columns of a sorted table are projected once and for all: before or after a join with a
nested query, and whatever was projected before. -/
theorem Ungrouped.select_supersedes_join :
    let q := (table "t").orderBy [.column "k"]
    let columns := [Expr.column "a", .column "*"]
    let join := SharedCall.joinWith ((table "u").filter (.column "x")) (.column "y") .left
    let calls := [join, .distinctOn [.column "a"], .select [], .limit 3]
    q.Ungrouped ∧ columns ≠ [] ∧ columns ≠ [.column "*"] ∧ (∀ call ∈ calls, call.KeepsColumns) ∧
      (q.select [.column "*"]).SameSql q ∧
      ((SharedCall.allOn (q.select [.column "b"]) calls).select columns).SameSql
        ((SharedCall.allOn q calls).select columns) ∧
      (SharedCall.allOn (q.select columns) calls).SameSql
        ((SharedCall.allOn q calls).select columns) := by
  intro q columns join calls
  have hungrouped : q.Ungrouped := ⟨by decide, by decide, by decide⟩
  have hfilled : columns ≠ [] := List.cons_ne_nil _ _
  have hstar : columns ≠ [.column "*"] := by decide
  have hkeep : ∀ call ∈ calls, call.KeepsColumns := by
    simp [calls, join, SharedCall.KeepsColumns]
  obtain ⟨hwildcard, -, hall⟩ := hungrouped.select_supersedes
  obtain ⟨hearlier, hbefore⟩ := hall columns hfilled hstar
  exact ⟨hungrouped, hfilled, hstar, hkeep, hwildcard, hearlier _ calls, hbefore calls hkeep⟩

/-- Of a projection and a wildcard, the projection is in effect in either order. -/
example :
    let columns := [Expr.column "species", .column "island"]
    (((table "p").select [.column "*"]).select columns).toCompactSql =
        "SELECT species, island FROM p" ∧
      (((table "p").select columns).select [.column "*"]).toCompactSql =
        "SELECT species, island FROM p" := by
  decide

end Query

end FluentSql
