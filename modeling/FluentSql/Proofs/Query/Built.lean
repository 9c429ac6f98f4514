import FluentSql.Query.Builder

/-!
# Queries that builder calls make

A query is built when some sequence of builder calls makes it. Every built query is well-formed: no
operation stands in a segment that it should have left, no list is empty that has to name a column,
and a segment without a source starts with its projection.
-/

namespace FluentSql

/-- The lists that have to name a column do so. -/
def Step.Filled : Step → Prop
  | select columns => columns ≠ []
  | distinct (some subset) => subset ≠ []
  | _ => True

namespace Query

/-- Some sequence of builder calls makes the query. -/
inductive Built : Query → Prop
  | table (name : String) : Built (.table name)
  | subquery {inner : Query} (h : Built inner) : Built (.subquery inner)
  | ofColumns (columns : List Expr) : Built (ofColumns columns)
  | select {q : Query} (h : Built q) (columns : List Expr) : Built (q.select columns)
  | distinct {q : Query} (h : Built q) : Built q.distinct
  | distinctOn {q : Query} (h : Built q) (subset : List Expr) : Built (q.distinctOn subset)
  | filter {q : Query} (h : Built q) (predicate : Expr) : Built (q.filter predicate)
  | groupBy {q : Query} (h : Built q) (columns : List Expr) : Built (q.groupBy columns)
  | agg {q : Query} (h : Built q) (aggregations : List Expr) : Built (q.agg aggregations)
  | orderBy {q : Query} (h : Built q) (keys : List Expr) : Built (q.orderBy keys)
  | withColumns {q : Query} (h : Built q) (columns : List Expr) : Built (q.withColumns columns)
  | joinWith {q other : Query} (h : Built q) (hother : Built other) (on : Expr) (kind : JoinKind) :
      Built (q.joinWith other on kind)
  | limit {q : Query} (h : Built q) (count : UInt64) : Built (q.limit count)
  | offset {q : Query} (h : Built q) (count : UInt64) : Built (q.offset count)
  | valueCounts {q : Query} (h : Built q) (columns : List Expr) : Built (q.valueCounts columns)
  | withCast {q : Query} (h : Built q) (column dataType : String) :
      Built (q.withCast column dataType)
  | sortBy {q : Query} (h : Built q) (column : String) (direction : SortDirection) :
      Built (q.sortBy column direction)

/-- The query and all those nested in it keep to the rules of a segment, operation by operation. -/
inductive WellFormed : Query → Prop
  | table (name : String) : WellFormed (.table name)
  | subquery {inner : Query} (h : WellFormed inner) : WellFormed (.subquery inner)
  | columns {columns : List Expr} (hfilled : columns ≠ []) :
      WellFormed (.step .sourceless (.select columns))
  | step {prior : Query} {next : Step} (h : WellFormed prior)
      (hfree : prior.conflictsWith next.kind = false) (hfilled : next.Filled) :
      WellFormed (.step prior next)
  | join {prior other : Query} (h : WellFormed prior) (hother : WellFormed other) (on : Expr)
      (kind : JoinKind) : WellFormed (.join prior other on kind)

end Query

/-- The operation may stand in a well-formed query. -/
def Operation.Valid : Operation → Prop
  | step next => next.Filled
  | join other .. => other.WellFormed

namespace Query

/-- One more operation keeps a query well-formed when nothing before it is in the way. -/
theorem WellFormed.append {q : Query} {next : Operation} (h : q.WellFormed)
    (hfree : q.conflictsWith next.kind = false) (hvalid : next.Valid) :
    (q.append next).WellFormed := by
  cases next with
  | step next => exact .step h hfree hvalid
  | join other on kind => exact .join h hvalid on kind

/-- Nothing is in the way at the start of a segment that reads from a query. -/
theorem conflictsWith_subquery (inner : Query) (kind : OperationKind) :
    (subquery inner).conflictsWith kind = false := rfl

/-- Applying an operation keeps a query well-formed: it opens a segment of its own where it has
to. -/
theorem WellFormed.apply {q : Query} {next : Operation} (h : q.WellFormed)
    (hvalid : next.Valid) : (q.apply next).WellFormed := by
  unfold Query.apply
  split
  · exact .append (.subquery h) (conflictsWith_subquery q next.kind) hvalid
  · next hfree => exact .append h (by simpa using hfree) hvalid

/-- A projection names a column, at least the wildcard. -/
theorem WellFormed.select {q : Query} (h : q.WellFormed) (columns : List Expr) :
    (q.select columns).WellFormed := by
  apply h.apply
  change (if columns.isEmpty then [Expr.column "*"] else columns) ≠ []
  cases columns <;> simp

/-- A query without a source starts with its projection. -/
theorem WellFormed.ofColumns (columns : List Expr) : (ofColumns columns).WellFormed := by
  cases columns with
  | nil => exact .columns (by simp)
  | cons first rest => exact .columns (by simp)

/-- Dropping repeated rows keeps a query well-formed. -/
theorem WellFormed.distinct {q : Query} (h : q.WellFormed) : q.distinct.WellFormed :=
  h.apply trivial

/-- A subset without columns stands for whole rows. -/
theorem WellFormed.distinctOn {q : Query} (h : q.WellFormed) (subset : List Expr) :
    (q.distinctOn subset).WellFormed := by
  unfold Query.distinctOn
  split
  · exact h.distinct
  · next hfilled => exact h.apply (by simpa [Operation.Valid, Step.Filled] using hfilled)

/-- Counting values keeps a query well-formed. -/
theorem WellFormed.valueCounts {q : Query} (h : q.WellFormed) (columns : List Expr) :
    (q.valueCounts columns).WellFormed := by
  unfold Query.valueCounts
  split
  · exact h
  · exact .apply (.apply (.apply h trivial) trivial) trivial

/-- The last step of a well-formed query may be exchanged for another one of its kind, unless it is
the projection that a query without a source starts with. -/
theorem WellFormed.exchange {prior : Query} {last next : Step}
    (h : (Query.step prior last).WellFormed) (hkind : next.kind = last.kind)
    (hselect : last.kind ≠ .select) (hfilled : next.Filled) :
    (Query.step prior next).WellFormed := by
  cases h with
  | columns => exact absurd rfl hselect
  | step h hfree => exact .step h (by rwa [hkind]) hfilled

/-- A conversion joins those before it or overwrites a column anew. -/
theorem WellFormed.withCast {q : Query} (h : q.WellFormed) (column dataType : String) :
    (q.withCast column dataType).WellFormed := by
  unfold Query.withCast
  split
  · exact h.exchange rfl (by simp [Step.kind]) trivial
  · exact h.apply trivial

/-- A sort key joins those before it or sorts anew. -/
theorem WellFormed.sortBy {q : Query} (h : q.WellFormed) (column : String)
    (direction : SortDirection) : (q.sortBy column direction).WellFormed := by
  unfold Query.sortBy
  split
  · exact h.exchange rfl (by simp [Step.kind]) trivial
  · exact h.apply trivial

/-- Every query that builder calls make is well-formed. -/
theorem Built.wellFormed {q : Query} (h : q.Built) : q.WellFormed := by
  induction h with
  | table name => exact .table name
  | subquery _ ih => exact .subquery ih
  | ofColumns columns => exact .ofColumns columns
  | select _ columns ih => exact ih.select columns
  | distinct _ ih => exact ih.distinct
  | distinctOn _ subset ih => exact ih.distinctOn subset
  | joinWith _ _ on kind ih ihother => exact ih.apply ihother
  | valueCounts _ columns ih => exact ih.valueCounts columns
  | withCast _ column dataType ih => exact ih.withCast column dataType
  | sortBy _ column direction ih => exact ih.sortBy column direction
  | filter _ _ ih | groupBy _ _ ih | agg _ _ ih | orderBy _ _ ih | withColumns _ _ ih
  | limit _ _ ih | offset _ _ ih => exact ih.apply trivial

end Query

end FluentSql
