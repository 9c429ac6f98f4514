import FluentSql.Proofs.Query.Built

/-!
# Queries that a script can express

A script writes the numbers of rows of limits and offsets as signed 64-bit integers. A built query
whose numbers are in that range is expressible, and actions on it keep it so.
-/

namespace FluentSql

/-- The numbers of rows in a step. -/
def Step.counts : Step → List UInt64
  | limit count | offset count => [count]
  | _ => []

namespace Query

/-- The numbers of rows of all limits and offsets of a query and of those nested in it. -/
def counts : Query → List UInt64
  | sourceless | table _ => []
  | subquery inner => inner.counts
  | step prior next => prior.counts ++ next.counts
  | join prior other .. => prior.counts ++ other.counts

end Query

/-- The numbers of rows in an operation. -/
def Operation.counts : Operation → List UInt64
  | step next => next.counts
  | join other .. => other.counts

/-- A number of rows is in the range of the integers of scripts. -/
def IsScriptCount (count : UInt64) : Prop :=
  (count.toNat : Int) ≤ Int64.maxValue.toInt

namespace Query

/-- One more operation adds its numbers of rows. -/
theorem counts_append (q : Query) (next : Operation) :
    (q.append next).counts = q.counts ++ next.counts := by
  cases next <;> rfl

/-- A segment of its own changes nothing about the numbers of rows. -/
@[simp] theorem counts_apply (q : Query) (next : Operation) :
    (q.apply next).counts = q.counts ++ next.counts := by
  unfold apply
  split <;> simp [counts_append, counts]

/-- Counting values adds no number of rows. -/
@[simp] theorem counts_valueCounts (q : Query) (columns : List Expr) :
    (q.valueCounts columns).counts = q.counts := by
  unfold valueCounts
  split <;> simp [groupBy, agg, orderBy, Operation.counts, Step.counts]

/-- A conversion adds no number of rows. -/
@[simp] theorem counts_withCast (q : Query) (column dataType : String) :
    (q.withCast column dataType).counts = q.counts := by
  unfold withCast
  split <;> simp [withColumns, counts, Operation.counts, Step.counts]

/-- A sort key adds no number of rows. -/
@[simp] theorem counts_sortBy (q : Query) (column : String) (direction : SortDirection) :
    (q.sortBy column direction).counts = q.counts := by
  unfold sortBy
  split <;> simp [orderBy, counts, Operation.counts, Step.counts]

/-- The query is built, and a script can write its numbers of rows. -/
structure Expressible (q : Query) : Prop where
  /-- Builder calls make the query. -/
  built : q.Built
  /-- The numbers of rows are in range. -/
  inRange : ∀ count ∈ q.counts, IsScriptCount count

/-- A table is expressible. -/
theorem Expressible.table (name : String) : (table name).Expressible :=
  ⟨.table name, by simp [counts]⟩

/-- Projecting columns keeps a query expressible. -/
theorem Expressible.select {q : Query} (h : q.Expressible) (columns : List Expr) :
    (q.select columns).Expressible :=
  ⟨h.built.select columns, by simpa [Query.select, Operation.counts, Step.counts] using h.inRange⟩

/-- Counting values keeps a query expressible. -/
theorem Expressible.valueCounts {q : Query} (h : q.Expressible) (columns : List Expr) :
    (q.valueCounts columns).Expressible :=
  ⟨h.built.valueCounts columns, by simpa using h.inRange⟩

/-- A conversion keeps a query expressible. -/
theorem Expressible.withCast {q : Query} (h : q.Expressible) (column dataType : String) :
    (q.withCast column dataType).Expressible :=
  ⟨h.built.withCast column dataType, by simpa using h.inRange⟩

/-- A sort key keeps a query expressible. -/
theorem Expressible.sortBy {q : Query} (h : q.Expressible) (column : String)
    (direction : SortDirection) : (q.sortBy column direction).Expressible :=
  ⟨h.built.sortBy column direction, by simpa using h.inRange⟩

end Query

end FluentSql
