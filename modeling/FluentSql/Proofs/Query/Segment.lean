import Mathlib.Data.List.Count
import Mathlib.Data.List.Pairwise
import FluentSql.Proofs.Script.Sound
import FluentSql.Statement.OfQuery

/-!
# Segments

The operations of a segment can share one `SELECT`: no operation comes after one that it conflicts
with. So a segment groups, aggregates and overwrites at most once, and the clauses that are taken
from the first operation of a kind leave no other one out. This holds of every query that builder
calls make or a script stands for, and of all queries nested in it.
-/

namespace FluentSql

namespace Query

/-- The kinds of the operations of the last segment. -/
def kinds (q : Query) : List OperationKind :=
  q.operations.map (·.kind)

/-- The second query is the first one or is nested in it, as a source or as a partner of a join. -/
inductive Reaches : Query → Query → Prop
  | refl (q : Query) : Reaches q q
  | source {q inner r : Query} (hsource : q.source = some (.query inner)) (h : Reaches inner r) :
      Reaches q r
  | partner {q other r : Query} {on : Expr} {kind : JoinKind}
      (hjoin : .join other on kind ∈ q.operations) (h : Reaches other r) : Reaches q r

/-- The last segment of the query fits into one `SELECT`. -/
structure Coherent (q : Query) : Prop where
  /-- No operation comes after one that it conflicts with. -/
  apart : q.kinds.Pairwise fun earlier later => earlier ∉ later.conflicts
  /-- Rows are grouped at most once. -/
  groupBy_once : q.kinds.count .groupBy ≤ 1
  /-- Groups are aggregated at most once. -/
  agg_once : q.kinds.count .agg ≤ 1
  /-- Columns are overwritten at most once. -/
  withColumns_once : q.kinds.count .withColumns ≤ 1
  /-- A grouping follows neither an aggregation nor a sort. -/
  groupBy_early : ¬ [.agg, .groupBy].Sublist q.kinds ∧ ¬ [.orderBy, .groupBy].Sublist q.kinds
  /-- An aggregation follows neither a sort nor a request to drop repeated rows. -/
  agg_early : ¬ [.orderBy, .agg].Sublist q.kinds ∧ ¬ [.distinct, .agg].Sublist q.kinds
  /-- A projection follows neither an overwriting, nor a grouping, nor an aggregation. -/
  select_early : ¬ [.withColumns, .select].Sublist q.kinds ∧
    ¬ [.groupBy, .select].Sublist q.kinds ∧ ¬ [.agg, .select].Sublist q.kinds
  /-- Columns are not both projected and overwritten. -/
  not_mixed : .select ∈ q.kinds → .withColumns ∉ q.kinds
  /-- A grouping gives the `GROUP BY` clause. -/
  groupClause_eq : ∀ columns, .step (.groupBy columns) ∈ q.operations → q.groupClause = columns
  /-- An aggregation gives the aggregates of the statement. -/
  aggregations_eq : ∀ items, .step (.agg items) ∈ q.operations → q.aggregations = some items
  /-- An overwriting gives the overwritten columns of the statement. -/
  overwrites_eq : ∀ columns, .step (.withColumns columns) ∈ q.operations →
    q.overwrites = some columns
  /-- Projections and subsets of columns are not empty. -/
  filled : ∀ next, .step next ∈ q.operations → next.Filled
  /-- Without a source the projection comes first. -/
  select_first : q.source = none → ∃ columns rest, q.operations = .step (.select columns) :: rest
  /-- Without a source no column is overwritten. -/
  overwrites_nothing : q.source = none → .withColumns ∉ q.kinds

/-- A step adds its kind. -/
@[simp] theorem kinds_step (prior : Query) (next : Step) :
    (step prior next).kinds = prior.kinds ++ [next.kind] := by
  rw [kinds, operations, List.map_append]
  rfl

/-- A join adds its kind. -/
@[simp] theorem kinds_join (prior other : Query) (on : Expr) (kind : JoinKind) :
    (join prior other on kind).kinds = prior.kinds ++ [.join] := by
  rw [kinds, operations, List.map_append]
  rfl

/-- What no conflict means, operation by operation. -/
theorem conflictsWith_eq_false {q : Query} {kind : OperationKind} :
    q.conflictsWith kind = false ↔ ∀ earlier ∈ q.kinds, earlier ∉ kind.conflicts := by
  simp [conflictsWith, kinds]

/-- A query that a well-formed one reads from is well-formed. -/
theorem WellFormed.of_source {q inner : Query} (h : q.WellFormed)
    (hsource : q.source = some (.query inner)) : inner.WellFormed := by
  induction h with
  | table name => cases hsource
  | subquery h =>
    obtain rfl := Source.query.inj (Option.some.inj hsource)
    exact h
  | columns => cases hsource
  | step _ _ _ ih => exact ih hsource
  | join _ _ _ _ ih => exact ih hsource

/-- A query that a well-formed one is joined with is well-formed. -/
theorem WellFormed.of_join {q other : Query} {on : Expr} {kind : JoinKind} (h : q.WellFormed)
    (hjoin : .join other on kind ∈ q.operations) : other.WellFormed := by
  induction h with
  | table name => cases hjoin
  | subquery => cases hjoin
  | columns => simp [operations] at hjoin
  | step _ _ _ ih =>
    simp only [operations, List.mem_append, List.mem_singleton, reduceCtorEq, or_false] at hjoin
    exact ih hjoin
  | join _ hother _ _ ih =>
    simp only [operations, List.mem_append, List.mem_singleton, Operation.join.injEq] at hjoin
    rcases hjoin with hjoin | ⟨rfl, -, -⟩
    · exact ih hjoin
    · exact hother

/-- All queries nested in a well-formed one are well-formed. -/
theorem WellFormed.of_reaches {q r : Query} (h : q.WellFormed) (hr : q.Reaches r) :
    r.WellFormed := by
  induction hr with
  | refl => exact h
  | source hsource _ ih => exact ih (h.of_source hsource)
  | partner hjoin _ ih => exact ih (h.of_join hjoin)

/-- No operation of a well-formed query comes after one that it conflicts with. -/
theorem WellFormed.kinds_pairwise {q : Query} (h : q.WellFormed) :
    q.kinds.Pairwise fun earlier later => earlier ∉ later.conflicts := by
  induction h with
  | table | subquery | columns => simp [kinds, operations]
  | step _ hfree _ ih =>
    rw [kinds_step, List.pairwise_append]
    exact ⟨ih, List.pairwise_singleton _ _, by simpa [conflictsWith_eq_false] using hfree⟩
  | join _ _ _ _ ih =>
    rw [kinds_join, List.pairwise_append]
    exact ⟨ih, List.pairwise_singleton _ _, by simp [OperationKind.conflicts]⟩

/-- The lists of a well-formed query name columns where they have to. -/
theorem WellFormed.filled {q : Query} {next : Step} (h : q.WellFormed)
    (hmem : .step next ∈ q.operations) : next.Filled := by
  induction h with
  | table | subquery => cases hmem
  | columns hfilled =>
    simp only [operations, List.nil_append, List.mem_singleton, Operation.step.injEq] at hmem
    subst hmem
    exact hfilled
  | step _ _ hfilled ih =>
    simp only [operations, List.mem_append, List.mem_singleton, Operation.step.injEq] at hmem
    rcases hmem with hmem | rfl
    · exact ih hmem
    · exact hfilled
  | join _ _ _ _ ih =>
    simp only [operations, List.mem_append, List.mem_singleton, reduceCtorEq, or_false] at hmem
    exact ih hmem

/-- A well-formed query without a source starts with a projection. -/
theorem WellFormed.select_first {q : Query} (h : q.WellFormed) (hsource : q.source = none) :
    ∃ columns rest, q.operations = .step (.select columns) :: rest := by
  induction h with
  | table | subquery => cases hsource
  | columns => exact ⟨_, [], rfl⟩
  | step _ _ _ ih | join _ _ _ _ ih =>
    obtain ⟨columns, rest, h⟩ := ih hsource
    exact ⟨columns, rest ++ [_], by rw [operations, h, List.cons_append]⟩

/-- A kind that conflicts with itself occurs once at most. -/
theorem WellFormed.count_kinds_le_one {q : Query} (h : q.WellFormed) {kind : OperationKind}
    (hkind : kind ∈ kind.conflicts) : q.kinds.count kind ≤ 1 := by
  by_contra htwice
  have htwo : (List.replicate 2 kind).Sublist q.kinds := List.replicate_sublist_iff.mpr (by omega)
  have hapart := h.kinds_pairwise.sublist htwo
  simp [hkind] at hapart

/-- Of two kinds in conflict the first one does not come before the second. -/
theorem WellFormed.not_sublist_kinds {q : Query} (h : q.WellFormed) {earlier later : OperationKind}
    (hconflict : earlier ∈ later.conflicts) : ¬ [earlier, later].Sublist q.kinds := by
  intro hsub
  have hapart := h.kinds_pairwise.sublist hsub
  simp [hconflict] at hapart

/-- A segment does not both project and overwrite columns. -/
theorem WellFormed.not_mixed {q : Query} (h : q.WellFormed) (hselect : .select ∈ q.kinds) :
    .withColumns ∉ q.kinds := by
  intro hover
  obtain ⟨before, after, hsplit⟩ := List.append_of_mem hselect
  have hapart := h.kinds_pairwise
  rw [hsplit, List.pairwise_append, List.pairwise_cons] at hapart
  rw [hsplit, List.mem_append, List.mem_cons] at hover
  rcases hover with hbefore | heq | hafter
  · exact absurd (hapart.2.2 _ hbefore .select List.mem_cons_self) (by decide)
  · cases heq
  · exact absurd (hapart.2.1.1 _ hafter) (by decide)

/-- What is taken from the first step of a kind that conflicts with itself is taken from each step
of the kind, as there is no other. -/
theorem WellFormed.findSome?_operations {α : Type} {q : Query} (h : q.WellFormed)
    (kind : OperationKind) (hkind : kind ∈ kind.conflicts) {f : Operation → Option α}
    (hstep : ∀ next, (f (.step next)).isSome → next.kind = kind)
    (hjoin : ∀ other on kind, f (.join other on kind) = none) {next : Step} {a : α}
    (hmem : .step next ∈ q.operations) (hnext : f (.step next) = some a) :
    q.operations.findSome? f = some a := by
  obtain ⟨before, after, hsplit⟩ := List.append_of_mem hmem
  have hapart := h.kinds_pairwise
  rw [kinds, hsplit, List.map_append, List.pairwise_append] at hapart
  have hbefore : before.findSome? f = none := by
    rw [List.findSome?_eq_none_iff]
    rintro (earlier | ⟨other, on, joinKind⟩) hearlier
    · by_contra hsome
      have hearlierKind := hstep earlier (Option.isSome_iff_ne_none.mpr hsome)
      have hnextKind := hstep next (by simp [hnext])
      have hfree := hapart.2.2 earlier.kind (List.mem_map_of_mem hearlier) next.kind
        List.mem_cons_self
      rw [hearlierKind, hnextKind] at hfree
      exact hfree hkind
    · exact hjoin other on joinKind
  rw [hsplit, List.findSome?_append, hbefore, List.findSome?_cons, hnext]
  rfl

/-- The last segment of a well-formed query fits into one `SELECT`. -/
theorem WellFormed.coherent {q : Query} (h : q.WellFormed) : q.Coherent where
  apart := h.kinds_pairwise
  groupBy_once := h.count_kinds_le_one (by decide)
  agg_once := h.count_kinds_le_one (by decide)
  withColumns_once := h.count_kinds_le_one (by decide)
  groupBy_early := ⟨h.not_sublist_kinds (by decide), h.not_sublist_kinds (by decide)⟩
  agg_early := ⟨h.not_sublist_kinds (by decide), h.not_sublist_kinds (by decide)⟩
  select_early := ⟨h.not_sublist_kinds (by decide), h.not_sublist_kinds (by decide),
    h.not_sublist_kinds (by decide)⟩
  not_mixed := h.not_mixed
  groupClause_eq columns hmem := by
    refine congrArg (Option.getD · [])
      (h.findSome?_operations .groupBy (by decide) ?_ (fun _ _ _ => rfl) hmem rfl)
    rintro (_ | _) hsome <;> first | rfl | cases hsome
  aggregations_eq items hmem := by
    refine h.findSome?_operations .agg (by decide) ?_ (fun _ _ _ => rfl) hmem rfl
    rintro (_ | _) hsome <;> first | rfl | cases hsome
  overwrites_eq columns hmem := by
    refine h.findSome?_operations .withColumns (by decide) ?_ (fun _ _ _ => rfl) hmem rfl
    rintro (_ | _) hsome <;> first | rfl | cases hsome
  filled next hmem := h.filled hmem
  select_first := h.select_first
  overwrites_nothing hsource := by
    obtain ⟨columns, rest, hops⟩ := h.select_first hsource
    apply h.not_mixed
    simp [kinds, hops, Operation.kind, Step.kind]

/-- In every query that builder calls make or a script stands for, each segment at any depth fits
into one `SELECT`. -/
theorem coherent_of_reaches {q r : Query} (hq : q.Built ∨ ∃ text, ofScript text = .ok q)
    (hr : q.Reaches r) : r.Coherent := by
  have hbuilt : q.Built := by
    rcases hq with hbuilt | ⟨text, htext⟩
    · exact hbuilt
    · exact (expressible_of_ofScript htext).built
  exact (hbuilt.wellFormed.of_reaches hr).coherent

/-- Two conversions share the segment that a later projection reads from. -/
theorem coherent_of_reaches_withCast :
    let inner := ((table "t").withCast "a" "int").withCast "b" "int"
    let outer := (inner.select [.column "a"]).valueCounts [.column "a"]
    outer.Built ∧ outer.Reaches inner ∧ inner.Coherent := by
  intro inner outer
  have hinner : inner.Built := ((Built.table "t").withCast "a" "int").withCast "b" "int"
  have houter : outer.Built := (hinner.select [.column "a"]).valueCounts [.column "a"]
  have hreaches : outer.Reaches inner := .source (by decide) (.refl inner)
  exact ⟨houter, hreaches, coherent_of_reaches (.inl houter) hreaches⟩

end Query

end FluentSql
