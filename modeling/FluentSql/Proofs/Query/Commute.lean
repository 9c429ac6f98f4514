import FluentSql.Proofs.Query.Pruned
import FluentSql.Proofs.Query.RoundTrip

/-!
# Operations of different kinds

A clause is taken from the operations of one kind, in the order in which they were applied, and so
is the decision to open a segment. Queries that agree on each kind are therefore alike: they have
the same SQL, and the same calls keep them alike. Two operations of different kinds that share a
segment can be applied in either order.
-/

namespace FluentSql

/-- The step of an operation that is not a join. -/
def Operation.step? : Operation → Option Step
  | step next => some next
  | join .. => none

namespace Query

/-- The steps of a kind in the last segment, in the order in which they were applied. -/
def stepsOf (q : Query) (kind : OperationKind) : List Step :=
  (q.operations.filterMap Operation.step?).filter (·.kind = kind)

/-- The queries read the same tables under the same aliases, and their last segments have the same
steps of each kind. -/
structure Alike (p q : Query) : Prop where
  /-- The tables are the same, from any alias number on. -/
  tables : p.tables = q.tables
  /-- One of the queries is a table and nothing more if the other one is. -/
  tableName? : p.tableName? = q.tableName?
  /-- The steps of each kind are the same. -/
  stepsOf : ∀ kind, p.stepsOf kind = q.stepsOf kind

/-! ### What a segment is asked for -/

/-- Something is taken from steps of one kind, and nothing from other operations. -/
structure TakenFrom {α : Type} (kind : OperationKind) (f : Operation → Option α) : Prop where
  /-- Nothing is taken from a join. -/
  join : ∀ other on kind, f (.join other on kind) = none
  /-- What a step gives something for is of the kind. -/
  step : ∀ next, (f (.step next)).isSome → next.kind = kind

/-- What is taken from steps of a kind depends on the steps of that kind. -/
theorem filterMap_operations {α : Type} {kind : OperationKind} {f : Operation → Option α}
    (hf : TakenFrom kind f) (q : Query) :
    q.operations.filterMap f = (q.stepsOf kind).filterMap fun next => f (.step next) := by
  unfold stepsOf
  induction q.operations with
  | nil => rfl
  | cons operation operations ih =>
    cases operation with
    | join other on joinKind =>
      rw [List.filterMap_cons_none (hf.join other on joinKind), ih]
      rfl
    | step next =>
      have hstep : (Operation.step next).step? = some next := rfl
      rw [List.filterMap_cons, ih, List.filterMap_cons_some hstep]
      by_cases h : next.kind = kind
      · rw [List.filter_cons_of_pos (by simpa using h), List.filterMap_cons]
      · have hnone : f (.step next) = none := by
          by_contra hsome
          exact h (hf.step next (Option.isSome_iff_ne_none.mpr hsome))
        rw [List.filter_cons_of_neg (by simpa using h), hnone]

/-- The steps of a kind are those among the operations that have it. -/
theorem mem_stepsOf {q : Query} {kind : OperationKind} {next : Step} :
    next ∈ q.stepsOf kind ↔ .step next ∈ q.operations ∧ next.kind = kind := by
  simp only [stepsOf, List.mem_filter, List.mem_filterMap, decide_eq_true_eq]
  refine and_congr_left fun _ => ⟨?_, fun hmem => ⟨_, hmem, rfl⟩⟩
  rintro ⟨operation, hmem, hstep⟩
  cases operation with
  | step => cases hstep; exact hmem
  | join => cases hstep

/-- The steps of a kind after one more operation. -/
theorem stepsOf_append (q : Query) (next : Operation) (kind : OperationKind) :
    (q.append next).stepsOf kind = q.stepsOf kind ++ next.step?.toList.filter (·.kind = kind) := by
  unfold stepsOf
  rw [operations_append, List.filterMap_append, List.filter_append]
  cases next <;> rfl

/-- An operation conflicts with the steps of some kinds; no operation conflicts with a join. -/
theorem conflictsWith_eq_any (q : Query) (kind : OperationKind) :
    q.conflictsWith kind = kind.conflicts.any fun earlier => !(q.stepsOf earlier).isEmpty := by
  have hjoin : .join ∉ kind.conflicts := by cases kind <;> decide
  rw [Bool.eq_iff_iff]
  simp only [conflictsWith, List.any_eq_true, List.contains_iff_mem, Bool.not_eq_true',
    List.isEmpty_eq_false_iff_exists_mem, mem_stepsOf]
  constructor
  · rintro ⟨operation, hmem, hconflict⟩
    cases operation with
    | join => exact absurd hconflict hjoin
    | step next => exact ⟨next.kind, hconflict, next, hmem, rfl⟩
  · rintro ⟨_, hconflict, next, hmem, rfl⟩
    exact ⟨.step next, hmem, hconflict⟩

/-- Columns to project are taken from projections. -/
theorem takenFrom_columns? : TakenFrom .select Operation.columns? where
  join _ _ _ := rfl
  step next hsome := by
    obtain ⟨columns, hcolumns⟩ := Option.isSome_iff_exists.mp hsome
    rw [Operation.step.inj (Operation.eq_of_columns? hcolumns)]
    rfl

/-- The columns of the projection in effect depend on those of all projections. -/
theorem projectedColumns_eq (q : Query) :
    q.projectedColumns =
      (q.selections.reverse.find? fun columns => !isAllColumns columns).or q.selections.head? := by
  rw [← map_snd_projections, ← List.map_reverse, List.find?_map, List.head?_map, ← Option.map_or]
  rfl

variable {p q : Query}

/-- What is taken from steps of one kind is the same where those steps are. -/
theorem filterMap_eq {α : Type} {kind : OperationKind} {f : Operation → Option α}
    (hf : TakenFrom kind f) (hsteps : p.stepsOf kind = q.stepsOf kind) :
    p.operations.filterMap f = q.operations.filterMap f := by
  rw [filterMap_operations hf, filterMap_operations hf, hsteps]

/-- What a search from the start takes from steps of one kind is the same where those steps are. -/
theorem findSome?_eq {α : Type} {kind : OperationKind} {f : Operation → Option α}
    (hf : TakenFrom kind f) (hsteps : p.stepsOf kind = q.stepsOf kind) :
    p.operations.findSome? f = q.operations.findSome? f := by
  rw [← List.head?_filterMap, ← List.head?_filterMap, filterMap_eq hf hsteps]

/-- The last segments have the same steps of each kind other than projections. -/
def AlikeButSelect (p q : Query) : Prop :=
  ∀ kind ≠ .select, p.stepsOf kind = q.stepsOf kind

namespace AlikeButSelect

/-- Segments that differ in their projections alone group by the same columns. -/
theorem groupClause_eq (h : AlikeButSelect p q) : p.groupClause = q.groupClause :=
  congrArg (Option.getD · [])
    (findSome?_eq ⟨fun _ _ _ => rfl, by grind [Step.kind]⟩ (h .groupBy (by decide)))

/-- Segments that differ in their projections alone have the same aggregates. -/
theorem aggregations_eq (h : AlikeButSelect p q) : p.aggregations = q.aggregations :=
  findSome?_eq ⟨fun _ _ _ => rfl, by grind [Step.kind]⟩ (h .agg (by decide))

/-- Segments that differ in their projections alone overwrite the same columns. -/
theorem overwrites_eq (h : AlikeButSelect p q) : p.overwrites = q.overwrites :=
  findSome?_eq ⟨fun _ _ _ => rfl, by grind [Step.kind]⟩ (h .withColumns (by decide))

/-- Segments that differ in their projections alone project the same columns if the same ones are
in effect. -/
theorem projectionClause_eq (h : AlikeButSelect p q)
    (hcolumns : p.projectedColumns = q.projectedColumns) :
    p.projectionClause = q.projectionClause := by
  unfold projectionClause
  rw [h.groupClause_eq, h.aggregations_eq, h.overwrites_eq, hcolumns]

/-- Segments that differ in their projections alone make the same clauses, apart from what is
projected. -/
theorem clauses_eq (h : AlikeButSelect p q) (nested : Bool) :
    p.clauses nested = { q.clauses nested with projection := p.projectionClause } := by
  -- Each clause but the projection is taken from the steps of a single kind.
  have hdistinct : p.distinctClause = q.distinctClause :=
    findSome?_eq ⟨fun _ _ _ => rfl, by grind [Step.kind]⟩ (h .distinct (by decide))
  have hfilters : p.filterClauses = q.filterClauses :=
    filterMap_eq ⟨fun _ _ _ => rfl, by grind [Step.kind]⟩ (h .filter (by decide))
  have horder : p.orderClause = q.orderClause := by
    unfold orderClause
    rw [← List.getLast?_filterMap, ← List.getLast?_filterMap,
      filterMap_eq ⟨fun _ _ _ => rfl, by grind [Step.kind]⟩ (h .orderBy (by decide))]
  have hlimit : p.limitClause = q.limitClause :=
    findSome?_eq ⟨fun _ _ _ => rfl, by grind [Step.kind]⟩ (h .limit (by decide))
  have hoffset : p.offsetClause = q.offsetClause :=
    findSome?_eq ⟨fun _ _ _ => rfl, by grind [Step.kind]⟩ (h .offset (by decide))
  unfold clauses
  rw [hdistinct, hfilters, h.groupClause_eq, horder, hlimit, hoffset]

end AlikeButSelect

namespace Alike

/-- Alike queries make the same clauses. -/
theorem clauses_eq (h : Alike p q) (nested : Bool) : p.clauses nested = q.clauses nested := by
  have hbut : AlikeButSelect p q := fun kind _ => h.stepsOf kind
  have hselections : p.selections = q.selections :=
    Query.filterMap_eq takenFrom_columns? (h.stepsOf .select)
  have hcolumns : p.projectedColumns = q.projectedColumns := by
    rw [projectedColumns_eq, projectedColumns_eq, hselections]
  rw [hbut.clauses_eq, hbut.projectionClause_eq hcolumns]
  rfl

/-- Alike queries have the same statement. -/
theorem statement_eq (h : Alike p q) : p.statement = q.statement := by
  unfold statement toStatement
  rw [h.tables, h.clauses_eq]

/-- Alike queries are referred to in the same way. -/
theorem reference_eq (h : Alike p q) : p.reference p.tables = q.reference q.tables := by
  funext next
  unfold reference
  rw [h.tableName?, h.tables, h.clauses_eq]

/-- An operation conflicts with both of two alike queries or with neither. -/
theorem conflictsWith_eq (h : Alike p q) (kind : OperationKind) :
    p.conflictsWith kind = q.conflictsWith kind := by
  simp only [conflictsWith_eq_any, h.stepsOf]

/-! ### What keeps queries alike -/

/-- A query is like itself. -/
theorem refl (q : Query) : Alike q q :=
  ⟨rfl, rfl, fun _ => rfl⟩

/-- Queries that read from alike queries are alike. -/
theorem subquery (h : Alike p q) : Alike (.subquery p) (.subquery q) where
  tables := by
    funext next
    simp only [Query.tables, h.reference_eq]
  tableName? := rfl
  stepsOf _ := rfl

/-- The same step keeps queries alike. -/
theorem step (h : Alike p q) (next : Step) : Alike (.step p next) (.step q next) where
  tables := h.tables
  tableName? := rfl
  stepsOf kind := by
    have hp := stepsOf_append p (.step next) kind
    have hq := stepsOf_append q (.step next) kind
    rw [h.stepsOf kind] at hp
    exact hp.trans hq.symm

/-- Joins with alike queries keep queries alike. -/
theorem join {other partner : Query} (h : Alike p q) (hother : Alike other partner) (on : Expr)
    (kind : JoinKind) : Alike (.join p other on kind) (.join q partner on kind) where
  tables := by
    funext next
    simp only [Query.tables, h.tables, hother.reference_eq]
  tableName? := rfl
  stepsOf kind' := by
    have hp := stepsOf_append p (.join other on kind) kind'
    have hq := stepsOf_append q (.join partner on kind) kind'
    rw [h.stepsOf kind'] at hp
    exact hp.trans hq.symm

/-- Applying the same step keeps queries alike: it opens a segment for both or for neither. -/
theorem apply_step (h : Alike p q) (next : Step) :
    Alike (p.apply (.step next)) (q.apply (.step next)) := by
  unfold Query.apply
  rw [h.conflictsWith_eq]
  split
  · exact h.subquery.step next
  · exact h.step next

/-- Joining alike queries keeps queries alike. -/
theorem joinWith {other partner : Query} (h : Alike p q) (hother : Alike other partner) (on : Expr)
    (kind : JoinKind) : Alike (p.joinWith other on kind) (q.joinWith partner on kind) := by
  rw [joinWith_eq, joinWith_eq]
  exact h.join hother on kind

/-- Counting the same values keeps queries alike. -/
theorem valueCounts (h : Alike p q) (columns : List Expr) :
    Alike (p.valueCounts columns) (q.valueCounts columns) := by
  unfold Query.valueCounts
  split
  · exact h
  · exact ((h.apply_step _).apply_step _).apply_step _

end Alike

/-! ### Operations in either order -/

/-- Operations of different kinds in the same segment may be exchanged. -/
theorem alike_append (q : Query) {a b : Operation} (hkind : a.kind ≠ b.kind) :
    Alike ((q.append a).append b) ((q.append b).append a) where
  tables := by
    cases a with
    | step a => cases b <;> rfl
    | join =>
      cases b with
      | step b => rfl
      | join => exact absurd rfl hkind
  tableName? := by
    cases a <;> cases b <;> rfl
  stepsOf kind := by
    simp only [stepsOf_append, List.append_assoc]
    congr 1
    -- At most one of the two operations is of the kind, so one of the two lists is empty.
    cases a with
    | join => simp [Operation.step?]
    | step a =>
      cases b with
      | join => simp [Operation.step?]
      | step b =>
        have hne : a.kind ≠ b.kind := hkind
        by_cases ha : a.kind = kind
        · have hb : b.kind ≠ kind := fun hb => hne (ha.trans hb.symm)
          simp [Operation.step?, hb]
        · simp [Operation.step?, ha]

/-- Calls that go on from one query. Each of the ten methods that apply an operation is a `step` or
a `join`, where the query may be on either side of the join, or on both. -/
inductive Continuation
  /-- The query as it stands. -/
  | start
  /-- A query in which it does not occur. -/
  | constant (q : Query)
  /-- A query that reads from what is built. -/
  | source (inner : Continuation)
  /-- One more step applied to what is built. -/
  | step (prior : Continuation) (next : Step)
  /-- A join of two queries that are built. -/
  | join (prior other : Continuation) (on : Expr) (kind : JoinKind)
  /-- A count of values of what is built. -/
  | valueCounts (prior : Continuation) (columns : List Expr)

/-- The query that calls build from one that they go on from. -/
def Continuation.build (q : Query) : Continuation → Query
  | start => q
  | constant other => other
  | source inner => .subquery (inner.build q)
  | step prior next => (prior.build q).apply (.step next)
  | join prior other on kind => (prior.build q).joinWith (other.build q) on kind
  | valueCounts prior columns => (prior.build q).valueCounts columns

/-- The same calls build alike queries from alike ones. -/
theorem Alike.build {p q : Query} (h : Alike p q) (calls : Continuation) :
    Alike (calls.build p) (calls.build q) := by
  induction calls with
  | start => exact h
  | constant other => exact .refl other
  | source _ ih => exact ih.subquery
  | step _ next ih => exact ih.apply_step next
  | join _ _ on kind ih ihother => exact ih.joinWith ihother on kind
  | valueCounts _ columns ih => exact ih.valueCounts columns

/-- Two operations of different kinds, none of which opens a segment in either order, can be applied
in either order: whatever calls go on from there, the SQL is the same. -/
theorem apply_comm (q : Query) {a b : Operation} (hkind : a.kind ≠ b.kind)
    (ha : q.conflictsWith a.kind = false) (hab : (q.apply a).conflictsWith b.kind = false)
    (hb : q.conflictsWith b.kind = false) (hba : (q.apply b).conflictsWith a.kind = false)
    (calls : Continuation) :
    (calls.build ((q.apply a).apply b)).toCompactSql =
        (calls.build ((q.apply b).apply a)).toCompactSql ∧
      ∀ indent, (calls.build ((q.apply a).apply b)).toSql indent =
        (calls.build ((q.apply b).apply a)).toSql indent := by
  have halike : Alike ((q.apply a).apply b) ((q.apply b).apply a) := by
    rw [apply_eq_append hab, apply_eq_append ha, apply_eq_append hba, apply_eq_append hb]
    exact q.alike_append hkind
  have hstatement := (halike.build calls).statement_eq
  constructor
  · exact congrArg Statement.compact hstatement
  · intro indent
    exact congrArg (Statement.pretty · indent) hstatement

/-- A filter and a grouping, in either order, below a count of values that is joined with what it
counts. -/
theorem apply_comm_filter_groupBy :
    let q := Query.table "t"
    let a := Operation.step (.filter (.column "x"))
    let b := Operation.step (.groupBy [.column "y"])
    let calls := Continuation.join (.valueCounts .start [.column "z"]) .start (.column "k") .left
    a.kind ≠ b.kind ∧ q.conflictsWith a.kind = false ∧ (q.apply a).conflictsWith b.kind = false ∧
      q.conflictsWith b.kind = false ∧ (q.apply b).conflictsWith a.kind = false ∧
      (calls.build ((q.apply a).apply b)).toCompactSql =
        (calls.build ((q.apply b).apply a)).toCompactSql ∧
      ∀ indent, (calls.build ((q.apply a).apply b)).toSql indent =
        (calls.build ((q.apply b).apply a)).toSql indent := by
  intro q a b calls
  have hkind : a.kind ≠ b.kind := by decide
  have ha : q.conflictsWith a.kind = false := rfl
  have hab : (q.apply a).conflictsWith b.kind = false := by decide
  have hb : q.conflictsWith b.kind = false := rfl
  have hba : (q.apply b).conflictsWith a.kind = false := by decide
  exact ⟨hkind, ha, hab, hb, hba, q.apply_comm hkind ha hab hb hba calls⟩

end Query

end FluentSql
