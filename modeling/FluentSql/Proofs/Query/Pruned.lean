import FluentSql.Proofs.Query.Segment
import FluentSql.Query.Sql

/-!
# Queries without superseded projections

Each segment of a pruned query has at most the projection in effect. Pruning leaves a well-formed
query well-formed, keeps its SQL and its numbers of rows, and has nothing to do a second time.
-/

namespace FluentSql

/-- The columns of a projection. -/
def Operation.columns? : Operation → Option (List Expr)
  | .step (.select columns) => some columns
  | _ => none

/-- The source without superseded projections in what it reads from. -/
def Source.pruned : Source → Source
  | table name => .table name
  | query inner => .query inner.pruned

/-- The operation without superseded projections in what it joins. -/
def Operation.pruned : Operation → Operation
  | step next => .step next
  | join other on kind => .join other.pruned on kind

/-- An operation with columns to project is their projection. -/
theorem Operation.eq_of_columns? {next : Operation} {columns : List Expr}
    (h : next.columns? = some columns) : next = .step (.select columns) := by
  cases next with
  | join => cases h
  | step next =>
    cases next with
    | select => rw [Option.some.inj h]
    | _ => cases h

namespace Query

/-- The first query is the last segment of the second one up to some operation. -/
inductive Begins : Query → Query → Prop
  | refl (q : Query) : Begins q q
  | step {p q : Query} (h : Begins p q) (next : Step) : Begins p (.step q next)
  | join {p q : Query} (h : Begins p q) (other : Query) (on : Expr) (kind : JoinKind) :
      Begins p (.join q other on kind)

namespace Begins

/-- What begins with an operation begins with what is before the operation. -/
theorem of_append {p q : Query} {next : Operation} (h : Begins (p.append next) q) :
    Begins p q := by
  induction h with
  | refl =>
    cases next with
    | step next => exact .step (.refl p) next
    | join other on kind => exact .join (.refl p) other on kind
  | step _ next ih => exact .step ih next
  | join _ other on kind ih => exact .join ih other on kind

/-- What begins with a step begins with what is before the step. -/
theorem of_step {p q : Query} {next : Step} (h : Begins (.step p next) q) : Begins p q := by
  have happend : Begins (p.append (.step next)) q := h
  exact happend.of_append

/-- What begins with a join begins with what is before the join. -/
theorem of_join {p q other : Query} {on : Expr} {kind : JoinKind}
    (h : Begins (.join p other on kind) q) : Begins p q := by
  have happend : Begins (p.append (.join other on kind)) q := h
  exact happend.of_append

/-- A segment has the source that it begins with. -/
theorem source_eq {p q : Query} (h : Begins p q) : p.source = q.source := by
  induction h with
  | refl => rfl
  | step _ _ ih | join _ _ _ _ ih => exact ih

/-- A segment has the operations that it begins with before all others. -/
theorem operations_prefix {p q : Query} (h : Begins p q) : p.operations <+: q.operations := by
  induction h with
  | refl => exact List.prefix_rfl
  | step _ _ ih | join _ _ _ _ ih => exact ih.trans (List.prefix_append _ _)

/-- An operation of a segment stands where the operations before it end. -/
theorem getElem?_operations {p q : Query} {next : Operation} (h : Begins (p.append next) q) :
    q.operations[p.operations.length]? = some next := by
  obtain ⟨later, hlater⟩ := h.operations_prefix
  simp [← hlater]

end Begins

/-! ### Projections -/

/-- The columns of all projections of the last segment. -/
def selections (q : Query) : List (List Expr) :=
  q.operations.filterMap Operation.columns?

/-- One more operation adds its columns if it is a projection. -/
theorem selections_append (q : Query) (next : Operation) :
    (q.append next).selections = q.selections ++ next.columns?.toList := by
  unfold selections
  rw [operations_append, List.filterMap_append]
  cases hcolumns : next.columns? <;> simp [hcolumns]

/-- A projection is listed with its place among the operations. -/
theorem mem_projections {q : Query} {index : Nat} {columns : List Expr} :
    (index, columns) ∈ q.projections ↔
      q.operations[index]? = some (.step (.select columns)) := by
  simp only [projections, List.mem_filterMap, Prod.exists, List.mem_zipIdx_iff_getElem?]
  constructor
  · rintro ⟨operation, place, hplace, hmatch⟩
    cases operation with
    | join => cases hmatch
    | step next =>
      cases next with
      | select => cases hmatch; exact hplace
      | _ => cases hmatch
  · intro h
    exact ⟨_, index, h, rfl⟩

/-- The places of projections apart, the list is that of their columns. -/
theorem map_snd_projections (q : Query) : q.projections.map (·.2) = q.selections := by
  unfold projections selections
  have hfst := congrArg (List.filterMap Operation.columns?) (List.zipIdx_map_fst 0 q.operations)
  rw [List.map_filterMap, ← hfst, List.filterMap_map]
  congr 1
  funext ⟨operation, index⟩
  cases operation with
  | step next => cases next <;> rfl
  | join => rfl

/-- The projection in effect is one of the segment. -/
theorem getElem?_of_projection {q : Query} {index : Nat} {columns : List Expr}
    (h : q.projection = some (index, columns)) :
    q.operations[index]? = some (.step (.select columns)) := by
  rw [← mem_projections]
  unfold projection at h
  rcases Option.or_eq_some_iff.mp h with hfind | ⟨-, hhead⟩
  · exact List.mem_reverse.mp (List.mem_of_find?_eq_some hfind)
  · exact List.mem_of_head? hhead

/-- Where there is a projection, one is in effect. -/
theorem projection_eq_none_iff {q : Query} : q.projection = none ↔ q.selections = [] := by
  rw [← map_snd_projections, List.map_eq_nil_iff]
  constructor
  · intro h
    exact List.head?_eq_none_iff.mp (Option.or_eq_none_iff.mp h).2
  · intro h
    simp [projection, h]

/-- An only projection is in effect. -/
theorem projection_of_selections_singleton {q : Query} {columns : List Expr}
    (h : q.selections = [columns]) : ∃ index, q.projection = some (index, columns) := by
  rw [← map_snd_projections, List.map_eq_singleton_iff] at h
  obtain ⟨⟨index, _⟩, hprojections, rfl⟩ := h
  refine ⟨index, ?_⟩
  unfold projection
  rw [hprojections]
  by_cases hall : isAllColumns ‹List Expr› <;> simp [hall]

/-- A step of a segment is left out when it is a projection that is not in effect, or when the
segment starts with its projection. -/
theorem isSuperseded_iff {segment prior : Query} {next : Step} :
    segment.isSuperseded prior next = true ↔ ∃ columns, next = .select columns ∧
      (segment.projectionIndex ≠ some prior.operations.length ∨ segment.source = none) := by
  cases next <;> simp [isSuperseded]

/-- A projection stays when it is the one in effect in a segment with a source. -/
theorem not_isSuperseded_select {segment prior : Query} {columns : List Expr} :
    ¬ segment.isSuperseded prior (.select columns) = true ↔
      segment.projectionIndex = some prior.operations.length ∧ segment.source ≠ none := by
  simp [isSuperseded_iff]

/-- The columns that the pruned form of a segment projects in the first `count` operations. -/
def effective (segment : Query) (count : Nat) : List (List Expr) :=
  match segment.projection with
  | some (index, columns) => if segment.source = none ∨ index < count then [columns] else []
  | none => []

/-- A place without the projection in effect adds nothing, and so does any place of a segment that
starts with it. -/
theorem effective_succ_eq {segment : Query} {count : Nat}
    (h : segment.projectionIndex ≠ some count ∨ segment.source = none) :
    segment.effective (count + 1) = segment.effective count := by
  unfold effective
  unfold projectionIndex at h
  cases hproj : segment.projection with
  | none => rfl
  | some found =>
    obtain ⟨index, columns⟩ := found
    by_cases hsource : segment.source = none
    · simp [hsource]
    · have hne : index ≠ count := by simpa [hproj, hsource] using h
      have hlt : index < count + 1 ↔ index < count := by omega
      simp only [hsource, false_or, hlt]

/-- The place of the projection in effect adds its columns. -/
theorem effective_succ_eq_append {segment : Query} {count : Nat} {columns : List Expr}
    (hplace : segment.operations[count]? = some (.step (.select columns)))
    (hindex : segment.projectionIndex = some count) (hsource : segment.source ≠ none) :
    segment.effective (count + 1) = segment.effective count ++ [columns] := by
  unfold projectionIndex at hindex
  obtain ⟨⟨index, found⟩, hproj, rfl⟩ := Option.map_eq_some_iff.mp hindex
  have hfound := getElem?_of_projection hproj
  rw [hplace] at hfound
  cases hfound
  simp [effective, hproj, hsource]

/-- No projection is in effect at the place of another operation. -/
theorem projectionIndex_ne {segment : Query} {count : Nat} {operation : Operation}
    (hplace : segment.operations[count]? = some operation) (hcolumns : operation.columns? = none) :
    segment.projectionIndex ≠ some count := by
  intro hindex
  unfold projectionIndex at hindex
  obtain ⟨⟨index, found⟩, hproj, rfl⟩ := Option.map_eq_some_iff.mp hindex
  have hfound := getElem?_of_projection hproj
  rw [hplace] at hfound
  cases hfound
  cases hcolumns

/-- A pruned segment has no projection but the one in effect, at its place or at the start. -/
theorem selections_prunedIn {segment p : Query} (h : p.Begins segment) :
    (prunedIn segment p).selections = segment.effective p.operations.length := by
  induction p with
  | sourceless =>
    have hsource : segment.source = none := h.source_eq.symm
    unfold prunedIn effective projectedColumns
    cases segment.projection with
    | none => rfl
    | some found => simp [hsource, selections, operations, Operation.columns?]
  | table name =>
    have hsource : segment.source = some (.table name) := h.source_eq.symm
    unfold effective
    split <;> simp [hsource, prunedIn, selections, operations]
  | subquery inner =>
    have hsource : segment.source = some (.query inner) := h.source_eq.symm
    unfold effective
    split <;> simp [hsource, prunedIn, selections, operations]
  | join prior other on kind ih =>
    have hbegins : (prior.append (.join other on kind)).Begins segment := h
    have hindex := projectionIndex_ne hbegins.getElem?_operations rfl
    rw [prunedIn]
    refine (selections_append (prunedIn segment prior) (.join other.pruned on kind)).trans ?_
    simp [ih hbegins.of_append, operations, effective_succ_eq (.inl hindex), Operation.columns?]
  | step prior next ih =>
    have hbegins : (prior.append (.step next)).Begins segment := h
    have hplace := hbegins.getElem?_operations
    have happend := selections_append (prunedIn segment prior) (.step next)
    rw [ih hbegins.of_append] at happend
    unfold prunedIn
    by_cases hsuper : segment.isSuperseded prior next = true
    · obtain ⟨columns, rfl, hor⟩ := isSuperseded_iff.mp hsuper
      rw [if_pos hsuper, ih hbegins.of_append]
      simp [operations, effective_succ_eq hor]
    · rw [if_neg hsuper, operations, List.length_append, List.length_singleton]
      refine happend.trans ?_
      cases hcolumns : (Operation.step next).columns? with
      | none =>
        have hindex := projectionIndex_ne hplace hcolumns
        simp [effective_succ_eq (.inl hindex)]
      | some columns =>
        obtain rfl : next = .select columns :=
          Operation.step.inj (Operation.eq_of_columns? hcolumns)
        obtain ⟨hindex, hsource⟩ := not_isSuperseded_select.mp hsuper
        simp [effective_succ_eq_append hplace hindex hsource]

/-- A pruned query has the projection in effect and no other. -/
theorem selections_pruned {q : Query} {index : Nat} {columns : List Expr}
    (hproj : q.projection = some (index, columns)) : q.pruned.selections = [columns] := by
  have hlt : index < q.operations.length :=
    (List.getElem?_eq_some_iff.mp (getElem?_of_projection hproj)).1
  simpa [pruned, effective, hproj, hlt] using selections_prunedIn (.refl q)

/-- Pruning keeps the columns of the projection in effect. -/
theorem projectedColumns_pruned (q : Query) : q.pruned.projectedColumns = q.projectedColumns := by
  unfold projectedColumns
  cases hproj : q.projection with
  | none =>
    have hnone : q.pruned.selections = [] := by
      simpa [pruned, effective, hproj] using selections_prunedIn (.refl q)
    rw [projection_eq_none_iff.mpr hnone]
  | some found =>
    obtain ⟨index, columns⟩ := found
    obtain ⟨place, hplace⟩ := projection_of_selections_singleton (selections_pruned hproj)
    rw [hplace]
    rfl

/-! ### What is kept -/

/-- Pruning keeps the operations, apart from projections and from what joins read. -/
theorem filterMap_prunedIn {α : Type} {f : Operation → Option α}
    (hselect : ∀ columns, f (.step (.select columns)) = none)
    (hjoin : ∀ other on kind, f (.join other.pruned on kind) = f (.join other on kind))
    (segment p : Query) :
    (prunedIn segment p).operations.filterMap f = p.operations.filterMap f := by
  induction p with
  | sourceless =>
    unfold prunedIn
    split <;> simp [operations, hselect]
  | table | subquery => rfl
  | step prior next ih =>
    unfold prunedIn
    split
    · next hsuper =>
      obtain ⟨columns, rfl, -⟩ := isSuperseded_iff.mp hsuper
      simp [operations, ih, hselect]
    · simp [operations, ih]
  | join prior other on kind ih =>
    have hother := hjoin other on kind
    unfold pruned at hother
    simp only [prunedIn, operations, List.filterMap_append, List.filterMap_cons, ih, hother]

/-- Pruning keeps the first result of a search that ignores projections and joins. -/
theorem findSome?_pruned {α : Type} {f : Operation → Option α}
    (hselect : ∀ columns, f (.step (.select columns)) = none)
    (hjoin : ∀ other on kind, f (.join other on kind) = none) (q : Query) :
    q.pruned.operations.findSome? f = q.operations.findSome? f := by
  have hfilter := filterMap_prunedIn hselect (by simp [hjoin]) q q
  rw [← List.head?_filterMap, ← List.head?_filterMap, pruned, hfilter]

/-- Pruning keeps all clauses of the statement of a segment. -/
theorem clauses_pruned (q : Query) (nested : Bool) :
    q.pruned.clauses nested = q.clauses nested := by
  have hdistinct : q.pruned.distinctClause = q.distinctClause :=
    findSome?_pruned (fun _ => rfl) (fun _ _ _ => rfl) q
  have hfilter : q.pruned.filterClauses = q.filterClauses :=
    filterMap_prunedIn (fun _ => rfl) (fun _ _ _ => rfl) q q
  have hgroup : q.pruned.groupClause = q.groupClause := by
    unfold groupClause
    rw [findSome?_pruned] <;> intros <;> rfl
  have hagg : q.pruned.aggregations = q.aggregations :=
    findSome?_pruned (fun _ => rfl) (fun _ _ _ => rfl) q
  have hover : q.pruned.overwrites = q.overwrites :=
    findSome?_pruned (fun _ => rfl) (fun _ _ _ => rfl) q
  have horder : q.pruned.orderClause = q.orderClause := by
    unfold orderClause
    rw [← List.getLast?_filterMap, ← List.getLast?_filterMap, pruned, filterMap_prunedIn] <;>
      intros <;> rfl
  have hlimit : q.pruned.limitClause = q.limitClause :=
    findSome?_pruned (fun _ => rfl) (fun _ _ _ => rfl) q
  have hoffset : q.pruned.offsetClause = q.offsetClause :=
    findSome?_pruned (fun _ => rfl) (fun _ _ _ => rfl) q
  unfold clauses projectionClause
  rw [hdistinct, hfilter, hgroup, hagg, hover, horder, hlimit, hoffset, projectedColumns_pruned]

/-- A query with an operation is no bare table. -/
theorem tableName?_of_operations {q : Query} (h : q.operations ≠ []) : q.tableName? = none := by
  cases q with
  | table => exact absurd rfl h
  | _ => rfl

/-- Pruning leaves an operation where there is one. -/
theorem operations_pruned_ne_nil {q : Query} (h : q.operations ≠ []) :
    q.pruned.operations ≠ [] := by
  intro hnil
  -- Nothing but projections can have been left out, and of those one is in effect.
  let rest : Operation → Option Unit := fun o => if o.columns? = none then some () else none
  have hrest : q.operations.filterMap rest = [] := by
    rw [← filterMap_prunedIn (fun _ => rfl) (fun _ _ _ => rfl) q q]
    exact congrArg (·.filterMap rest) hnil
  have hpruned : q.pruned.projectedColumns = none := by
    rw [projectedColumns, projection_eq_none_iff.mpr (by simp [selections, hnil])]
    rfl
  rw [projectedColumns_pruned, projectedColumns, Option.map_eq_none_iff, projection_eq_none_iff]
    at hpruned
  obtain ⟨first, hfirst⟩ := List.exists_mem_of_ne_nil _ h
  have hcolumns := List.filterMap_eq_nil_iff.mp hpruned first hfirst
  have hkept := List.filterMap_eq_nil_iff.mp hrest first hfirst
  simp [rest, hcolumns] at hkept

/-- Pruning keeps a bare table, and makes no other query one. -/
theorem tableName?_pruned (q : Query) : q.pruned.tableName? = q.tableName? := by
  cases hoperations : q.operations with
  | nil =>
    cases q with
    | sourceless => rfl
    | table | subquery => rfl
    | step | join => simp [operations] at hoperations
  | cons first rest =>
    have hne : q.operations ≠ [] := by simp [hoperations]
    rw [tableName?_of_operations hne, tableName?_of_operations (operations_pruned_ne_nil hne)]

/-- Pruning keeps the tables of the statement of a segment. -/
theorem tables_prunedIn (segment p : Query) (next : Nat) :
    (prunedIn segment p).tables next = p.tables next := by
  induction p generalizing segment next with
  | sourceless =>
    unfold prunedIn
    split <;> rfl
  | table => rfl
  | subquery inner ih =>
    have hname := tableName?_pruned inner
    have hclauses := clauses_pruned inner true
    unfold pruned at hname hclauses
    simp only [prunedIn, tables, reference, ih, hname, hclauses]
  | step prior next ih =>
    unfold prunedIn
    split <;> simp only [tables, ih]
  | join prior other on kind ih ihother =>
    have hname := tableName?_pruned other
    have hclauses := clauses_pruned other true
    unfold pruned at hname hclauses
    simp only [prunedIn, tables, reference, ih, ihother, hname, hclauses]

/-- A query without superseded projections stands for the same statement. -/
theorem statement_pruned (q : Query) : q.pruned.statement = q.statement := by
  have htables : q.pruned.tables 0 = q.tables 0 := tables_prunedIn q q 0
  simp only [statement, toStatement, clauses_pruned, htables]

/-- Pruning keeps the numbers of rows. -/
theorem counts_prunedIn (segment p : Query) : (prunedIn segment p).counts = p.counts := by
  induction p generalizing segment with
  | sourceless =>
    unfold prunedIn
    split <;> simp [counts, Step.counts]
  | table => rfl
  | subquery inner ih => exact ih inner
  | step prior next ih =>
    unfold prunedIn
    split
    · next hsuper =>
      obtain ⟨columns, rfl, -⟩ := isSuperseded_iff.mp hsuper
      simp [counts, Step.counts, ih]
    · simp [counts, ih]
  | join prior other on kind ih ihother => simp [prunedIn, counts, ih, ihother]

/-- A pruned query reads from what the query reads from, pruned. -/
theorem source_prunedIn (segment p : Query) :
    (prunedIn segment p).source = p.source.map Source.pruned := by
  induction p generalizing segment with
  | sourceless =>
    unfold prunedIn
    split <;> rfl
  | table | subquery => rfl
  | step prior next ih =>
    unfold prunedIn
    split <;> exact ih segment
  | join prior other on kind ih => exact ih segment

/-- A pruned query has a source where the query has one. -/
theorem source_prunedIn_eq_none (segment p : Query) :
    (prunedIn segment p).source = none ↔ p.source = none := by
  simp [source_prunedIn]

/-! ### Well-formedness -/

/-- A well-formed segment without a source has a projection in effect, which names a column. -/
theorem WellFormed.projectedColumns_of_source {q : Query} (h : q.WellFormed)
    (hsource : q.source = none) : ∃ columns, q.projectedColumns = some columns ∧ columns ≠ [] := by
  obtain ⟨first, rest, hfirst⟩ := h.select_first hsource
  have hne : q.projection ≠ none := by
    rw [ne_eq, projection_eq_none_iff, selections, hfirst]
    simp [Operation.columns?]
  obtain ⟨⟨index, columns⟩, hproj⟩ := Option.ne_none_iff_exists'.mp hne
  refine ⟨columns, by simp [projectedColumns, hproj], ?_⟩
  exact h.filled (List.mem_of_getElem? (getElem?_of_projection hproj))

/-- The pruned start of a well-formed segment without a source is its projection. -/
theorem WellFormed.prunedIn_columns {segment : Query} {columns : List Expr}
    (hsegment : segment.WellFormed)
    (hbegins : (Query.step .sourceless (.select columns)).Begins segment) :
    ∃ effective, effective ≠ [] ∧ prunedIn segment (.step .sourceless (.select columns)) =
      .step .sourceless (.select effective) := by
  have hsource : segment.source = none := hbegins.source_eq.symm
  obtain ⟨effective, heffective, hne⟩ := hsegment.projectedColumns_of_source hsource
  exact ⟨effective, hne, by simp [prunedIn, isSuperseded, hsource, heffective]⟩

/-- A pruned segment has no kinds of operations but those that it had. -/
theorem WellFormed.kinds_prunedIn_subset {segment p : Query} (hsegment : segment.WellFormed)
    (h : p.WellFormed) (hbegins : p.Begins segment) : (prunedIn segment p).kinds ⊆ p.kinds := by
  induction h with
  | table | subquery => simp [prunedIn, kinds, operations]
  | columns =>
    obtain ⟨effective, -, heq⟩ := hsegment.prunedIn_columns hbegins
    simp [heq, kinds, operations, Operation.kind, Step.kind]
  | @step prior next _ _ _ ih =>
    have hprior := hbegins.of_step
    unfold prunedIn
    split
    · exact List.Subset.trans (ih hprior) (by simp)
    · simp only [kinds_step, List.append_subset]
      exact ⟨List.Subset.trans (ih hprior) (List.subset_append_left _ _),
        List.subset_append_right _ _⟩
  | @join prior other _ _ on kind ih =>
    have hprior := hbegins.of_join
    simp only [prunedIn, kinds_join, List.append_subset]
    exact ⟨List.Subset.trans (ih hprior) (List.subset_append_left _ _),
      List.subset_append_right _ _⟩

/-- Pruning leaves a well-formed query well-formed: what is left conflicts with nothing. -/
theorem WellFormed.prunedIn {segment p : Query} (hsegment : segment.WellFormed)
    (h : p.WellFormed) (hbegins : p.Begins segment) : (prunedIn segment p).WellFormed := by
  induction h generalizing segment with
  | table name => exact .table name
  | subquery h ih => exact .subquery (ih h (.refl _))
  | columns =>
    obtain ⟨effective, hne, heq⟩ := hsegment.prunedIn_columns hbegins
    rw [heq]
    exact .columns hne
  | @step prior next h hfree hfilled ih =>
    have hprior := hbegins.of_step
    unfold Query.prunedIn
    split
    · exact ih hsegment hprior
    · refine .step (ih hsegment hprior) ?_ hfilled
      rw [conflictsWith_eq_false] at hfree ⊢
      exact fun kind hkind => hfree kind (hsegment.kinds_prunedIn_subset h hprior hkind)
  | join h hother on kind ih ihother =>
    exact .join (ih hsegment hbegins.of_join) (ihother hother (.refl _)) on kind

/-! ### Pruning once -/

/-- A pruned segment begins with the pruned form of what it began with. -/
theorem Begins.prunedIn {p q : Query} (h : p.Begins q) (segment : Query) :
    (prunedIn segment p).Begins (prunedIn segment q) := by
  induction h with
  | refl => exact .refl _
  | step _ next ih =>
    rw [Query.prunedIn]
    split
    · exact ih
    · exact .step ih next
  | join _ other on kind ih => exact .join ih _ on kind

/-- The only projection of a segment with a source is in effect. -/
theorem projectionIndex_of_only {segment prior : Query} {columns only : List Expr}
    (hbegins : (Query.step prior (.select columns)).Begins segment)
    (honly : segment.selections = [only]) :
    segment.projectionIndex = some prior.operations.length := by
  have happend : (prior.append (.step (.select columns))).Begins segment := hbegins
  have hmem := mem_projections.mpr happend.getElem?_operations
  obtain ⟨index, hproj⟩ := projection_of_selections_singleton honly
  rw [← map_snd_projections, List.map_eq_singleton_iff] at honly
  obtain ⟨found, hfound, -⟩ := honly
  have hin := mem_projections.mpr (getElem?_of_projection hproj)
  rw [hfound, List.mem_singleton] at hmem hin
  rw [projectionIndex, hproj, hin, ← hmem]
  rfl

/-- There is nothing to prune in a pruned segment. -/
theorem prunedIn_prunedIn {segment p : Query} (h : p.Begins segment) :
    prunedIn segment.pruned (prunedIn segment p) = prunedIn segment p := by
  induction p generalizing segment with
  | sourceless =>
    have hsource : segment.pruned.source = none :=
      (source_prunedIn_eq_none segment segment).mpr h.source_eq.symm
    have hcolumns := projectedColumns_pruned segment
    rw [prunedIn]
    cases hproj : segment.projectedColumns with
    | none => simp [prunedIn, hcolumns, hproj]
    | some columns => simp [prunedIn, isSuperseded, hsource, hcolumns, hproj]
  | table => rfl
  | subquery inner ih => exact congrArg subquery (ih (.refl inner))
  | join prior other on kind ih ihother =>
    have hprior := ih h.of_join
    have hother := ihother (.refl other)
    unfold pruned at hprior hother ⊢
    rw [prunedIn, prunedIn, hprior, hother]
  | step prior next ih =>
    have hprior := ih h.of_step
    by_cases hsuper : segment.isSuperseded prior next = true
    · rw [prunedIn, if_pos hsuper]
      exact hprior
    · have hkept : prunedIn segment (step prior next) = step (prunedIn segment prior) next := by
        rw [prunedIn, if_neg hsuper]
      have hnext : segment.pruned.isSuperseded (prunedIn segment prior) next = false := by
        rw [Bool.eq_false_iff]
        intro hnext
        obtain ⟨columns, rfl, hor⟩ := isSuperseded_iff.mp hnext
        obtain ⟨hindex, hsource⟩ := not_isSuperseded_select.mp hsuper
        obtain ⟨found, hproj, -⟩ := Option.map_eq_some_iff.mp hindex
        have hbegins := h.prunedIn segment
        rw [hkept] at hbegins
        rcases hor with hne | hnone
        · exact hne (projectionIndex_of_only hbegins (selections_pruned hproj))
        · exact hsource ((source_prunedIn_eq_none segment segment).mp hnone)
      rw [hkept, prunedIn, hnext, hprior]
      rfl

/-- There is nothing to prune in a pruned query. -/
theorem pruned_pruned (q : Query) : q.pruned.pruned = q.pruned :=
  prunedIn_prunedIn (.refl q)

/-! ### Segments of pruned queries -/

/-- The operation with its place among those of a segment is no projection, or the one in effect. -/
def keeps (segment : Query) : Operation × Nat → Bool
  | (next, index) => next.columns?.isNone || segment.projectionIndex == some index

/-- A pruned segment with a source has its operations, pruned, but of the projections only the one
in effect. -/
theorem operations_prunedIn {segment p : Query} (h : p.Begins segment)
    (hsource : segment.source ≠ none) :
    (prunedIn segment p).operations =
      (p.operations.zipIdx.filter segment.keeps).map fun (next, _) => next.pruned := by
  induction p with
  | sourceless => exact absurd h.source_eq.symm hsource
  | table | subquery => rfl
  | join prior other on kind ih =>
    simp only [prunedIn, operations, List.zipIdx_append, List.filter_append, List.map_append,
      ih h.of_join]
    rfl
  | step prior next ih =>
    have hkeeps : segment.keeps (.step next, prior.operations.length) =
        !segment.isSuperseded prior next := by
      have hsome : segment.source.isNone = false := by
        rwa [Bool.eq_false_iff, ne_eq, Option.isNone_iff_eq_none]
      cases next <;> simp [keeps, isSuperseded, Operation.columns?, hsome, bne]
    simp only [prunedIn, operations, List.zipIdx_append, List.filter_append, List.map_append,
      ← ih h.of_step]
    cases hsuper : segment.isSuperseded prior next <;>
      simp [hkeeps, hsuper, operations, Operation.pruned]

/-- A pruned segment without a source starts with the projection in effect, and has the operations
other than projections after it, pruned. -/
theorem operations_prunedIn_sourceless {segment p : Query} {columns : List Expr}
    (h : p.Begins segment) (hsource : segment.source = none)
    (hcolumns : segment.projectedColumns = some columns) :
    (prunedIn segment p).operations = .step (.select columns) ::
      (p.operations.filter fun next => next.columns?.isNone).map Operation.pruned := by
  induction p with
  | sourceless => simp [prunedIn, hcolumns, operations]
  | table | subquery => rw [← h.source_eq] at hsource; cases hsource
  | join prior other on kind ih =>
    simp only [prunedIn, operations, List.filter_append, List.map_append, ih h.of_join]
    rfl
  | step prior next ih =>
    have hnone : (Operation.step next).columns?.isNone = !segment.isSuperseded prior next := by
      cases next <;> simp [isSuperseded, Operation.columns?, hsource]
    simp only [prunedIn, operations, List.filter_append, List.map_append]
    cases hsuper : segment.isSuperseded prior next <;>
      simp [hnone, hsuper, operations, ih h.of_step, Operation.pruned]

/-- The second query is the first one with only the projection in effect in every segment, which a
segment without a source starts with. -/
structure IsPruned (q r : Query) : Prop where
  /-- What the query reads from is pruned. -/
  source : r.source = q.source.map Source.pruned
  /-- Of a segment with a source the projections that are not in effect are missing. -/
  operations : q.source ≠ none →
    r.operations = (q.operations.zipIdx.filter q.keeps).map fun (next, _) => next.pruned
  /-- The projection in effect comes first in a segment without a source. -/
  sourceless : q.source = none → ∃ columns, q.projectedColumns = some columns ∧
    r.operations = .step (.select columns) ::
      (q.operations.filter fun next => next.columns?.isNone).map Operation.pruned

/-- Pruning a well-formed query leaves the projections in effect. -/
theorem WellFormed.isPruned {q : Query} (h : q.WellFormed) : q.IsPruned q.pruned where
  source := source_prunedIn q q
  operations := operations_prunedIn (.refl q)
  sourceless hsource := by
    obtain ⟨columns, hcolumns, -⟩ := h.projectedColumns_of_source hsource
    exact ⟨columns, hcolumns, operations_prunedIn_sourceless (.refl q) hsource hcolumns⟩

end Query

end FluentSql
