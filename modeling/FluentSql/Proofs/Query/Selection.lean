import FluentSql.Proofs.Query.Lowering
import FluentSql.Proofs.Query.Overwrites
import FluentSql.Proofs.Query.Pruned
import FluentSql.Proofs.Statement.Part
import FluentSql.Proofs.Statement.Spelling

/-!
# What a statement selects

A projection without columns stands for all columns, and so does an overwriting without entries. An
aggregation without items stands for nothing: where the rows are not grouped by a column either,
the word `SELECT` is followed by no item. Nothing else leads to such a statement.
-/

namespace FluentSql

namespace Token

/-! ### What follows the word `SELECT` -/

/-- The tokens after what is said of rows left out, if something is. -/
def afterDistinct (tokens : List Token) : List Token :=
  if tokens.head? = some (keyword "DISTINCT") then
    if tokens.tail.head? = some (keyword "ON") then (tokens.dropWhile (· != closing)).tail
    else tokens.tail
  else tokens

/-- The tokens begin with an item of a projection, which is the star or an expression. -/
def StartsItem (tokens : List Token) : Prop :=
  tokens.head? = some (keyword "*") ∨ ∃ e, tokens.head? = some (expr e)

/-- Every word `SELECT` is directly followed by an item, or by what is said of rows left out and
directly after that by an item. -/
def Selects (tokens : List Token) : Prop :=
  ∀ after, keyword "SELECT" :: after <:+ tokens → StartsItem (afterDistinct after)

/-- The token may follow a projection, and begins neither an item nor what stands before items. -/
def endsProjection : Token → Bool
  | keyword word => word != "*" && word != "DISTINCT" && word != "ON"
  | closing => true
  | _ => false

/-- The tokens do not go on with a projection. -/
def EndsProjection (tokens : List Token) : Prop :=
  ∀ t ∈ tokens.head?, t.endsProjection = true

variable {t : Token} {ts us : List Token}

/-- Where tokens end, the projection ends with those that follow. -/
theorem EndsProjection.append (h : EndsProjection ts) (h' : EndsProjection us) :
    EndsProjection (ts ++ us) := by
  cases ts with
  | nil => exact h'
  | cons => exact h

/-- No item begins where a projection ends. -/
theorem EndsProjection.not_startsItem (h : EndsProjection ts) : ¬ StartsItem ts := by
  rintro (hstar | ⟨e, he⟩)
  · exact absurd (h _ hstar) (by decide)
  · exact absurd (h _ he) Bool.false_ne_true

/-- One more token matters if it is the word `SELECT`. -/
theorem selects_cons :
    Selects (t :: ts) ↔ (t = keyword "SELECT" → StartsItem (afterDistinct ts)) ∧ Selects ts := by
  simp only [Selects, List.suffix_cons_iff, List.cons.injEq]
  constructor
  · intro h
    exact ⟨fun ht => h ts (.inl ⟨ht.symm, rfl⟩), fun after hafter => h after (.inr hafter)⟩
  · rintro ⟨hfirst, hrest⟩ after (⟨rfl, rfl⟩ | hafter)
    · exact hfirst rfl
    · exact hrest after hafter

/-- Another token than the word `SELECT` does not matter. -/
theorem selects_cons_of_ne (h : t ≠ keyword "SELECT") : Selects (t :: ts) ↔ Selects ts := by
  rw [selects_cons]
  exact and_iff_right fun ht => absurd ht h

/-- Parts of clauses do not matter. -/
theorem selects_append_of_isPart (h : ∀ t ∈ ts, t.isPart = true) :
    Selects (ts ++ us) ↔ Selects us := by
  induction ts with
  | nil => rfl
  | cons t ts ih =>
    obtain ⟨ht, hts⟩ := List.forall_mem_cons.mp h
    have hne : t ≠ keyword "SELECT" := by
      rintro rfl
      cases ht
    rw [List.cons_append, selects_cons_of_ne hne, ih hts]

/-- What is said of rows left out is skipped as a whole. -/
theorem afterDistinct_append (d : Option Distinct)
    (hdistinct : ts.head? ≠ some (keyword "DISTINCT")) (hon : ts.head? ≠ some (keyword "ON")) :
    afterDistinct (d.elim [] Distinct.tokens ++ ts) = ts := by
  cases d with
  | none => exact if_neg hdistinct
  | some d =>
    cases d with
    | all => exact if_neg hon
    | on subset =>
      have hlisted : ∀ t ∈ separated [comma] subset, (t != closing) = true :=
        forall_mem_separated (List.forall_mem_singleton.mpr rfl) fun _ _ => rfl
      have hopen : ∀ t ∈ keyword "DISTINCT" :: keyword "ON" :: opening :: separated [comma] subset,
          (t != closing) = true := by
        intro t ht
        simp only [List.mem_cons] at ht
        rcases ht with rfl | rfl | rfl | ht
        · rfl
        · rfl
        · rfl
        · exact hlisted t ht
      have hskip :
          ((Distinct.on subset).tokens ++ ts).dropWhile (· != closing) = closing :: ts := by
        rw [Distinct.tokens, List.append_assoc, List.dropWhile_append_of_pos hopen]
        rfl
      change afterDistinct ((Distinct.on subset).tokens ++ ts) = ts
      rw [afterDistinct, hskip]
      rfl

/-- The items of a projection begin with an item unless there are none. -/
theorem startsItem_append_iff (p : Projection) (h : EndsProjection ts) :
    StartsItem ([comma].intercalate p.itemTokens ++ ts) ↔ p.itemTokens ≠ [] := by
  cases p with
  | wildcard => exact iff_of_true (.inl rfl) (List.cons_ne_nil _ _)
  | items columns =>
    cases columns with
    | nil => exact iff_of_false h.not_startsItem (fun hne => hne rfl)
    | cons e es =>
      refine iff_of_true (.inr ⟨e, ?_⟩) (List.cons_ne_nil _ _)
      change (separated [comma] (e :: es) ++ ts).head? = some (expr e)
      rw [separated_cons]
      rfl
  | replace columns =>
    cases columns with
    | nil => exact iff_of_true (.inl rfl) (List.cons_ne_nil _ _)
    | cons e es => exact iff_of_true (.inl rfl) (List.cons_ne_nil _ _)

/-- Items begin with another word than those for rows left out. -/
theorem StartsItem.head?_ne {word : String} (h : StartsItem ts) (hword : word ≠ "*") :
    ts.head? ≠ some (keyword word) := by
  rcases h with hstar | ⟨e, he⟩
  · rw [hstar]
    exact fun heq => hword (keyword.inj (Option.some.inj heq)).symm
  · rw [he]
    exact fun heq => Token.noConfusion (Option.some.inj heq)

/-- What ends a projection is not one of the words that it may start with. -/
theorem EndsProjection.head?_ne (h : EndsProjection ts) (hfirst : t.endsProjection = false) :
    ts.head? ≠ some t := by
  intro heq
  rw [h t heq] at hfirst
  cases hfirst

end Token

open Token (StartsItem EndsProjection Selects afterDistinct)

/-! ### The projections of a statement -/

namespace Clauses

/-- After the word `SELECT` and what is said of rows left out an item begins, unless the projection
has none. -/
theorem startsItem_afterDistinct_iff (c : Clauses) {rest : List Token}
    (h : EndsProjection rest) :
    StartsItem (afterDistinct (c.projectionTokens ++ rest)) ↔ c.projection.itemTokens ≠ [] := by
  have hitems := Token.startsItem_append_iff c.projection h
  rw [projectionTokens, List.append_assoc]
  by_cases hnone : c.projection.itemTokens = []
  · rw [hnone, List.intercalate_nil, List.nil_append,
      Token.afterDistinct_append _ (h.head?_ne rfl) (h.head?_ne rfl)]
    exact iff_of_false h.not_startsItem (fun hne => hne rfl)
  · have hstarts := hitems.mpr hnone
    rw [Token.afterDistinct_append _ (hstarts.head?_ne (by decide)) (hstarts.head?_ne (by decide))]
    exact hitems

/-- A clause that lists expressions ends a projection, if its word does. -/
theorem endsProjection_listTokens {word : Token} (h : word.endsProjection = true)
    (words separator : List Token) (items : List Expr) :
    EndsProjection (listTokens (word :: words) separator items) := by
  unfold listTokens
  split
  · nofun
  · rintro _ ⟨⟩
    exact h

/-- A clause with a number ends a projection, if its word does. -/
theorem endsProjection_countTokens {word : String} (h : (Token.keyword word).endsProjection = true)
    (count : Option UInt64) : EndsProjection (countTokens word count) := by
  cases count with
  | none => nofun
  | some n =>
    rintro _ ⟨⟩
    exact h

/-- The clauses after the tables end a projection. -/
theorem endsProjection_tailTokens (c : Clauses) : EndsProjection c.tailTokens := by
  have hlist (word : String) (h : (Token.keyword word).endsProjection = true) :=
    endsProjection_listTokens h
  have hwhere := hlist "WHERE" rfl [] [.keyword "AND"] c.filters
  have hgroup := hlist "GROUP" rfl [.keyword "BY"] [.comma] c.groupBy
  have horder := hlist "ORDER" rfl [.keyword "BY"] [.comma] c.orderBy
  have hlimit := endsProjection_countTokens (rfl : (Token.keyword "LIMIT").endsProjection = true)
  have hoffset := endsProjection_countTokens (rfl : (Token.keyword "OFFSET").endsProjection = true)
  exact (((hwhere.append hgroup).append horder).append (hlimit c.limit)).append (hoffset c.offset)

/-- In the tokens of clauses every word `SELECT` is followed by an item exactly if the projection
has one, and the same holds of what comes after it. -/
theorem selects_tokens_append (c : Clauses) {tables rest : List Token}
    (h : EndsProjection (tables ++ (c.tailTokens ++ rest))) :
    Selects (c.tokens tables ++ rest) ↔
      c.projection.itemTokens ≠ [] ∧ Selects (tables ++ (c.tailTokens ++ rest)) := by
  rw [c.tokens_eq, List.cons_append, Token.selects_cons, List.append_assoc, List.append_assoc,
    Token.selects_append_of_isPart c.isPart_projectionTokens, c.startsItem_afterDistinct_iff h]
  exact and_congr_left fun _ => forall_prop_of_true rfl

end Clauses

/-- The clauses for the tables end a projection. -/
theorem Tables.endsProjection_tokens (t : Tables) : EndsProjection t.tokens := by
  match t with
  | .none => nofun
  | .source table =>
    rintro _ ⟨⟩
    rfl
  | .join left kind table on =>
    have hkind : (Token.keyword kind.sql).endsProjection = true := by cases kind <;> rfl
    rw [Tables.tokens, List.append_assoc]
    refine left.endsProjection_tokens.append ?_
    rintro _ ⟨⟩
    exact hkind

mutual

/-- In the tokens of a table every word `SELECT` is followed by an item exactly if each of its
statements has one. -/
theorem TableRef.selects_tokens_append (t : TableRef) (rest : List Token) :
    Selects (t.tokens ++ rest) ↔
      (∀ s ∈ t.statements, s.clauses.projection.itemTokens ≠ []) ∧ Selects rest := by
  cases t with
  | table name =>
    rw [TableRef.tokens, List.singleton_append, Token.selects_cons_of_ne (by simp)]
    simp [TableRef.statements]
  | subquery tables clauses name =>
    have htokens : (TableRef.subquery tables clauses name).tokens ++ rest =
        .opening :: (clauses.tokens tables.tokens ++
          .closing :: .keyword "AS" :: .label name :: rest) := by
      simp [TableRef.tokens]
    have hends : EndsProjection (tables.tokens ++ (clauses.tailTokens ++
        .closing :: .keyword "AS" :: .label name :: rest)) := by
      refine tables.endsProjection_tokens.append (clauses.endsProjection_tailTokens.append ?_)
      rintro _ ⟨⟩
      rfl
    rw [htokens, Token.selects_cons_of_ne (by simp), clauses.selects_tokens_append hends,
      tables.selects_tokens_append, Token.selects_append_of_isPart clauses.isPart_tailTokens,
      Token.selects_cons_of_ne (by simp), Token.selects_cons_of_ne (by simp),
      Token.selects_cons_of_ne (by simp), TableRef.statements, List.forall_mem_cons, and_assoc]

/-- In the tokens of the tables every word `SELECT` is followed by an item exactly if each of their
statements has one. -/
theorem Tables.selects_tokens_append (t : Tables) (rest : List Token) :
    Selects (t.tokens ++ rest) ↔
      (∀ s ∈ t.statements, s.clauses.projection.itemTokens ≠ []) ∧ Selects rest := by
  cases t with
  | none => simp [Tables.tokens, Tables.statements]
  | source table =>
    rw [Tables.tokens, List.cons_append, Token.selects_cons_of_ne (by simp),
      table.selects_tokens_append, Tables.statements]
  | join left kind table on =>
    have htokens : (Tables.join left kind table on).tokens ++ rest =
        left.tokens ++ .keyword kind.sql :: .keyword "JOIN" :: (table.tokens ++
          .keyword "ON" :: .expr on :: rest) := by
      simp [Tables.tokens]
    have hkind : Token.keyword kind.sql ≠ .keyword "SELECT" := by cases kind <;> decide
    rw [htokens, left.selects_tokens_append, Token.selects_cons_of_ne hkind,
      Token.selects_cons_of_ne (by simp), table.selects_tokens_append,
      Token.selects_cons_of_ne (by simp), Token.selects_cons_of_ne (by simp), Tables.statements,
      List.forall_mem_append, and_assoc]

end

/-- In the SQL of a statement every word `SELECT` is followed by an item exactly if the statement
and all those nested in it have one. -/
theorem Statement.selects_tokens_iff (s : Statement) :
    Selects s.tokens ↔ ∀ inner ∈ s.statements, inner.clauses.projection.itemTokens ≠ [] := by
  have hends : EndsProjection (s.tables.tokens ++ (s.clauses.tailTokens ++ [])) :=
    s.tables.endsProjection_tokens.append (s.clauses.endsProjection_tailTokens.append nofun)
  have hclauses := s.clauses.selects_tokens_append hends
  rw [s.tables.selects_tokens_append, Token.selects_append_of_isPart s.clauses.isPart_tailTokens,
    List.append_nil] at hclauses
  have hnil : Selects [] := fun after hafter => by simp at hafter
  rw [Statement.tokens, hclauses, Statement.statements, List.forall_mem_cons]
  exact and_congr_right fun _ => and_iff_left hnil

/-! ### The projections of a query -/

/-- Lists that are related one for one agree on what holds of all their entries. -/
theorem forall_mem_iff_of_forall₂ {α β : Type} {r : α → β → Prop} {p : α → Prop} {p' : β → Prop}
    {as : List α} {bs : List β} (h : List.Forall₂ r as bs)
    (hp : ∀ {a b}, r a b → (p a ↔ p' b)) : (∀ a ∈ as, p a) ↔ ∀ b ∈ bs, p' b := by
  induction h with
  | nil => simp
  | cons hab _ ih => rw [List.forall_mem_cons, List.forall_mem_cons, hp hab, ih]

namespace Projection

/-- Only a list of no expressions has no items, be they tokens or SQL. -/
theorem items_eq_nil_iff {p : Projection} :
    (p.itemTokens = [] ↔ p = .items []) ∧ (p.itemsSql = [] ↔ p = .items []) := by
  cases p with
  | wildcard => simp [itemTokens, itemsSql]
  | items columns => simp [itemTokens, itemsSql]
  | replace columns => cases columns <;> simp [itemTokens, itemsSql]

end Projection

namespace Query

/-- The last segment aggregates nothing, and groups by nothing if it groups rows. -/
structure ProjectsNothing (q : Query) : Prop where
  /-- There is an aggregation without items. -/
  agg : .step (.agg []) ∈ q.operations
  /-- No grouping has a column. -/
  groupBy : ∀ columns, .step (.groupBy columns) ∈ q.operations → columns = []

/-- The aggregates of a segment are those of an aggregation. -/
theorem mem_of_aggregations {q : Query} {items : List Expr} (h : q.aggregations = some items) :
    .step (.agg items) ∈ q.operations := by
  obtain ⟨op, hmem, hop⟩ := List.exists_of_findSome?_eq_some h
  split at hop
  · rwa [← Option.some.inj hop]
  · cases hop

/-- A segment groups by nothing if none of its groupings has a column. -/
theorem Coherent.groupClause_eq_nil_iff {q : Query} (h : q.Coherent) :
    q.groupClause = [] ↔ ∀ columns, .step (.groupBy columns) ∈ q.operations → columns = [] := by
  constructor
  · intro hnil columns hmem
    rw [← h.groupClause_eq columns hmem, hnil]
  · intro hall
    by_cases hmem : ∃ columns, .step (.groupBy columns) ∈ q.operations
    · obtain ⟨columns, hmem⟩ := hmem
      rw [h.groupClause_eq columns hmem, hall columns hmem]
    · exact groupClause_eq_nil fun columns hcolumns => hmem ⟨columns, hcolumns⟩

/-- The columns of the projection in effect are those of a projection, so there are some. -/
theorem Coherent.projectedColumns_ne_nil {q : Query} (h : q.Coherent) {columns : List Expr}
    (hcolumns : q.projectedColumns = some columns) : columns ≠ [] := by
  obtain ⟨⟨index, _⟩, hprojection, rfl⟩ := Option.map_eq_some_iff.mp hcolumns
  exact h.filled _ (List.mem_of_getElem? (getElem?_of_projection hprojection))

/-- A segment projects no item exactly if it aggregates nothing and groups by nothing. -/
theorem Coherent.projectionClause_eq_iff {q : Query} (h : q.Coherent) :
    q.projectionClause = .items [] ↔ q.ProjectsNothing := by
  constructor
  · intro hnothing
    unfold projectionClause at hnothing
    split at hnothing
    · next items _ _ hagg =>
      obtain ⟨hgroup, rfl⟩ := List.append_eq_nil_iff.mp (Projection.items.inj hnothing)
      exact ⟨mem_of_aggregations hagg, h.groupClause_eq_nil_iff.mp hgroup⟩
    · cases hnothing
    · next columns _ _ hprojected =>
      exact absurd (Projection.items.inj hnothing) (h.projectedColumns_ne_nil hprojected)
    · cases hnothing
  · rintro ⟨hagg, hgroup⟩
    rw [h.projectionClause_eq_items hagg, h.groupClause_eq_nil_iff.mpr hgroup, List.nil_append]

/-- The statements of a query that builder calls make or a script stands for are those of its
segments, one for one, and a statement has no item exactly if its segment aggregates nothing and
groups by nothing. In the SQL on one line, every word `SELECT` is directly followed by an item, with
or without `DISTINCT` in between, exactly if there is no such segment. -/
theorem selects_statement_iff {q : Query} (hq : q.Built ∨ ∃ text, ofScript text = .ok q) :
    List.Forall₂ (fun segment s => segment.LoweredTo s ∧
          (s.clauses.projection.itemsSql = [] ↔ segment.ProjectsNothing))
        q.segments q.statement.statements ∧
      Spells false q.statement.tokens true q.toCompactSql ∧
      (Selects q.statement.tokens ↔ ∀ segment ∈ q.segments, ¬ segment.ProjectsNothing) := by
  have hcoherent : ∀ segment ∈ q.segments, segment.Coherent := by
    have hbuilt : q.Built := by
      rcases hq with hbuilt | ⟨text, htext⟩
      · exact hbuilt
      · exact (expressible_of_ofScript htext).built
    exact fun segment hsegment => (hbuilt.wellFormed.of_mem_segments hsegment).coherent
  have hlowered : List.Forall₂ LoweredTo q.segments q.statement.statements :=
    loweredTo_toStatement q false 0
  have hclause {segment : Query} {s : Statement} (h : segment.Coherent) :
      segment.LoweredTo s → (s.clauses.projection = .items [] ↔ segment.ProjectsNothing) := by
    rintro ⟨nested, next, rfl⟩
    exact h.projectionClause_eq_iff
  have hpairs : List.Forall₂ (fun segment s => segment.LoweredTo s ∧
      (s.clauses.projection = .items [] ↔ segment.ProjectsNothing))
      q.segments q.statement.statements :=
    ((List.forall₂_and_left _ _).mpr ⟨hcoherent, hlowered⟩).imp
      fun _ _ ⟨hsegment, hs⟩ => ⟨hs, hclause hsegment hs⟩
  refine ⟨hpairs.imp fun _ _ ⟨hs, hnothing⟩ =>
      ⟨hs, Projection.items_eq_nil_iff.2.trans hnothing⟩,
    (q.statement.spells_tokens 0).1, ?_⟩
  rw [Statement.selects_tokens_iff]
  exact (forall_mem_iff_of_forall₂ hpairs fun ⟨_, hnothing⟩ =>
    not_congr (hnothing.symm.trans Projection.items_eq_nil_iff.1.symm)).symm

/-- The count of nothing over the rows of a table is nested in a query that selects a column. -/
theorem selects_statement_iff_agg :
    let inner := (table "t").agg []
    let q := inner.select [.column "a"]
    q.Built ∧ inner ∈ q.segments ∧ inner.ProjectsNothing ∧ ¬ Selects q.statement.tokens := by
  intro inner q
  have hq : q.Built := ((Built.table "t").agg []).select [.column "a"]
  have hinner : inner ∈ q.segments := .tail _ (.head _)
  have hnothing : inner.ProjectsNothing :=
    ⟨.head _, fun columns hcolumns => by cases hcolumns with | tail _ h => cases h⟩
  obtain ⟨-, -, hselects⟩ := selects_statement_iff (.inl hq)
  exact ⟨hq, hinner, hnothing, fun h => hselects.mp h inner hinner hnothing⟩

end Query

end FluentSql
