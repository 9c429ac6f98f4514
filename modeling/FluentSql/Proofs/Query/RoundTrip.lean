import FluentSql.Proofs.Query.Written
import FluentSql.Proofs.Script.Sound
import FluentSql.Query.Sql
import FluentSql.Script.Eval

/-!
# Queries come back from their scripts

The statements of a script bind one name after the other, so a name keeps its value in all that
comes after. The calls of a well-formed query then make the same segments again, as no operation of
it opens one.
-/

namespace FluentSql

open Script

namespace Script

/-! ### Values of names -/

/-- The later values of names are those of before, and perhaps those of more names. -/
def Extends (later earlier : Bindings) : Prop :=
  ∀ name v, earlier.lookup name = some v → later.lookup name = some v

/-- Values extend themselves. -/
theorem Extends.refl (values : Bindings) : Extends values values :=
  fun _ _ h => h

/-- What extends an extension extends what that extends. -/
theorem Extends.trans {last later earlier : Bindings} (h : Extends last later)
    (hearlier : Extends later earlier) : Extends last earlier :=
  fun name v hv => h name v (hearlier name v hv)

/-- The bindings have the values under the names of nested queries. -/
structure Evaluated (bindings : List Binding) (values : Bindings) : Prop where
  /-- The bindings are evaluated without an error. -/
  bindAll_eq : bindAll [] bindings = (values, .ok ())
  /-- The names are those with the numbers of the bindings. -/
  names : ∀ entry ∈ values, ∃ index < bindings.length, entry.1 = Query.bindingName index

/-- The expression has the value wherever the names have theirs. -/
def StandsFor (values : Bindings) (node : Node) (v : Value) : Prop :=
  ∀ bindings later, Evaluated bindings later → Extends later values → eval later node = .ok v

/-- A name that no nested query has is not bound. -/
theorem Evaluated.lookup_eq_none {bindings : List Binding} {values : Bindings}
    (h : Evaluated bindings values) {name : String}
    (hname : ∀ index < bindings.length, Query.bindingName index ≠ name) :
    values.lookup name = none := by
  rw [List.lookup_eq_none_iff]
  intro entry hentry
  obtain ⟨index, hindex, heq⟩ := h.names entry hentry
  simpa [heq] using (hname index hindex).symm

/-- The namespaces are not hidden. -/
theorem Evaluated.eval_namespace {bindings : List Binding} {values : Bindings}
    (h : Evaluated bindings values) (space : Namespace) :
    eval values (.name space.name) = .ok (.scope space) := by
  have hnone : values.lookup space.name = none := by
    refine h.lookup_eq_none fun index _ => Query.bindingName_ne ?_ index
    cases space <;> decide
  rw [eval, lookup, hnone]
  cases space <;> rfl

/-- One more binding gives the next name its value. -/
theorem Evaluated.snoc {bindings : List Binding} {values : Bindings} (h : Evaluated bindings values)
    {node : Node} {v : Value} (hnode : eval values node = .ok v) :
    Evaluated (bindings ++ [⟨Query.bindingName bindings.length, node⟩])
      ((Query.bindingName bindings.length, v) :: values) := by
  constructor
  · simp only [bindAll_append, h.bindAll_eq, bindAll, hnode]
  · intro entry hentry
    rw [List.length_append, List.length_singleton]
    rcases List.mem_cons.mp hentry with rfl | hentry
    · exact ⟨bindings.length, by omega, rfl⟩
    · obtain ⟨index, hindex, heq⟩ := h.names entry hentry
      exact ⟨index, by omega, heq⟩

/-- The next name has no value yet. -/
theorem Evaluated.extends_cons {bindings : List Binding} {values : Bindings}
    (h : Evaluated bindings values) (v : Value) :
    Extends ((Query.bindingName bindings.length, v) :: values) values := by
  intro name w hname
  rw [List.lookup_cons]
  split
  · next heq =>
    have hnone : values.lookup (Query.bindingName bindings.length) = none := by
      refine h.lookup_eq_none fun index hindex heq => ?_
      have := Query.bindingName_inj heq
      omega
    rw [eq_of_beq heq, hnone] at hname
    cases hname
  · exact hname

end Script

/-! ### Expressions and steps -/

namespace Script

/-- A method call has the value that the method makes of those of its parts. -/
theorem eval_method {values : Bindings} {target : Node} {nodes : List Node} {v : Value}
    {arguments : List Value} (htarget : eval values target = .ok v)
    (harguments : evalList values nodes = .ok arguments) (name : String) :
    eval values (.method target name nodes) = callMethod v name arguments := by
  rw [eval, harguments, htarget]
  rfl

/-- Expressions have their values one by one. -/
theorem evalList_cons {values : Bindings} {node : Node} {nodes : List Node} {v : Value}
    {arguments : List Value} (hnode : eval values node = .ok v)
    (hnodes : evalList values nodes = .ok arguments) :
    evalList values (node :: nodes) = .ok (v :: arguments) := by
  rw [evalList, hnode, hnodes]
  rfl

/-- An only expression has its value. -/
theorem evalList_singleton {values : Bindings} {node : Node} {v : Value}
    (hnode : eval values node = .ok v) : evalList values [node] = .ok [v] :=
  evalList_cons hnode rfl

/-- The namespace of queries has its methods. -/
theorem Evaluated.eval_queries {bindings : List Binding} {values : Bindings}
    (h : Evaluated bindings values) {nodes : List Node} {arguments : List Value}
    (harguments : evalList values nodes = .ok arguments) (name : String) :
    eval values (.method (.name "XQL") name nodes) = callQueries name arguments :=
  eval_method (h.eval_namespace .queries) harguments name

/-- The call that starts with a table stands for the table. -/
theorem Evaluated.eval_tableNode {bindings : List Binding} {values : Bindings}
    (h : Evaluated bindings values) (name : String) :
    eval values (Query.tableNode name) = .ok (.query (.table name)) :=
  have hname : eval values (.string name) = .ok (.string name) := rfl
  h.eval_queries (evalList_singleton hname) "from"

end Script

/-- A constant has its own value. -/
theorem Literal.exists_eval (value : Literal) (values : Bindings) : ∃ v,
    eval values value.toNode = .ok v ∧ v.toScalar "lit" = .ok (.literal value) := by
  cases value <;> exact ⟨_, rfl, rfl⟩

/-- An expression has itself as its value. -/
theorem Expr.eval_toNode (e : Expr) {bindings : List Binding} {values : Bindings}
    (h : Evaluated bindings values) : eval values e.toNode = .ok (.expr e) := by
  have hfunctions : eval values (.name "F") = .ok (.scope .functions) :=
    h.eval_namespace .functions
  induction e with
  | column name => rfl
  | literal value =>
    obtain ⟨v, hv, hscalar⟩ := value.exists_eval values
    rw [toNode, eval_method hfunctions (evalList_singleton hv)]
    exact Except.map_eq_ok.mpr ⟨_, hscalar, rfl⟩
  | binary left op right ihleft ihright =>
    rw [toNode, eval_method ihleft (evalList_singleton ihright)]
    cases op <;> rfl
  | nullTest operand test ih =>
    rw [toNode, eval_method ih rfl]
    cases test <;> rfl
  | range operand test lower upper ih ihlower ihupper =>
    rw [toNode, eval_method ih (evalList_cons ihlower (evalList_singleton ihupper))]
    cases test <;> rfl
  | cast operand dataType ih =>
    rw [toNode, eval_method ih (evalList_singleton rfl)]
    rfl
  | named operand name ih =>
    rw [toNode, eval_method ih (evalList_singleton rfl)]
    rfl
  | sort operand direction ih =>
    rw [toNode, eval_method ih rfl]
    cases direction <;> rfl
  | aggregate function operand ih =>
    rw [toNode, eval_method hfunctions (evalList_singleton ih)]
    cases function <;> rfl

/-- The values of the arguments of a step. -/
def Step.arguments : Step → List Value
  | select columns | groupBy columns | agg columns | orderBy columns | withColumns columns =>
    columns.map .expr
  | distinct none => []
  | distinct (some subset) => subset.map .expr
  | filter predicate => [.expr predicate]
  | limit count | offset count => [.integer (Int64.ofInt count.toNat)]

namespace Step

/-- Expressions have themselves as their values. -/
private theorem evalList_map {bindings : List Binding} {values : Bindings}
    (h : Evaluated bindings values) (items : List Expr) :
    evalList values (items.map Expr.toNode) = .ok (items.map .expr) := by
  induction items with
  | nil => rfl
  | cons e items ih => exact evalList_cons (e.eval_toNode h) ih

/-- The trees of the arguments of a step have their values. -/
theorem evalList_toNodes (next : Step) {bindings : List Binding} {values : Bindings}
    (h : Evaluated bindings values) : evalList values next.toNodes = .ok next.arguments := by
  cases next with
  | select items | groupBy items | agg items | orderBy items | withColumns items =>
    exact evalList_map h items
  | distinct subset =>
    cases subset with
    | none => rfl
    | some items => exact evalList_map h items
  | filter predicate => exact evalList_singleton (predicate.eval_toNode h)
  | limit | offset => rfl

end Step

namespace Script

/-- Expressions are columns as they are. -/
theorem columns_map (name : String) (items : List Expr) :
    columns name (items.map .expr) = .ok items := by
  induction items with
  | nil => rfl
  | cons e items ih =>
    unfold columns at ih ⊢
    rw [List.map_cons, List.mapM_cons, ih]
    rfl

/-- A number of rows in range is read back. -/
theorem toCount_ofInt (name : String) {count : UInt64} (h : IsScriptCount count) :
    (Value.integer (Int64.ofInt count.toNat)).toCount name = .ok count := by
  have hmax : Int64.maxValue.toInt = 2 ^ 63 - 1 := by decide
  rw [IsScriptCount, hmax] at h
  have hvalue : (Int64.ofInt count.toNat).toInt = count.toNat :=
    Int64.toInt_ofInt_of_le (by omega) (by omega)
  simp only [Value.toCount, hvalue, Int.natCast_nonneg, if_pos, Int.toNat_natCast,
    UInt64.ofNat_toNat]

/-- A method of columns is given the expressions. -/
private theorem bind_columns_map {α : Type} (name : String) (items : List Expr)
    (f : List Expr → α) :
    (do return f (← columns name (items.map .expr))) = (.ok (f items) : Except Error α) := by
  rw [columns_map]
  rfl

/-- A method of a number of rows is given the number. -/
private theorem bind_toCount_ofInt (name : String) {count : UInt64} (h : IsScriptCount count)
    (f : UInt64 → Query) :
    (do return f (← (Value.integer (Int64.ofInt count.toNat)).toCount name)) =
      (.ok (f count) : Except Error Query) := by
  rw [toCount_ofInt name h]
  rfl

/-- The method of a step applies the step. -/
theorem callQueryMethod_step (q : Query) {next : Step} (hfilled : next.Filled)
    (hcounts : ∀ count ∈ next.counts, IsScriptCount count) :
    callQueryMethod q next.kind.method next.arguments = .ok (q.apply (.step next)) := by
  cases next with
  | select items =>
    refine (bind_columns_map "select" items q.select).trans ?_
    rw [Query.select, if_neg (by simpa [Step.Filled] using hfilled)]
  | groupBy items => exact bind_columns_map "group_by" items q.groupBy
  | agg items => exact bind_columns_map "agg" items q.agg
  | orderBy items => exact bind_columns_map "order_by" items q.orderBy
  | withColumns items => exact bind_columns_map "with_columns" items q.withColumns
  | distinct subset =>
    cases subset with
    | none => rfl
    | some items =>
      refine (bind_columns_map "distinct" items q.distinctOn).trans ?_
      rw [Query.distinctOn, if_neg (by simpa [Step.Filled] using hfilled)]
  | filter predicate => rfl
  | limit count =>
    exact bind_toCount_ofInt "limit" (hcounts count (List.mem_singleton_self _)) q.limit
  | offset count =>
    exact bind_toCount_ofInt "offset" (hcounts count (List.mem_singleton_self _)) q.offset

/-- A query without a source starts with its projection. -/
theorem callQueries_select {items : List Expr} (hfilled : items ≠ []) :
    callQueries "select" (items.map .expr) =
      .ok (.query (.step .sourceless (.select items))) := by
  refine (bind_columns_map "select" items fun items => Value.query (.ofColumns items)).trans ?_
  rw [Query.ofColumns, Query.select, if_neg (by simpa using hfilled)]
  rfl

/-- The method of a join joins. -/
theorem callQueryMethod_join (q other : Query) (on : Expr) (kind : JoinKind) :
    callQueryMethod q "join" [.query other, .expr on, .string kind.name] =
      .ok (q.joinWith other on kind) := by
  cases kind <;> rfl

end Script

/-! ### Queries -/

namespace Query

/-- The bindings for nested queries have values after those before them, and the expression stands
for the query then. -/
def Evaluates (values : Bindings) (nodes : Node × List Binding) (q : Query) : Prop :=
  ∃ later, Evaluated nodes.2 later ∧ Extends later values ∧ StandsFor later nodes.1 (.query q)

/-- What stands for a nested query stands for it as its own calls do. -/
theorem Evaluates.reference {q : Query} {before : List Binding} {values : Bindings}
    (hcalls : Evaluates values (q.callNodes before) q) (hvalues : Evaluated before values) :
    Evaluates values (q.referenceNode q.callNodes before) q := by
  unfold referenceNode
  cases htable : q.tableName? with
  | some name =>
    obtain rfl := eq_table_of_tableName? htable
    exact ⟨values, hvalues, .refl values, fun _ _ h _ => h.eval_tableNode name⟩
  | none =>
    obtain ⟨later, hlater, hextends, hstands⟩ := hcalls
    have hnode := hstands _ later hlater (.refl later)
    refine ⟨_, hlater.snoc hnode, (hlater.extends_cons _).trans hextends, ?_⟩
    intro bindings last _ hlast
    have hlookup := hlast _ _ List.lookup_cons_self
    simp only [eval, Script.lookup, hlookup]

/-- An operation in the way of nothing goes into the last segment. -/
theorem apply_eq_append {q : Query} {next : Operation} (h : q.conflictsWith next.kind = false) :
    q.apply next = q.append next := by
  simp [apply, h]

/-- A join goes into the last segment. -/
theorem joinWith_eq (q other : Query) (on : Expr) (kind : JoinKind) :
    q.joinWith other on kind = .join q other on kind :=
  apply_eq_append (conflictsWith_eq_false.mpr fun _ _ => List.not_mem_nil)

/-- The calls that build a well-formed query stand for it, when its numbers of rows are in range. -/
theorem WellFormed.evaluates {q : Query} (h : q.WellFormed)
    (hcounts : ∀ count ∈ q.counts, IsScriptCount count) {before : List Binding}
    {values : Bindings} (hvalues : Evaluated before values) :
    Evaluates values (q.callNodes before) q := by
  -- Every part is evaluated after the bindings of those before it, which keep their values.
  induction h generalizing before values with
  | table name => exact ⟨values, hvalues, .refl values, fun _ _ h _ => h.eval_tableNode name⟩
  | @subquery inner _ ih =>
    obtain ⟨later, hlater, hextends, hstands⟩ := (ih hcounts hvalues).reference hvalues
    refine ⟨later, hlater, hextends, ?_⟩
    intro bindings last hlast hmore
    exact hlast.eval_queries (evalList_singleton (hstands bindings last hlast hmore)) "from"
  | @columns columns hfilled =>
    refine ⟨values, hvalues, .refl values, ?_⟩
    intro bindings last hlast _
    have harguments := (Step.select columns).evalList_toNodes hlast
    exact (hlast.eval_queries harguments "select").trans (callQueries_select hfilled)
  | @step prior next hprior hfree hfilled ih =>
    obtain ⟨hleft, hright⟩ := List.forall_mem_append.mp hcounts
    obtain ⟨later, hlater, hextends, hstands⟩ := ih hleft hvalues
    have hstart : ¬ ∃ columns, prior = sourceless ∧ next = .select columns := by
      rintro ⟨columns, rfl, -⟩
      cases hprior
    rw [callNodes_step hstart]
    refine ⟨later, hlater, hextends, ?_⟩
    intro bindings last hlast hmore
    have hmethod := callQueryMethod_step prior hfilled hright
    rw [apply_eq_append hfree] at hmethod
    rw [eval_method (hstands bindings last hlast hmore) (next.evalList_toNodes hlast)]
    exact Except.map_eq_ok.mpr ⟨_, hmethod, rfl⟩
  | @join prior other hprior hother on kind ih ihother =>
    obtain ⟨hleft, hright⟩ := List.forall_mem_append.mp hcounts
    obtain ⟨between, hbetween, hextends, hstands⟩ := ih hleft hvalues
    obtain ⟨later, hlater, hextends', hreference⟩ := (ihother hright hbetween).reference hbetween
    refine ⟨later, hlater, hextends'.trans hextends, ?_⟩
    intro bindings last hlast hmore
    have htarget := hstands bindings last hlast (hmore.trans hextends')
    have hkind : eval last (.string kind.name) = .ok (.string kind.name) := rfl
    have harguments := evalList_cons (hreference bindings last hlast hmore)
      (evalList_cons (on.eval_toNode hlast) (evalList_singleton hkind))
    have hmethod := callQueryMethod_join prior other on kind
    rw [joinWith_eq] at hmethod
    exact (eval_method htarget harguments "join").trans (Except.map_eq_ok.mpr ⟨_, hmethod, rfl⟩)

/-- The tree of a well-formed query stands for the query without superseded projections, when its
numbers of rows are in range. -/
theorem WellFormed.run_tree {q : Query} (h : q.WellFormed)
    (hcounts : ∀ count ∈ q.pruned.counts, IsScriptCount count) :
    (Script.run [] q.tree).2 = .ok q.pruned := by
  have hpruned : q.pruned.WellFormed := h.prunedIn h (.refl q)
  have hstart : Evaluated [] [] := ⟨rfl, by simp⟩
  obtain ⟨values, hvalues, -, hstands⟩ := hpruned.evaluates hcounts hstart
  have hbody := hstands _ values hvalues (.refl values)
  simp only [Script.run, tree, hvalues.bindAll_eq, evalQuery, hbody]
  rfl

/-- The script of a well-formed query stands for the query without superseded projections, unless it
nests too deep, when its numbers of rows are in range. -/
theorem WellFormed.ofScript_eq {q : Query} (h : q.WellFormed)
    (hcounts : ∀ count ∈ q.counts, IsScriptCount count) (indent : Nat) :
    (q.tree.depth ≤ maxDepth → ofScript (q.toScript indent) = .ok q.pruned) ∧
      (maxDepth < q.tree.depth → ∃ position,
        ofScript (q.toScript indent) = .error (.parse position (.tooDeep maxDepth))) := by
  rw [← counts_prunedIn q q] at hcounts
  obtain ⟨hshallow, hdeep⟩ := ofText_toScript hcounts indent
  refine ⟨fun hdepth => ?_, fun hdepth => ?_⟩
  · exact Except.bind_eq_ok.mpr ⟨q.tree, hshallow hdepth, h.run_tree hcounts⟩
  · obtain ⟨position, herror⟩ := hdeep hdepth
    refine ⟨position, ?_⟩
    unfold ofScript
    rw [herror]
    rfl

/-- The script of a query that builder calls make stands for the query without superseded
projections, which has the same SQL and the same script, unless a number of rows is out of range or
the script nests too deep to be read. -/
theorem ofScript_toScript {q : Query} (h : q.Built) (indent : Nat) :
    (∃ count ∈ q.counts, ¬ IsScriptCount count) ∨
      (maxDepth < q.tree.depth ∧ ∃ position,
        ofScript (q.toScript indent) = .error (.parse position (.tooDeep maxDepth))) ∨
      (ofScript (q.toScript indent) = .ok q.pruned ∧ q.IsPruned q.pruned ∧
        q.pruned.toCompactSql = q.toCompactSql ∧
        (∀ width, q.pruned.toSql width = q.toSql width) ∧
        ∀ width, q.pruned.toScript width = q.toScript width) := by
  by_cases hcounts : ∀ count ∈ q.counts, IsScriptCount count
  · obtain ⟨hshallow, hdeep⟩ := h.wellFormed.ofScript_eq hcounts indent
    by_cases hdepth : q.tree.depth ≤ maxDepth
    · refine .inr (.inr ⟨hshallow hdepth, h.wellFormed.isPruned, ?_, fun width => ?_,
        fun width => ?_⟩)
      · rw [toCompactSql, statement_pruned, toCompactSql]
      · rw [toSql, statement_pruned, toSql]
      · rw [toScript, pruned_pruned, toScript]
    · rw [Nat.not_le] at hdepth
      exact .inr (.inl ⟨hdepth, hdeep hdepth⟩)
  · exact .inl (by simpa using hcounts)

/-- A conversion after two projections reads from a nested query with one of them. -/
theorem ofScript_toScript_withCast :
    let inner := ((table "t").select [.column "a"]).select [.column "*"]
    let q := inner.withCast "a" "int"
    q.Built ∧ ofScript (q.toScript 2) = .ok q.pruned := by
  intro inner q
  have hbuilt : q.Built :=
    (((Built.table "t").select [.column "a"]).select [.column "*"]).withCast "a" "int"
  refine ⟨hbuilt, ?_⟩
  rcases ofScript_toScript hbuilt 2 with ⟨count, hcount, -⟩ | ⟨hdepth, -⟩ | ⟨hscript, -⟩
  · exact absurd hcount List.not_mem_nil
  · exact absurd hdepth (by decide)
  · exact hscript

end Query

end FluentSql
