import Mathlib.Data.List.Forall2
import FluentSql.Proofs.Query.Pruned
import FluentSql.Proofs.Script.Completeness
import FluentSql.Proofs.Script.Tree

/-!
# Scripts of queries are layouts

The script of a query is a layout of its tree, so it is read back as the tree, as long as it does
not nest too deep.
-/

namespace FluentSql

open Script

/-- Expressions are written as their texts. -/
theorem Expr.isWritten_list (items : List Expr) :
    List.Forall₂ (fun node text => node.IsWritten text.toList)
      (items.map Expr.toNode) (items.map Expr.toScript) := by
  rw [List.forall₂_map_left_iff, List.forall₂_map_right_iff]
  exact List.forall₂_same.mpr fun e _ => e.isWritten

/-- A method that applies operations has a bare name. -/
theorem OperationKind.isBareName_method (kind : OperationKind) :
    Text.isBareName kind.method.toList = true := by
  cases kind <;> decide

/-- The arguments of a step are written behind its method. -/
theorem Step.exists_isWritten {next : Step} (h : ∀ count ∈ next.counts, IsScriptCount count) :
    ∃ texts, List.Forall₂ (fun node text => node.IsWritten text.toList) next.toNodes texts ∧
      next.toScript = next.kind.method ++ "(" ++ ", ".intercalate texts ++ ")" := by
  have hcount {count : UInt64} (hcount : IsScriptCount count) :
      (Node.integer (Int64.ofInt count.toNat)).IsWritten (toString count.toNat).toList := by
    have hlow : Int64.minValue.toInt ≤ (count.toNat : Int) :=
      Int.le_trans (by decide) (Int.natCast_nonneg _)
    exact .primary (.integer (Numeral.writes_toString count.toNat) rfl
      (Numeral.toInt64?_ofInt hlow hcount))
  cases next with
  | select items | groupBy items | agg items | orderBy items | withColumns items =>
    exact ⟨items.map Expr.toScript, Expr.isWritten_list items, rfl⟩
  | distinct subset =>
    cases subset with
    | none => exact ⟨[], .nil, rfl⟩
    | some items => exact ⟨items.map Expr.toScript, Expr.isWritten_list items, rfl⟩
  | filter predicate =>
    exact ⟨[predicate.toScript], .cons predicate.isWritten .nil, by simp [toScript]⟩
  | limit count | offset count =>
    exact ⟨[toString count.toNat], .cons (hcount (h count (List.mem_singleton_self _))) .nil,
      by simp [toScript]⟩

namespace Query

/-- The calls of a step come after those before it, unless it starts a query without a source. -/
theorem calls_step {prior : Query} {next : Step}
    (h : ¬ ∃ columns, prior = sourceless ∧ next = .select columns) (margin : String)
    (before : List String) :
    (step prior next).calls margin before =
      ((prior.calls margin before).1 ++ "\n" ++ margin ++ "." ++ next.toScript,
        (prior.calls margin before).2) := by
  rw [calls]
  exact fun columns hprior hnext => h ⟨columns, hprior, hnext⟩

/-- The tree of a step goes on with that of what is before it, unless it starts a query without a
source. -/
theorem callNodes_step {prior : Query} {next : Step}
    (h : ¬ ∃ columns, prior = sourceless ∧ next = .select columns) (before : List Binding) :
    (step prior next).callNodes before =
      (.method (prior.callNodes before).1 next.kind.method next.toNodes,
        (prior.callNodes before).2) := by
  rw [callNodes]
  exact fun columns hprior hnext => h ⟨columns, hprior, hnext⟩

/-- A query with a source is a method call for the source and one for each operation. -/
theorem chain_callNodes {q : Query} (hsource : q.source ≠ none) (before : List Binding) :
    (q.callNodes before).1.chain = q.operations.length + 1 := by
  induction q generalizing before with
  | sourceless => exact absurd rfl hsource
  | table | subquery => rfl
  | step prior next ih =>
    have hstart : ¬ ∃ columns, prior = sourceless ∧ next = .select columns := by
      rintro ⟨columns, rfl, -⟩
      exact hsource rfl
    simp [callNodes_step hstart, Node.chain, operations, ih hsource]
  | join prior other on kind ih => simp [callNodes, Node.chain, operations, ih hsource]

/-- The script of a query with a source nests deeper than the number of its operations other than
projections. -/
theorem countP_lt_depth_tree {q : Query} (hsource : q.source ≠ none) :
    q.operations.countP (fun next => next.columns?.isNone) < q.tree.depth := by
  let kept : Operation → Option Unit := fun next => if next.columns?.isNone then some () else none
  have hkept : (fun next => (kept next).isSome) = fun next => next.columns?.isNone := by
    funext next
    cases hcolumns : next.columns? <;> simp [kept, hcolumns]
  have hfilter := filterMap_prunedIn (fun _ => rfl) (fun _ _ _ => rfl : ∀ other on kind,
    kept (.join other.pruned on kind) = kept (.join other on kind)) q q
  have hlength := List.length_filterMap_le kept q.pruned.operations
  rw [pruned, hfilter, List.length_filterMap_eq_countP, hkept] at hlength
  have hpruned : q.pruned.source ≠ none := by
    rwa [ne_eq, pruned, source_prunedIn_eq_none]
  have hchain := chain_callNodes hpruned []
  have hbody := (q.pruned.callNodes []).1.chain_le_depth
  have hdepth : (q.pruned.callNodes []).1.depth ≤ q.tree.depth := Nat.le_max_right _ _
  rw [pruned] at hchain hbody hdepth
  omega

/-- The statement of a binding, with the end of its line. -/
def IsStatement (binding : Binding) (statement : String) : Prop :=
  WritesBinding binding binding.value.depth (statement.toList ++ ['\n'])

/-- A text and the statements before it are those of a tree and its bindings. -/
structure Spells (texts : String × List String) (nodes : Node × List Binding) : Prop where
  /-- The text is that of the tree. -/
  node : nodes.1.IsWritten texts.1.toList
  /-- The statements are those of the bindings. -/
  bindings : List.Forall₂ IsStatement nodes.2 texts.2

/-- The name of a nested query as characters. -/
theorem toList_bindingName (index : Nat) :
    (bindingName index).toList = 't' :: Nat.toDigits 10 index := by
  simp [bindingName, Nat.toString_eq_repr, Nat.toList_repr]

/-- The names of nested queries are apart. -/
theorem bindingName_inj {i j : Nat} (h : bindingName i = bindingName j) : i = j := by
  have hdigits := congrArg String.toList h
  rw [toList_bindingName, toList_bindingName] at hdigits
  have hvalue := congrArg (Nat.ofDigitChars 10 · 0) (List.tail_eq_of_cons_eq hdigits)
  simpa using hvalue

/-- The name of a nested query is no other name that a script has a meaning for. -/
theorem bindingName_ne {name : String} (h : name.toList.head? ≠ some 't') (index : Nat) :
    bindingName index ≠ name := by
  rintro rfl
  simp [toList_bindingName] at h

/-- The name of a nested query is a bare name. -/
theorem isFreeName_bindingName (index : Nat) : IsFreeName (bindingName index) := by
  refine ⟨?_, bindingName_ne (by decide) index, bindingName_ne (by decide) index⟩
  rw [toList_bindingName, Text.isBareName, Bool.and_eq_true, List.all_eq_true]
  exact ⟨by decide, fun c hc => Numeral.isNameChar_of_isDigit
    ((Numeral.isDigits_toDigits index).2 c hc)⟩

/-- The name of a nested query is no truth value. -/
theorem bindingName_ne_true (index : Nat) : bindingName index ≠ "true" := by
  intro htrue
  have hdigits := congrArg String.toList htrue
  have hdigit := (Numeral.isDigits_toDigits index).2 'r'
  rw [toList_bindingName] at hdigits
  rw [List.tail_eq_of_cons_eq hdigits] at hdigit
  exact absurd (hdigit (by decide)) (by decide)

/-- The name of a nested query is written as it is. -/
theorem isWritten_bindingName (index : Nat) :
    (Node.name (bindingName index)).IsWritten (bindingName index).toList :=
  Node.isWritten_name (isFreeName_bindingName index)
    ⟨bindingName_ne_true index, bindingName_ne (by decide) index⟩

/-- A call of the namespace of queries is written as its text. -/
theorem isWritten_queries {name : String} {nodes : List Node} {texts : List String}
    (hname : Text.isBareName name.toList = true)
    (h : List.Forall₂ (fun node text => node.IsWritten text.toList) nodes texts) :
    (Node.method (.name "XQL") name nodes).IsWritten
      ("XQL." ++ name ++ "(" ++ ", ".intercalate texts ++ ")").toList := by
  have hqueries : (Node.name "XQL").IsWritten "XQL".toList :=
    Node.isWritten_name (by decide) (by decide)
  simpa using hqueries.method .nil hname h

/-- The call that starts with a table is written as its text. -/
theorem isWritten_tableNode (name : String) :
    (tableNode name).IsWritten (tableScript name).toList := by
  have hname : Text.isBareName "from".toList = true := by decide
  have h := isWritten_queries hname (.cons (Node.isWritten_string name) .nil)
  rw [String.intercalate_singleton] at h
  exact h

/-- What stands for a nested query is written as its text. -/
theorem Spells.reference {q : Query} {calls : List String → String × List String}
    {nodes : List Binding → Node × List Binding} {before : List String} {bindings : List Binding}
    (hcalls : Spells (calls before) (nodes bindings))
    (h : List.Forall₂ IsStatement bindings before) :
    Spells (q.scriptReference calls before) (q.referenceNode nodes bindings) := by
  unfold scriptReference referenceNode
  cases q.tableName? with
  | some name => exact ⟨isWritten_tableNode name, h⟩
  | none =>
    have hlength := hcalls.bindings.length_eq
    have hspace : Blank [' '] := .space rfl .nil
    have hline : Blank ['\n'] := .space rfl .nil
    have hstatement := WritesBinding.mk (.inl rfl) hspace (List.cons_ne_nil _ _)
      (isFreeName_bindingName (nodes bindings).2.length).1 hspace hspace hcalls.node .nil hline
    refine ⟨?_, List.rel_append hcalls.bindings (.cons ?_ .nil)⟩
    · simpa [hlength] using isWritten_bindingName (nodes bindings).2.length
    · simpa [IsStatement, hlength] using hstatement

/-- A method call on a line of its own is written behind its target. -/
theorem isWritten_line {margin : String} (hmargin : Blank ('\n' :: margin.toList)) {target : Node}
    {text : String} (htarget : target.IsWritten text.toList) (kind : OperationKind)
    {nodes : List Node} {texts : List String}
    (h : List.Forall₂ (fun node text => node.IsWritten text.toList) nodes texts) :
    (Node.method target kind.method nodes).IsWritten
      (text ++ "\n" ++ margin ++ "." ++ kind.method ++ "(" ++ ", ".intercalate texts ++
        ")").toList := by
  simpa using htarget.method hmargin kind.isBareName_method h

/-- The calls that build a query are written as their text. -/
theorem spells_calls {margin : String} (hmargin : Blank ('\n' :: margin.toList)) {q : Query}
    (hcounts : ∀ count ∈ q.counts, IsScriptCount count) {before : List String}
    {bindings : List Binding} (h : List.Forall₂ IsStatement bindings before) :
    Spells (q.calls margin before) (q.callNodes bindings) := by
  -- The text and the tree number nested queries by the same count of those before them.
  induction q generalizing before bindings with
  | sourceless =>
    have hname : Text.isBareName "select".toList = true := by decide
    exact ⟨by simpa [calls, callNodes] using isWritten_queries hname .nil, h⟩
  | table name => exact ⟨isWritten_tableNode name, h⟩
  | subquery inner ih =>
    have hreference := (ih hcounts h).reference (q := inner) h
    have hname : Text.isBareName "from".toList = true := by decide
    have hfrom := isWritten_queries hname (.cons hreference.node .nil)
    exact ⟨by simpa [calls, callNodes] using hfrom, hreference.bindings⟩
  | step prior next ih =>
    obtain ⟨hleft, hright⟩ := List.forall_mem_append.mp hcounts
    have hprior := ih hleft h
    by_cases hstart : ∃ columns, prior = sourceless ∧ next = .select columns
    · obtain ⟨columns, rfl, rfl⟩ := hstart
      have hname : Text.isBareName "select".toList = true := by decide
      have hselect := isWritten_queries hname (Expr.isWritten_list columns)
      exact ⟨by simpa [calls, callNodes, Expr.listScript] using hselect, h⟩
    · obtain ⟨texts, htexts, hscript⟩ := Step.exists_isWritten hright
      have hline := isWritten_line hmargin hprior.node next.kind htexts
      rw [calls_step hstart, callNodes_step hstart, hscript]
      exact ⟨by simpa using hline, hprior.bindings⟩
  | join prior other on kind ih ihother =>
    obtain ⟨hleft, hright⟩ := List.forall_mem_append.mp hcounts
    have hprior := ih hleft h
    have hother := ihother hright hprior.bindings
    have hreference := hother.reference (q := other) hprior.bindings
    have hline := isWritten_line hmargin hprior.node .join
      (.cons hreference.node (.cons on.isWritten (.cons (Node.isWritten_string kind.name) .nil)))
    exact ⟨by simpa [calls, callNodes, OperationKind.method] using hline, hreference.bindings⟩

/-- The calls that build a query start in the namespace of queries. -/
theorem exists_calls_eq (margin : String) (q : Query) (before : List String) :
    ∃ rest, (q.calls margin before).1.toList = "XQL.".toList ++ rest := by
  induction q generalizing before with
  | sourceless => exact ⟨"select()".toList, by simp [calls]⟩
  | table name => exact ⟨_, by simp [calls, tableScript]; rfl⟩
  | subquery inner => exact ⟨_, by simp [calls]; rfl⟩
  | step prior next ih =>
    obtain ⟨rest, hrest⟩ := ih before
    by_cases hstart : ∃ columns, prior = sourceless ∧ next = .select columns
    · obtain ⟨columns, rfl, rfl⟩ := hstart
      exact ⟨_, by simp [calls]; rfl⟩
    · rw [calls_step hstart]
      simp only [String.toList_append, hrest, List.append_assoc]
      exact ⟨_, rfl⟩
  | join prior other on kind ih =>
    obtain ⟨rest, hrest⟩ := ih before
    simp only [calls, String.toList_append, hrest, List.append_assoc]
    exact ⟨_, rfl⟩

/-- Statements are written on lines of their own, and the text comes after them. -/
theorem toList_intercalate_statements (statements : List String) (text : String) :
    ("\n".intercalate (statements ++ [text])).toList =
      (statements.flatMap fun statement => statement.toList ++ ['\n']) ++ text.toList := by
  induction statements with
  | nil => simp
  | cons statement statements ih =>
    cases hrest : statements ++ [text] with
    | nil => simp at hrest
    | cons next rest =>
      rw [hrest] at ih
      rw [List.cons_append, hrest, String.intercalate_cons_cons, String.toList_append,
        String.toList_append, ih]
      simp

/-- Statements are written one after the other. -/
theorem writesBindings {bindings : List Binding} {statements : List String}
    (h : List.Forall₂ IsStatement bindings statements) :
    WritesBindings bindings (bindingsDepth bindings)
      (statements.flatMap fun statement => statement.toList ++ ['\n']) := by
  induction h with
  | nil => exact .nil
  | cons hbinding _ ih => exact .cons hbinding ih

/-- A line that starts with spaces is blank up to their end. -/
theorem blank_margin (indent : Nat) :
    Blank ('\n' :: (String.ofList (List.replicate indent ' ')).toList) := by
  rw [String.toList_ofList]
  refine .space rfl ?_
  induction indent with
  | zero => exact .nil
  | succ indent ih => exact .space rfl ih

/-- What starts in the namespace of queries begins with no keyword. -/
theorem leadingName_queries (rest : List Char) : leadingName ("XQL.".toList ++ rest) = "XQL" := by
  have hname : ∀ c ∈ "XQL".toList, Text.isNameChar c = true :=
    List.all_eq_true.mp (by decide)
  have hpoint : ¬ Text.isNameChar '.' = true := by decide
  have htake : ("XQL".toList ++ '.' :: rest).takeWhile Text.isNameChar = "XQL".toList := by
    rw [List.takeWhile_append_of_pos hname, List.takeWhile_cons_of_neg hpoint,
      List.append_nil]
  exact (congrArg String.ofList htake).trans (String.ofList_toList)

/-- The script of a query is a layout of its tree, when its numbers of rows are in range. -/
theorem writesScript_toScript {q : Query} (hcounts : ∀ count ∈ q.pruned.counts, IsScriptCount count)
    (indent : Nat) : WritesScript q.tree q.tree.depth (q.toScript indent).toList := by
  let margin := String.ofList (List.replicate indent ' ')
  have hspells := spells_calls (blank_margin indent) hcounts .nil
  have hreturn : WritesReturn [] (q.pruned.calls margin []).1.toList := by
    obtain ⟨rest, hrest⟩ := exists_calls_eq margin q.pruned []
    rw [hrest]
    exact .none (by rw [leadingName_queries]; decide)
  have h := WritesScript.mk .nil (writesBindings hspells.bindings) hreturn hspells.node
    (.bare (.closed .nil))
  rw [toScript, toList_intercalate_statements]
  simpa [tree, Script.depth] using h

/-- The script of a query is read back as its tree, unless that nests too deep. -/
theorem ofText_toScript {q : Query} (hcounts : ∀ count ∈ q.pruned.counts, IsScriptCount count)
    (indent : Nat) :
    (q.tree.depth ≤ maxDepth → Script.ofText (q.toScript indent) = .ok q.tree) ∧
      (maxDepth < q.tree.depth → ∃ position,
        Script.ofText (q.toScript indent) = .error (.parse position (.tooDeep maxDepth))) :=
  ofText_of_writesScript (writesScript_toScript hcounts indent)

end Query

end FluentSql
