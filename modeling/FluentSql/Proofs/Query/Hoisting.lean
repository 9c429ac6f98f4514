import FluentSql.Proofs.Query.Written
import FluentSql.Proofs.Script.Reference
import FluentSql.Proofs.Statement.Alias

/-!
# Nested queries in scripts

A script binds each nested query that is more than a table in a statement of its own. The statements
bind the names `t0`, `t1`, … in this order, as many as the statement of the query has aliases. Every
name is referred to once, in a later statement or in the calls that the script ends with.
-/

namespace FluentSql

open Script

/-! ### References by number -/

/-- Statements with the numbers from `first` on, given by the numbers that each refers to, and what
comes after them. Every number is referred to once, and only after its statement. -/
structure Linear (first : Nat) (statements : List (List Nat)) (main : List Nat) : Prop where
  /-- The references are to the statements, once to each. -/
  once : (statements.flatten ++ main).Perm (List.range' first statements.length)
  /-- A statement refers to earlier ones. -/
  earlier : ∀ p ∈ statements.zipIdx first, ∀ index ∈ p.1, index < p.2

namespace Linear

variable {first : Nat} {statements more : List (List Nat)} {main rest : List Nat}

/-- Nothing refers to nothing. -/
theorem nil (first : Nat) : Linear first [] [] where
  once := .nil
  earlier := by simp

/-- What comes after the statements may become one more statement, which is referred to instead. -/
theorem hoist (h : Linear first statements main) :
    Linear first (statements ++ [main]) [first + statements.length] where
  once := by
    rw [List.flatten_append, List.flatten_singleton, List.length_append, List.length_singleton,
      List.range'_1_concat]
    exact h.once.append_right _
  earlier := by
    rw [List.zipIdx_append, List.zipIdx_singleton, List.forall_mem_append,
      List.forall_mem_singleton]
    refine ⟨h.earlier, fun index hindex => ?_⟩
    have hmem := h.once.mem_iff.mp (List.mem_append_right _ hindex)
    exact (List.mem_range'_1.mp hmem).2

/-- Statements may come after others. -/
theorem append (h : Linear first statements main)
    (hmore : Linear (first + statements.length) more rest) :
    Linear first (statements ++ more) (main ++ rest) where
  once := by
    rw [List.flatten_append, List.length_append, ← List.range'_append_1]
    refine List.Perm.trans (List.perm_iff_count.mpr fun index => ?_) (h.once.append hmore.once)
    simp only [List.count_append]
    omega
  earlier := by
    rw [List.zipIdx_append, List.forall_mem_append]
    exact ⟨h.earlier, hmore.earlier⟩

end Linear

/-! ### References by name -/

namespace Query

/-- The statements that bind texts to the names with the numbers from `first` on. -/
def bindingLines (texts : List String) (first : Nat) : List String :=
  (texts.zipIdx first).map fun (text, index) =>
    "const " ++ bindingName index ++ " = " ++ text ++ ";"

/-- Each text has a statement. -/
theorem length_bindingLines (texts : List String) (first : Nat) :
    (bindingLines texts first).length = texts.length := by
  rw [bindingLines, List.length_map, List.length_zipIdx]

/-- Statements come one after the other. -/
theorem bindingLines_append (texts more : List String) (first : Nat) :
    bindingLines (texts ++ more) first =
      bindingLines texts first ++ bindingLines more (first + texts.length) := by
  rw [bindingLines, List.zipIdx_append, List.map_append]
  rfl

/-- A text refers to the names with the numbers. -/
def RefersTo (text : String) (indices : List Nat) : Prop :=
  Refers text (indices.map bindingName)

/-- The name of a nested query refers to it. -/
theorem refersTo_bindingName (index : Nat) : RefersTo (bindingName index) [index] := by
  have hname := refers_name (isFreeName_bindingName index).1
  have hfree : bindingName index ∉ reserved := by
    simp only [reserved, List.mem_cons, List.not_mem_nil, or_false, not_or]
    exact ⟨bindingName_ne (by decide) index, bindingName_ne (by decide) index,
      bindingName_ne_true index, bindingName_ne (by decide) index,
      bindingName_ne (by decide) index, bindingName_ne (by decide) index⟩
  rwa [if_neg hfree] at hname

/-- After some statements come so many others and a text. Each of the others is referred to once,
by a later one or by the text. -/
inductive Hoists (before : List String) : String × List String → Nat → Prop
  | mk {text : String} {main : List Nat} {texts : List String} {statements : List (List Nat)}
      (hmain : RefersTo text main) (htexts : List.Forall₂ RefersTo texts statements)
      (h : Linear before.length statements main) :
      Hoists before (text, before ++ bindingLines texts before.length) texts.length

namespace Hoists

variable {before : List String} {result more : String × List String} {count extra : Nat}
  {text : String}

/-- A text that refers to nothing needs no statement. -/
theorem plain (h : Refers text []) : Hoists before (text, before) 0 := by
  have hmain : RefersTo text [] := h
  simpa [bindingLines] using Hoists.mk hmain .nil (.nil before.length)

/-- A text that refers to what another one does may stand in its place. -/
theorem exchange (h : Hoists before result count)
    (htext : ∀ names, Refers result.1 names → Refers text names) :
    Hoists before (text, result.2) count := by
  obtain ⟨hmain, htexts, hlinear⟩ := h
  exact .mk (htext _ hmain) htexts hlinear

/-- A text that refers to what two texts do stands in the place of both. -/
theorem both (h : Hoists before result count) (hmore : Hoists result.2 more extra)
    (htext : ∀ names others, Refers result.1 names → Refers more.1 others →
      Refers text (names ++ others)) :
    Hoists before (text, more.2) (count + extra) := by
  obtain ⟨hmain, htexts, hlinear⟩ := h
  obtain ⟨hother, hothers, hrest⟩ := hmore
  rw [List.length_append, length_bindingLines] at hrest ⊢
  rw [htexts.length_eq] at hrest
  rw [List.append_assoc, ← bindingLines_append, ← List.length_append]
  refine .mk ?_ (List.rel_append htexts hothers) (hlinear.append hrest)
  rw [RefersTo, List.map_append]
  exact htext _ _ hmain hother

/-- A text may be bound in one more statement, and its name stand in its place. -/
theorem hoist (h : Hoists before result count) :
    Hoists before (bindingName result.2.length, result.2 ++
      ["const " ++ bindingName result.2.length ++ " = " ++ result.1 ++ ";"]) (count + 1) := by
  obtain ⟨hmain, htexts, hlinear⟩ := h
  have hall := Hoists.mk (refersTo_bindingName _) (List.rel_append htexts (.cons hmain .nil))
    hlinear.hoist
  rw [bindingLines_append, ← List.append_assoc, List.length_append, ← htexts.length_eq] at hall
  rw [List.length_append, length_bindingLines]
  exact hall

end Hoists

/-- The call that starts with a table refers to nothing. -/
theorem refers_tableScript (name : String) : Refers (tableScript name) [] := by
  have hqueries : Refers "XQL" [] := refers_name (by decide)
  have hname : Text.isBareName "from".toList = true := by decide
  simpa [tableScript] using hqueries.chained hname (refers_quoted name)

/-- What stands for a nested query refers to its statement, if it has one. -/
theorem Hoists.reference {q : Query} {calls : List String → String × List String}
    {before : List String} (h : Hoists before (calls before) q.aliasedQueries.length) :
    Hoists before (q.scriptReference calls before)
      ((q :: q.nestedQueries).filter (·.tableName?.isNone)).length := by
  unfold scriptReference
  cases hname : q.tableName? with
  | some name =>
    obtain rfl := eq_table_of_tableName? hname
    exact .plain (refers_tableScript name)
  | none =>
    rw [List.filter_cons_of_pos (by simp [hname])]
    exact h.hoist

/-- Every query that is nested in a query and is more than a table has a statement in the script of
the query. -/
theorem hoists_calls {margin : String} (hmargin : ∀ c ∈ margin.toList, Text.isSpace c = true)
    (q : Query) (before : List String) :
    Hoists before (q.calls margin before) q.aliasedQueries.length := by
  have hqueries : Refers "XQL" [] := refers_name (by decide)
  have hgap : ∀ c ∈ ("\n" ++ margin).toList, Text.isSpace c = true := by
    rw [String.toList_append, List.forall_mem_append]
    exact ⟨by simp [Text.isSpace], hmargin⟩
  induction q generalizing before with
  | sourceless =>
    have hname : Text.isBareName "select".toList = true := by decide
    exact .plain (by simpa using hqueries.chained_nil hname)
  | table name => exact .plain (refers_tableScript name)
  | subquery inner ih =>
    have hname : Text.isBareName "from".toList = true := by decide
    have hreference := (ih before).reference
    have hfrom := hreference.exchange fun names hnames => hqueries.chained hname hnames
    simpa [calls, aliasedQueries, nestedQueries] using hfrom
  | step prior next ih =>
    by_cases hstart : ∃ columns, prior = sourceless ∧ next = .select columns
    · obtain ⟨columns, rfl, rfl⟩ := hstart
      have hname : Text.isBareName "select".toList = true := by decide
      exact .plain (by simpa using hqueries.chained hname (Expr.refers_list columns))
    · rw [calls_step hstart]
      obtain ⟨text, heq, htext⟩ := next.refers
      have hname := next.kind.isBareName_method
      refine (ih before).exchange fun names hnames => ?_
      simpa [heq, String.append_assoc] using hnames.method _ hgap hname htext
  | join prior other on kind ih ihother =>
    have hname : Text.isBareName "join".toList = true := by decide
    rw [aliasedQueries, nestedQueries, List.filter_append, List.length_append]
    refine (ih before).both (ihother _).reference fun names others hnames hothers => ?_
    have harguments := hothers.comma (on.refers.comma (refers_quoted kind.name))
    simpa [String.append_assoc] using hnames.method _ hgap hname harguments

/-- Pruning keeps the number of nested queries that are more than a table. -/
theorem length_aliasedQueries_pruned (q : Query) :
    q.pruned.aliasedQueries.length = q.aliasedQueries.length := by
  have hpruned := (q.pruned.numbers_tables 0).2
  rw [pruned, tables_prunedIn, (q.numbers_tables 0).2] at hpruned
  exact (Nat.add_left_cancel hpruned).symm

/-- The names that texts refer to, one text after the other. -/
theorem flatMap_references {texts : List String} {parts : List (List Nat)}
    (h : List.Forall₂ RefersTo texts parts) :
    (texts.flatMap fun text => references text.toList) = parts.flatten.map bindingName := by
  induction h with
  | nil => rfl
  | cons hfirst _ ih =>
    rw [List.flatMap_cons, ih, hfirst.references_eq, List.flatten_cons, List.map_append]

/-- Texts refer to earlier names as their parts do to earlier numbers. -/
theorem references_earlier {texts : List String} {parts : List (List Nat)}
    (h : List.Forall₂ RefersTo texts parts) {first : Nat}
    (hearlier : ∀ p ∈ parts.zipIdx first, ∀ index ∈ p.1, index < p.2) :
    ∀ p ∈ texts.zipIdx first, ∀ index, bindingName index ∈ references p.1.toList →
      index < p.2 := by
  induction h generalizing first with
  | nil => simp
  | cons hfirst _ ih =>
    rw [List.zipIdx_cons, List.forall_mem_cons] at hearlier ⊢
    refine ⟨fun index hindex => ?_, ih hearlier.2⟩
    rw [hfirst.references_eq] at hindex
    obtain ⟨other, hother, heq⟩ := List.mem_map.mp hindex
    exact bindingName_inj heq ▸ hearlier.1 other hother

/-- A script binds texts in statements, and `main` comes after them. -/
structure HoistedInto (script : String) (texts : List String) (main : String) : Prop where
  /-- The statements bind the names `t0`, `t1`, … in this order. -/
  script_eq : script = "\n".intercalate (bindingLines texts 0 ++ [main])
  /-- The names are different from each other. -/
  nodup : ((List.range texts.length).map bindingName).Nodup
  /-- The texts and what comes after them refer to these names, once to each, and to no others. -/
  once : ((texts ++ [main]).flatMap fun text => references text.toList).Perm
    ((List.range texts.length).map bindingName)
  /-- No text refers to the name that it is bound to, or to a later one. -/
  earlier : ∀ p ∈ texts.zipIdx, ∀ index, bindingName index ∈ references p.1.toList → index < p.2

/-- The script of a query binds as many names as it nests queries that are more than a table, which
is as many as the statement of the query takes aliases. Each name is referred to once, in a later
statement or in the calls at the end. -/
theorem hoistedInto_toScript (q : Query) (indent : Nat) :
    ∃ texts main, HoistedInto (q.toScript indent) texts main ∧
      texts.length = q.aliasedQueries.length ∧
      ∀ nested next, (q.toStatement nested next).2 = next + texts.length := by
  have hmargin :
      ∀ c ∈ (String.ofList (List.replicate indent ' ')).toList, Text.isSpace c = true := by
    simp [Text.isSpace]
  have hhoists := q.pruned.hoists_calls hmargin []
  rw [length_aliasedQueries_pruned] at hhoists
  rw [toScript]
  generalize q.pruned.calls (String.ofList (List.replicate indent ' ')) [] = result at hhoists
  generalize hcount : q.aliasedQueries.length = count at hhoists
  obtain ⟨hmain, htexts, hlinear⟩ := hhoists
  next main indices texts statements =>
  refine ⟨texts, main, ⟨rfl, ?_, ?_, ?_⟩, rfl, fun nested next => ?_⟩
  · exact List.nodup_range.map fun _ _ => bindingName_inj
  · rw [flatMap_references (List.rel_append htexts (.cons hmain .nil)), List.flatten_append,
      List.flatten_singleton, List.range_eq_range', htexts.length_eq]
    exact hlinear.once.map bindingName
  · exact references_earlier htexts hlinear.earlier
  · rw [← hcount]
    exact (q.numbers_tables next).2

end Query

end FluentSql
