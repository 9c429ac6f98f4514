import FluentSql.Proofs.Script.Layout
import FluentSql.Query.Script

/-!
# Trees of queries

The tree of the script that a query is written as, and how deep it nests. A script is written
without parentheses around expressions, so the tree alone says how deep the text nests.
-/

namespace FluentSql

/-! ### Depth -/

namespace Node

/-- The number of method calls that the expression ends with. -/
def chain : Node → Nat
  | method target _ _ => target.chain + 1
  | _ => 0

mutual

/-- How many levels deep the expression nests: a call is one level around its arguments, and every
method call of a chain is one level around those after it. -/
def depth : Node → Nat
  | call _ arguments => listDepth arguments + 1
  | method target _ arguments => max target.depth (target.chain + listDepth arguments + 1)
  | _ => 0

/-- How many levels deep the deepest of the expressions nests. -/
def listDepth : List Node → Nat
  | [] => 0
  | node :: nodes => max node.depth (listDepth nodes)

end

/-- Every method call that an expression ends with is a level. -/
theorem chain_le_depth (node : Node) : node.chain ≤ node.depth := by
  cases node with
  | method target name arguments =>
    rw [chain, depth]
    omega
  | _ => exact Nat.zero_le _

end Node

namespace Script

/-- How many levels deep the deepest of the bindings nests. -/
def bindingsDepth : List Binding → Nat
  | [] => 0
  | binding :: bindings => max binding.value.depth (bindingsDepth bindings)

/-- How many levels deep the script nests. -/
def depth (s : Script) : Nat :=
  max (bindingsDepth s.bindings) s.body.depth

end Script

/-! ### Trees -/

/-- The tree of a constant. -/
def Literal.toNode : Literal → Node
  | text s => .string s
  | integer i => .integer i
  | float x => .float x
  | boolean b => .boolean b

/-- The tree of an expression. -/
def Expr.toNode : Expr → Node
  | column name => .call "c" [.string name]
  | literal value => .method (.name "F") "lit" [value.toNode]
  | binary left op right => .method left.toNode op.method [right.toNode]
  | nullTest operand test => .method operand.toNode test.method []
  | range operand test lower upper =>
    .method operand.toNode test.method [lower.toNode, upper.toNode]
  | cast operand dataType => .method operand.toNode "cast" [.string dataType]
  | named operand name => .method operand.toNode "alias" [.string name]
  | sort operand direction => .method operand.toNode direction.method []
  | aggregate function operand => .method (.name "F") function.function [operand.toNode]

/-- The trees of the arguments of a step. -/
def Step.toNodes : Step → List Node
  | select columns | groupBy columns | agg columns | orderBy columns | withColumns columns =>
    columns.map Expr.toNode
  | distinct none => []
  | distinct (some subset) => subset.map Expr.toNode
  | filter predicate => [predicate.toNode]
  | limit count | offset count => [.integer (Int64.ofInt count.toNat)]

namespace Query

/-- The tree of the call that starts with a table. -/
def tableNode (name : String) : Node :=
  .method (.name "XQL") "from" [.string name]

/-- The tree that stands for a nested query, given the trees of its own calls after some bindings,
and the bindings after it. -/
def referenceNode (q : Query) (calls : List Binding → Node × List Binding)
    (before : List Binding) : Node × List Binding :=
  match q.tableName? with
  | some name => (tableNode name, before)
  | none =>
    let (node, bindings) := calls before
    let name := bindingName bindings.length
    (.name name, bindings ++ [⟨name, node⟩])

/-- The tree of the calls that build a query, and the bindings for nested queries, which follow
those in `before`. -/
def callNodes : Query → List Binding → Node × List Binding
  | sourceless, before => (.method (.name "XQL") "select" [], before)
  | table name, before => (tableNode name, before)
  | subquery inner, before =>
    let (reference, bindings) := referenceNode inner (callNodes inner) before
    (.method (.name "XQL") "from" [reference], bindings)
  | step sourceless (.select columns), before =>
    (.method (.name "XQL") "select" (columns.map Expr.toNode), before)
  | step prior next, before =>
    let (target, bindings) := callNodes prior before
    (.method target next.kind.method next.toNodes, bindings)
  | join prior other on kind, before =>
    let (target, between) := callNodes prior before
    let (reference, bindings) := referenceNode other (callNodes other) between
    (.method target "join" [reference, on.toNode, .string kind.name], bindings)

/-- The tree of the script that a query is written as. -/
def tree (q : Query) : Script :=
  let (body, bindings) := q.pruned.callNodes []
  ⟨bindings, body⟩

end Query

/-! ### The tree is what is written -/

/-- The characters are those of the expression, without parentheses around any part. -/
def Node.IsWritten (node : Node) (cs : List Char) : Prop :=
  Script.Writes (.chain node.chain node) node.depth cs

namespace Script

/-- Expressions behind commas. -/
theorem writes_more {nodes : List Node} {texts : List String}
    (h : List.Forall₂ (fun node text => node.IsWritten text.toList) nodes texts) :
    Writes (.more nodes) (Node.listDepth nodes)
      (texts.flatMap fun text => ',' :: ' ' :: text.toList) := by
  induction h with
  | nil => exact .done
  | @cons node text nodes texts hnode _ ih =>
    have hgap : Blank [' '] := .space rfl .nil
    have h := Writes.next .nil hgap hnode ih
    simpa [Node.listDepth] using h

/-- The text of a list behind its first item. -/
theorem toList_intercalate_cons (text : String) (texts : List String) :
    (", ".intercalate (text :: texts)).toList =
      text.toList ++ texts.flatMap fun text => ',' :: ' ' :: text.toList := by
  induction texts generalizing text with
  | nil => simp
  | cons next texts ih =>
    rw [String.intercalate_cons_cons, String.toList_append, String.toList_append, ih]
    simp

/-- Arguments between parentheses. -/
theorem writes_arguments {nodes : List Node} {texts : List String}
    (h : List.Forall₂ (fun node text => node.IsWritten text.toList) nodes texts) :
    Writes (.arguments nodes) (Node.listDepth nodes)
      ('(' :: ((", ".intercalate texts).toList ++ [')'])) := by
  cases h with
  | nil => exact .empty .nil
  | @cons node text nodes texts hnode hnodes =>
    have h := Writes.full .nil hnode (writes_more hnodes) .nil (.inl rfl)
    rw [toList_intercalate_cons]
    simpa [Node.listDepth] using h

/-- A quoted text is written with marks where they are needed. -/
theorem writesText_escaped (text : List Char) :
    WritesText '"' text (text.flatMap Text.escapeChar) := by
  induction text with
  | nil => exact .nil
  | cons c text ih =>
    rw [List.flatMap_cons]
    by_cases hquote : c = '"'
    · subst hquote
      exact (.marked ih : WritesText '"' (Text.unescapeChar '"' :: text) _)
    by_cases hslash : c = '\\'
    · subst hslash
      exact (.marked ih : WritesText '"' (Text.unescapeChar '\\' :: text) _)
    by_cases hfeed : c = '\n'
    · subst hfeed
      exact (.marked ih : WritesText '"' (Text.unescapeChar 'n' :: text) _)
    by_cases htab : c = '\t'
    · subst htab
      exact (.marked ih : WritesText '"' (Text.unescapeChar 't' :: text) _)
    simpa [Text.escapeChar, hquote, hslash, hfeed, htab] using WritesText.plain hslash hquote ih

end Script

namespace Node

open Script

/-- A string is written as a quoted text. -/
theorem isWritten_string (value : String) :
    (Node.string value).IsWritten (Text.quoted value).toList := by
  rw [Text.quoted, String.toList_ofList]
  exact .primary (.string (.inl rfl) (writesText_escaped value.toList))

/-- A name is written as it is. -/
theorem isWritten_name {name : String} (hname : IsFreeName name)
    (hword : name ≠ "true" ∧ name ≠ "false") : (Node.name name).IsWritten name.toList := by
  have h := Writes.primary (.name hname)
  rwa [ofName, if_neg hword.1, if_neg hword.2] at h

/-- A call is written as its name and its arguments. -/
theorem isWritten_call {name : String} {nodes : List Node} {texts : List String}
    (hname : IsFreeName name)
    (h : List.Forall₂ (fun node text => node.IsWritten text.toList) nodes texts) :
    (Node.call name nodes).IsWritten
      (name.toList ++ '(' :: ((", ".intercalate texts).toList ++ [')'])) :=
  Writes.primary (.call hname .nil (writes_arguments h))

/-- A method call is written behind its target, with perhaps a line of its own. -/
theorem IsWritten.method {target : Node} {name : String} {nodes : List Node} {texts : List String}
    {cs gap : List Char} (htarget : target.IsWritten cs) (hgap : Blank gap)
    (hname : Text.isBareName name.toList = true)
    (h : List.Forall₂ (fun node text => node.IsWritten text.toList) nodes texts) :
    (Node.method target name nodes).IsWritten
      (cs ++ (gap ++ '.' :: (name.toList ++ '(' :: ((", ".intercalate texts).toList ++ [')'])))) :=
  Writes.method htarget hgap .nil hname .nil (writes_arguments h)

end Node

/-- A constant is written as its text. -/
theorem Literal.isWritten (value : Literal) : value.toNode.IsWritten value.toScript.toList := by
  cases value with
  | text s => exact Node.isWritten_string s
  | integer i =>
    have hvalue := Numeral.toInt64?_ofInt i.minValue_le_toInt i.toInt_le
    rw [Int64.ofInt_toInt] at hvalue
    exact .primary (.integer (Numeral.writes_toString i.toInt) rfl hvalue)
  | float x =>
    cases x with
    | nan => exact .primary .nan
    | infinite negative =>
      have h := Script.Writes.primary (.infinity negative)
      cases negative <;> exact h
    | finite negative rank =>
      obtain ⟨n, hn, hinteger, hdouble⟩ := Double.writes_text negative rank
      have h := Script.Writes.primary (.float hn hinteger)
      rwa [hdouble] at h
  | boolean b =>
    cases b with
    | false => exact .primary (.name (by decide : Script.IsFreeName "false"))
    | true => exact .primary (.name (by decide : Script.IsFreeName "true"))

namespace Expr

/-- A method call of an expression is written behind it. -/
private theorem isWritten_method {target : Node} {name : String} {nodes : List Node}
    {texts : List String} {text : String} (htarget : target.IsWritten text.toList)
    (hname : Text.isBareName name.toList = true)
    (h : List.Forall₂ (fun node text => node.IsWritten text.toList) nodes texts) :
    (Node.method target name nodes).IsWritten
      (text ++ "." ++ name ++ "(" ++ ", ".intercalate texts ++ ")").toList := by
  have hmethod := htarget.method .nil hname h
  simpa using hmethod

/-- The name of the functions of columns is written as it is. -/
private theorem isWritten_functions : (Node.name "F").IsWritten "F".toList :=
  Node.isWritten_name (by decide) (by decide)

/-- An expression is written as its text. -/
theorem isWritten (e : Expr) : e.toNode.IsWritten e.toScript.toList := by
  induction e with
  | column name =>
    have hname : Script.IsFreeName "c" := by decide
    have h := Node.isWritten_call hname (.cons (Node.isWritten_string name) .nil)
    simpa [toScript, toNode] using h
  | literal value =>
    have hname : Text.isBareName "lit".toList = true := by decide
    have h := isWritten_method isWritten_functions hname (.cons value.isWritten .nil)
    simpa [toScript, toNode] using h
  | binary left op right ihleft ihright =>
    have hname : Text.isBareName op.method.toList = true := by cases op <;> decide
    simpa [toScript, toNode] using isWritten_method ihleft hname (.cons ihright .nil)
  | nullTest operand test ih =>
    have hname : Text.isBareName test.method.toList = true := by cases test <;> decide
    simpa [toScript, toNode] using isWritten_method ih hname .nil
  | range operand test lower upper ih ihlower ihupper =>
    have hname : Text.isBareName test.method.toList = true := by cases test <;> decide
    simpa [toScript, toNode] using isWritten_method ih hname (.cons ihlower (.cons ihupper .nil))
  | cast operand dataType ih =>
    have hname : Text.isBareName "cast".toList = true := by decide
    have h := isWritten_method ih hname (.cons (Node.isWritten_string dataType) .nil)
    simpa [toScript, toNode] using h
  | named operand name ih =>
    have hname : Text.isBareName "alias".toList = true := by decide
    have h := isWritten_method ih hname (.cons (Node.isWritten_string name) .nil)
    simpa [toScript, toNode] using h
  | sort operand direction ih =>
    have hname : Text.isBareName direction.method.toList = true := by cases direction <;> decide
    simpa [toScript, toNode] using isWritten_method ih hname .nil
  | aggregate function operand ih =>
    have hname : Text.isBareName function.function.toList = true := by cases function <;> decide
    simpa [toScript, toNode] using isWritten_method isWritten_functions hname (.cons ih .nil)

end Expr

end FluentSql
