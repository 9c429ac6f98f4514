import FluentSql.Proofs.Script.Completeness
import FluentSql.Proofs.Script.Tree

/-!
# Scripts that can be written

Some trees have no layout, since their names would be read as something else. All others have one,
and every layout of theirs is read back to them.
-/

namespace FluentSql

/-! ### Trees with a layout -/

namespace Node

mutual

/-- The names in the expression are names of the grammar, and none that stands alone or before
arguments is a word of its own. -/
def Legal : Node → Prop
  | .name word => Script.IsFreeName word ∧ word ≠ "true" ∧ word ≠ "false"
  | .call function arguments => Script.IsFreeName function ∧ ListLegal arguments
  | .method target word arguments =>
    target.Legal ∧ Text.isBareName word.toList = true ∧ ListLegal arguments
  | .string _ | .integer _ | .float _ | .boolean _ => True

/-- The expressions have such names. -/
def ListLegal : List Node → Prop
  | [] => True
  | node :: nodes => node.Legal ∧ ListLegal nodes

end

/-- A name as written is one, or a truth value. -/
theorem legal_ofName {name : String} (hname : Script.IsFreeName name) :
    (Script.ofName name).Legal := by
  unfold Script.ofName
  split
  · trivial
  · split
    · trivial
    · next htrue hfalse => exact ⟨hname, htrue, hfalse⟩

end Node

/-- The script binds names of the grammar, to expressions with such names. -/
structure Script.Legal (script : Script) : Prop where
  /-- The names that are bound. -/
  names : ∀ binding ∈ script.bindings, Text.isBareName binding.name.toList = true
  /-- The expressions that they are bound to. -/
  values : ∀ binding ∈ script.bindings, binding.value.Legal
  /-- The final expression. -/
  body : script.body.Legal

namespace Script

/-! ### What is written is legal -/

/-- The expressions of the part are legal. -/
def Part.Legal : Part → Prop
  | primary node | chain _ node => node.Legal
  | more nodes | arguments nodes => Node.ListLegal nodes

/-- A part that is written is legal. -/
theorem Writes.legal {part : Part} {depth : Nat} {cs : List Char} (h : Writes part depth cs) :
    part.Legal := by
  induction h with
  | string | integer | float | nan | infinity => trivial
  | name hname => exact Node.legal_ofName hname
  | call hname _ _ ih => exact ⟨hname, ih⟩
  | parenthesized _ _ _ ih | primary _ ih => exact ih
  | method _ _ _ hname _ _ ih iharguments => exact ⟨ih, hname, iharguments⟩
  | done | empty => trivial
  | next _ _ _ _ ih ihmore | full _ _ _ _ _ ih ihmore => exact ⟨ih, ihmore⟩

/-- Bindings that are written bind names of the grammar to legal expressions. -/
theorem WritesBindings.legal {bindings : List Binding} {depth : Nat} {cs : List Char}
    (h : WritesBindings bindings depth cs) :
    ∀ binding ∈ bindings, Text.isBareName binding.name.toList = true ∧ binding.value.Legal := by
  induction h with
  | nil => intro binding hmem; cases hmem
  | cons h _ ih =>
    intro binding hmem
    rcases List.mem_cons.mp hmem with rfl | hmem
    · cases h with
      | mk _ _ _ hname _ _ hvalue => exact ⟨hname, hvalue.legal⟩
    · exact ih binding hmem

/-- A script that is written is legal. -/
theorem WritesScript.legal {script : Script} {depth : Nat} {cs : List Char}
    (h : WritesScript script depth cs) : script.Legal := by
  cases h with
  | mk _ hbindings _ hbody =>
    exact ⟨fun binding hmem => (hbindings.legal binding hmem).1,
      fun binding hmem => (hbindings.legal binding hmem).2, hbody.legal⟩

end Script

/-! ### What is legal is written -/

namespace Node

open Script

mutual

/-- A legal expression can be written without parentheses around any part. -/
theorem Legal.exists_isWritten {node : Node} (h : node.Legal) :
    ∃ text : String, node.IsWritten text.toList := by
  cases node with
  | string value => exact ⟨_, isWritten_string value⟩
  | integer value => exact ⟨_, (Literal.integer value).isWritten⟩
  | float value => exact ⟨_, (Literal.float value).isWritten⟩
  | boolean value => exact ⟨_, (Literal.boolean value).isWritten⟩
  | name word => exact ⟨word, isWritten_name h.1 h.2⟩
  | call function arguments =>
    obtain ⟨texts, htexts⟩ := exists_areWritten h.2
    exact ⟨String.ofList _, by
      rw [String.toList_ofList]
      exact isWritten_call h.1 htexts⟩
  | method target name arguments =>
    obtain ⟨htarget, hname, harguments⟩ := h
    obtain ⟨text, htext⟩ := htarget.exists_isWritten
    obtain ⟨texts, htexts⟩ := exists_areWritten harguments
    exact ⟨String.ofList _, by
      rw [String.toList_ofList]
      exact htext.method .nil hname htexts⟩

/-- Legal expressions can be written, each without parentheses around any part. -/
theorem exists_areWritten {nodes : List Node} (h : ListLegal nodes) :
    ∃ texts : List String,
      List.Forall₂ (fun node text => node.IsWritten text.toList) nodes texts := by
  cases nodes with
  | nil => exact ⟨[], .nil⟩
  | cons node nodes =>
    obtain ⟨text, htext⟩ := h.1.exists_isWritten
    obtain ⟨texts, htexts⟩ := exists_areWritten h.2
    exact ⟨text :: texts, .cons htext htexts⟩

end

end Node

namespace Script

/-- Bindings of names of the grammar to legal expressions can be written. -/
theorem exists_writesBindings {bindings : List Binding}
    (h : ∀ binding ∈ bindings, Text.isBareName binding.name.toList = true ∧ binding.value.Legal) :
    ∃ cs, WritesBindings bindings (bindingsDepth bindings) cs := by
  induction bindings with
  | nil => exact ⟨[], .nil⟩
  | cons binding bindings ih =>
    obtain ⟨hname, hvalue⟩ := h binding List.mem_cons_self
    obtain ⟨text, htext⟩ := hvalue.exists_isWritten
    obtain ⟨cs, hcs⟩ := ih fun binding hmem => h binding (List.mem_cons_of_mem _ hmem)
    have hgap : Blank [' '] := .space rfl .nil
    have hbinding := WritesBinding.mk (.inl rfl) hgap (by decide) hname .nil .nil htext .nil .nil
    exact ⟨_, .cons hbinding hcs⟩

/-- A legal script can be written, to nest no deeper than its tree. -/
theorem Legal.exists_writesScript {script : Script} (h : script.Legal) :
    ∃ cs, WritesScript script script.depth cs := by
  obtain ⟨cs, hcs⟩ := exists_writesBindings fun binding hmem =>
    ⟨h.names binding hmem, h.values binding hmem⟩
  obtain ⟨text, htext⟩ := h.body.exists_isWritten
  have hgap : Blank [' '] := .space rfl .nil
  -- Behind the word `return` an expression may start with any name, also with a keyword.
  exact ⟨_, .mk .nil hcs (.word hgap (.inl (by decide))) htext (.bare (.closed .nil))⟩

/-- Parentheses around an expression do not change it, and each is one level. -/
theorem Writes.in_parentheses {node : Node} {depth : Nat} {cs : List Char}
    (h : Writes (.primary node) depth cs) (count : Nat) :
    Writes (.primary node) (depth + count)
      (List.replicate count '(' ++ (cs ++ List.replicate count ')')) := by
  induction count with
  | zero => simpa using h
  | succ count ih =>
    have hnext := Writes.parenthesized .nil (.primary ih) .nil
    have hclosing : List.replicate count ')' ++ [')'] = List.replicate (count + 1) ')' :=
      List.replicate_succ'.symm
    simpa [hclosing, List.replicate_succ, Nat.add_assoc] using hnext

/-- A script has a layout if and only if its names are those of the grammar, and each layout of it
is read as just that script, unless it nests too deep, which is then the error. -/
theorem layouts_are_read (script : Script) :
    ((∃ depth cs, WritesScript script depth cs) ↔ script.Legal) ∧
      ∀ depth text, WritesScript script depth text.toList →
        (depth ≤ maxDepth → ofText text = .ok script) ∧
          (maxDepth < depth →
            ∃ position, ofText text = .error (.parse position (.tooDeep maxDepth))) := by
  refine ⟨⟨?_, ?_⟩, fun depth text h => ofText_of_writesScript h⟩
  · rintro ⟨depth, cs, h⟩
    exact h.legal
  · intro h
    exact ⟨script.depth, h.exists_writesScript⟩

/-- A layout with a comment, parentheses, a comma after the last argument, either line ending and a
semicolon is read, and one with too many parentheses is not. -/
theorem layouts_are_read_parenthesized :
    ofText "let t = (f('it\\'s', -15e1,));\r\n// last\nreturn t . g(2) ;" =
        .ok ⟨[⟨"t", .call "f" [.string "it's", .float (.ofDecimal true 15 1)]⟩],
          .method (.name "t") "g" [.integer 2]⟩ ∧
      ∃ position, ofText (String.ofList ("return".toList ++ (List.replicate 257 '(' ++
        ("x".toList ++ List.replicate 257 ')')))) = .error (.parse position (.tooDeep 256)) := by
  have hspace : Blank [' '] := .space rfl .nil
  constructor
  · have hmarked : WritesText '\'' (Text.unescapeChar '\'' :: ['s']) ['\\', '\'', 's'] :=
      .marked (.plain (by decide) (by decide) .nil)
    have htext : WritesText '\'' "it's".toList "it\\'s".toList :=
      .plain (by decide) (by decide) (.plain (by decide) (by decide) hmarked)
    have hstring : Writes (.primary (.string "it's")) 0 "'it\\'s'".toList :=
      .string (.inr rfl) htext
    have hnumeral : Numeral.Writes ⟨true, ['1', '5'], [], some (false, ['1'])⟩ "-15e1".toList :=
      .mk ⟨by simp, by simp⟩ .none (.some (.inl rfl) .bare ⟨by simp, by simp⟩)
    have hvalue : Numeral.toDouble ⟨true, ['1', '5'], [], some (false, ['1'])⟩ =
        .ofDecimal true 15 1 :=
      congrArg₂ (Double.ofDecimal true) (by decide : Numeral.digitsValue ['1', '5'] = 15)
        (by decide : Numeral.power ⟨true, ['1', '5'], [], some (false, ['1'])⟩ - 0 = 1)
    have hfloat := Writes.float hnumeral rfl
    rw [hvalue] at hfloat
    have hf : IsFreeName "f" := by decide
    have hcall : Writes (.primary (.call "f" [.string "it's", .float (.ofDecimal true 15 1)])) 1
        "f('it\\'s', -15e1,)".toList :=
      .call hf .nil (.full .nil (.primary hstring) (.next .nil hspace (.primary hfloat) .done) .nil
        (.inr ⟨[], .nil, rfl⟩))
    have hcomment : ∀ c ∈ [' ', 'l', 'a', 's', 't'], c ≠ '\n' ∧ c ≠ '\r' := by simp
    have hgap : Blank "\r\n// last\n".toList :=
      .space rfl (.space rfl (.comment hcomment (.inl rfl) .nil))
    have ht : Text.isBareName "t".toList = true := by decide
    have hbinding : WritesBinding ⟨"t", .call "f" [.string "it's", .float (.ofDecimal true 15 1)]⟩ 2
        "let t = (f('it\\'s', -15e1,));\r\n// last\n".toList :=
      .mk (.inr rfl) hspace (by decide) ht hspace hspace
        (.primary (.parenthesized .nil (.primary hcall) .nil)) .nil hgap
    have hinteger : Writes (.primary (.integer 2)) 0 "2".toList :=
      .integer (Numeral.writes_toString 2) rfl rfl
    have hname : IsFreeName "t" := by decide
    have hg : Text.isBareName "g".toList = true := by decide
    have hbody : Writes (.chain 1 (.method (.name "t") "g" [.integer 2])) 1 "t . g(2)".toList :=
      .method (.primary (.name hname)) hspace hspace hg .nil
        (.full .nil (.primary hinteger) .done .nil (.inl rfl))
    have h := WritesScript.mk .nil (.cons hbinding .nil) (.word hspace (.inl (by decide))) hbody
      (.semicolon hspace (.closed .nil))
    exact ((layouts_are_read _).2 2 _ h).1 (by decide)
  · have hname : Writes (.primary (ofName "x")) 0 "x".toList := .name (by decide)
    have hdeep (count : Nat) : WritesScript ⟨[], ofName "x"⟩ (count + 1) (String.ofList
        ("return".toList ++ (List.replicate (count + 1) '(' ++
          ("x".toList ++ List.replicate (count + 1) ')')))).toList := by
      have h := WritesScript.mk .nil .nil (.word .nil (.inr rfl))
        (.primary (hname.in_parentheses (count + 1))) (.bare (.closed .nil))
      simpa only [String.toList_ofList, List.nil_append, List.append_nil, Nat.zero_max,
        Nat.zero_add] using h
    exact ((layouts_are_read _).2 257 _ (hdeep 256)).2 (by decide)

end Script

end FluentSql
