import FluentSql.Script.Eval

/-!
# Bindings are transparent

A binding may be dropped when its expression is written wherever its name stands: the script stands
for the same query, or fails with the same error. For that no later binding may hide the name or a
name that the expression mentions. A binding that is not mentioned can be dropped as it is.
-/

namespace FluentSql

/-! ### Names and their replacement -/

namespace Node

mutual

/-- The bare names that the expression mentions. Names of functions and methods are none. -/
def names : Node → List String
  | .name n => [n]
  | .call _ arguments => listNames arguments
  | .method target _ arguments => target.names ++ listNames arguments
  | _ => []

/-- The bare names that the expressions mention. -/
def listNames : List Node → List String
  | [] => []
  | node :: nodes => node.names ++ listNames nodes

end

section Substitute

variable (image : String → Node)

mutual

/-- The expression with an expression for each bare name. -/
def substitute : Node → Node
  | .name n => image n
  | .call function arguments => .call function (substituteList arguments)
  | .method target function arguments =>
    .method target.substitute function (substituteList arguments)
  | node => node

/-- The expressions with an expression for each bare name. -/
def substituteList : List Node → List Node
  | [] => []
  | node :: nodes => node.substitute :: substituteList nodes

end

end Substitute

/-- The expression for one name, and every other name as it is. -/
def inlining (x : String) (v : Node) (name : String) : Node :=
  if name = x then v else .name name

/-- The expression with `v` wherever the bare name `x` stands. -/
def inline (node : Node) (x : String) (v : Node) : Node :=
  node.substitute (inlining x v)

mutual

/-- Names that stand for themselves leave an expression as it is. -/
theorem substitute_name (node : Node) : node.substitute .name = node := by
  cases node with
  | call function arguments => rw [substitute, substituteList_name arguments]
  | method target function arguments =>
    rw [substitute, substitute_name target, substituteList_name arguments]
  | _ => rfl

/-- Names that stand for themselves leave expressions as they are. -/
theorem substituteList_name (nodes : List Node) : substituteList .name nodes = nodes := by
  cases nodes with
  | nil => rfl
  | cons node nodes => rw [substituteList, substitute_name node, substituteList_name nodes]

end

end Node

namespace Binding

/-- The binding with an expression for each bare name in its value. -/
def substitute (image : String → Node) (b : Binding) : Binding :=
  ⟨b.name, b.value.substitute image⟩

/-- The binding with `v` wherever the bare name `x` stands in its value. -/
def inline (b : Binding) (x : String) (v : Node) : Binding :=
  b.substitute (Node.inlining x v)

end Binding

namespace Script

/-! ### Expressions -/

mutual

/-- An expression has the value that it had, if the expressions for its names have the values of the
names. -/
theorem eval_substitute {values values' : Bindings} {image : String → Node} (node : Node)
    (h : ∀ name ∈ node.names, eval values' (image name) = lookup values name) :
    eval values' (node.substitute image) = eval values node := by
  cases node with
  | name name => exact h name (List.mem_singleton_self name)
  | call function arguments =>
    rw [Node.substitute, eval, eval, evalList_substitute arguments h]
  | method target function arguments =>
    obtain ⟨htarget, harguments⟩ := List.forall_mem_append.mp h
    rw [Node.substitute, eval, eval, eval_substitute target htarget,
      evalList_substitute arguments harguments]
  | _ => rfl

/-- Expressions have the values that they had. -/
theorem evalList_substitute {values values' : Bindings} {image : String → Node}
    (nodes : List Node)
    (h : ∀ name ∈ Node.listNames nodes, eval values' (image name) = lookup values name) :
    evalList values' (Node.substituteList image nodes) = evalList values nodes := by
  cases nodes with
  | nil => rfl
  | cons node nodes =>
    obtain ⟨hnode, hnodes⟩ := List.forall_mem_append.mp h
    rw [Node.substituteList, evalList, evalList, eval_substitute node hnode,
      evalList_substitute nodes hnodes]

end

/-- The value of an expression depends on the values of the names that it mentions alone. -/
theorem eval_congr {values values' : Bindings} {node : Node}
    (h : ∀ name ∈ node.names, lookup values' name = lookup values name) :
    eval values' node = eval values node := by
  have hsame : eval values' (node.substitute .name) = eval values node := eval_substitute node h
  rwa [Node.substitute_name] at hsame

/-- The name that was bound last has the value that it was bound to. -/
theorem lookup_cons_self (name : String) (v : Value) (values : Bindings) :
    lookup ((name, v) :: values) name = .ok v := by
  simp [lookup]

/-- Every other name keeps its value. -/
theorem lookup_cons_of_ne {name other : String} (h : name ≠ other) (v : Value)
    (values : Bindings) : lookup ((other, v) :: values) name = lookup values name := by
  simp [lookup, List.lookup_cons, beq_eq_false_iff_ne.mpr h]

/-! ### Scripts -/

/-- In the later bindings the image of every known name has the value that the name has in the
earlier ones. -/
def Represents (known : String → Prop) (image : String → Node) (values values' : Bindings) : Prop :=
  ∀ name, known name → eval values' (image name) = lookup values name

/-- A binding of the name leaves the images of all known names as they are. -/
structure Spares (known : String → Prop) (image : String → Node) (bound : String) : Prop where
  /-- The name stands for itself. -/
  image_eq : image bound = .name bound
  /-- No image of another name mentions it. -/
  notMem : ∀ name, known name → name ≠ bound → bound ∉ (image name).names

variable {known : String → Prop} {image : String → Node} {values values' : Bindings}

/-- One more binding on both sides keeps the images right, if it leaves them as they are. -/
theorem Represents.bind {bound : String} (h : Represents known image values values')
    (hspares : Spares known image bound) (v : Value) :
    Represents known image ((bound, v) :: values) ((bound, v) :: values') := by
  intro name hknown
  by_cases hbound : name = bound
  · subst hbound
    rw [hspares.image_eq, eval, lookup_cons_self, lookup_cons_self]
  · rw [lookup_cons_of_ne hbound, ← h name hknown]
    refine eval_congr fun mentioned hmentioned => lookup_cons_of_ne ?_ v values'
    rintro rfl
    exact hspares.notMem name hknown hbound hmentioned

/-- The value of `x` is that of the expression in its place, and other names keep theirs. -/
theorem represents_inlining {x : String} {v : Node} {value : Value}
    (hvalue : eval values v = .ok value) :
    Represents (fun _ => True) (Node.inlining x v) ((x, value) :: values) values := by
  intro name _
  by_cases hname : name = x
  · rw [hname, lookup_cons_self, Node.inlining, if_pos rfl, hvalue]
  · rw [Node.inlining, if_neg hname, eval, lookup_cons_of_ne hname]

/-- A binding neither of `x` nor of a name that `v` mentions leaves `v` right in the place of
`x`. -/
theorem spares_inlining {x bound : String} {v : Node} (hname : bound ≠ x) (hv : bound ∉ v.names) :
    Spares known (Node.inlining x v) bound where
  image_eq := if_neg hname
  notMem name _ hother := by
    rw [Node.inlining]
    split
    · exact hv
    · exact fun hmem => hother (List.mem_singleton.mp hmem).symm

/-- Other names than `x` have their values without it. -/
theorem represents_name (x : String) (value : Value) (values : Bindings) :
    Represents (· ≠ x) .name ((x, value) :: values) values :=
  fun _ hname => (lookup_cons_of_ne hname value values).symm

/-- Every binding leaves names that stand for themselves right. -/
theorem spares_name (bound : String) : Spares known .name bound :=
  ⟨rfl, fun _ _ hname hmem => hname (List.mem_singleton.mp hmem).symm⟩

/-- Bindings with the images for their names succeed or fail as those with the names, and keep the
images right. -/
theorem Represents.bindAll {bindings : List Binding} (h : Represents known image values values')
    (hspares : ∀ b ∈ bindings, Spares known image b.name)
    (hknown : ∀ b ∈ bindings, ∀ name ∈ b.value.names, known name) :
    (bindAll values' (bindings.map (·.substitute image))).2 = (bindAll values bindings).2 ∧
      Represents known image (bindAll values bindings).1
        (bindAll values' (bindings.map (·.substitute image))).1 := by
  induction bindings generalizing values values' with
  | nil => exact ⟨rfl, h⟩
  | cons b bindings ih =>
    obtain ⟨hb, hspares⟩ := List.forall_mem_cons.mp hspares
    obtain ⟨hvalue, hknown⟩ := List.forall_mem_cons.mp hknown
    have heval : eval values' (b.value.substitute image) = eval values b.value :=
      eval_substitute b.value fun name hname => h name (hvalue name hname)
    rw [List.map_cons, Script.bindAll, Script.bindAll, Binding.substitute, heval]
    cases eval values b.value with
    | error e => exact ⟨rfl, h⟩
    | ok v => exact ih (h.bind hb v) hspares hknown

/-- A script with the images for its names stands for the same query, or fails with the same
error. -/
theorem Represents.run {bindings : List Binding} {body : Node}
    (h : Represents known image values values')
    (hspares : ∀ b ∈ bindings, Spares known image b.name)
    (hknown : ∀ b ∈ bindings, ∀ name ∈ b.value.names, known name)
    (hbody : ∀ name ∈ body.names, known name) :
    (run values' ⟨bindings.map (·.substitute image), body.substitute image⟩).2 =
      (run values ⟨bindings, body⟩).2 := by
  obtain ⟨houtcome, hafter⟩ := h.bindAll hspares hknown
  have heval := eval_substitute body fun name hname => hafter name (hbody name hname)
  simp only [Script.run, evalQuery, houtcome, heval]

/-- After bindings that succeed, a script goes on with those that they make. -/
theorem run_append {start after : Bindings} {earlier : List Binding}
    (h : Script.bindAll start earlier = (after, .ok ())) (later : List Binding) (body : Node) :
    run start ⟨earlier ++ later, body⟩ = run after ⟨later, body⟩ := by
  simp only [Script.run, bindAll_append, h]

/-- Bindings that succeed up to one are those before it, which succeed, and the value of its
expression. -/
theorem exists_of_bindAll_concat {start : Bindings} {earlier : List Binding} {b : Binding}
    (h : (Script.bindAll start (earlier ++ [b])).2 = .ok ()) :
    ∃ values v, Script.bindAll start earlier = (values, .ok ()) ∧ eval values b.value = .ok v := by
  rw [bindAll_append] at h
  rcases hearlier : Script.bindAll start earlier with ⟨values, _ | ⟨⟩⟩
  · rw [hearlier] at h
    cases h
  · simp only [hearlier, Script.bindAll] at h
    cases heval : eval values b.value with
    | error e =>
      rw [heval] at h
      cases h
    | ok v => exact ⟨values, v, rfl, heval⟩

/-- Let the bindings of a script up to that of `x` to `v` succeed. If no later binding is one of `x`
or of a name that `v` mentions, the script stands for the same query, or fails with the same error,
without that binding and with `v` wherever `x` stood after it. If `x` is not mentioned after the
binding, the script does so without the binding. -/
theorem run_inline (start : Bindings) (earlier later : List Binding) (x : String) (v body : Node)
    (h : (Script.bindAll start (earlier ++ [⟨x, v⟩])).2 = .ok ()) :
    ((∀ b ∈ later, b.name ≠ x ∧ b.name ∉ v.names) →
      (run start ⟨earlier ++ later.map (·.inline x v), body.inline x v⟩).2 =
        (run start ⟨earlier ++ ⟨x, v⟩ :: later, body⟩).2) ∧
    ((∀ b ∈ later, x ∉ b.value.names) → x ∉ body.names →
      (run start ⟨earlier ++ later, body⟩).2 =
        (run start ⟨earlier ++ ⟨x, v⟩ :: later, body⟩).2) := by
  obtain ⟨values, value, hearlier, hvalue⟩ := exists_of_bindAll_concat h
  have hbound : run values ⟨⟨x, v⟩ :: later, body⟩ = run ((x, value) :: values) ⟨later, body⟩ := by
    simp only [Script.run, Script.bindAll, hvalue]
  simp only [run_append hearlier, hbound]
  refine ⟨fun hapart => ?_, fun hlater hbody => ?_⟩
  · have hspares : ∀ b ∈ later, Spares (fun _ => True) (Node.inlining x v) b.name :=
      fun b hb => spares_inlining (hapart b hb).1 (hapart b hb).2
    exact (represents_inlining hvalue).run hspares (fun _ _ _ _ => trivial) fun _ _ => trivial
  · have hne {node : Node} (hx : x ∉ node.names) : ∀ name ∈ node.names, name ≠ x :=
      fun name hname heq => hx (heq ▸ hname)
    have hsame := (represents_name x value values).run (fun b _ => spares_name b.name)
      (fun b hb => hne (hlater b hb)) (hne hbody)
    have hmap : later.map (·.substitute .name) = later := by
      simp [Binding.substitute, Node.substitute_name]
    rwa [hmap, Node.substitute_name] at hsame

/-- A binding that hides one of the same name, which its own expression mentions, is dropped. -/
theorem run_inline_hiding :
    let earlier : List Binding := [⟨"base", .string "t"⟩]
    let v := Node.method (.name "XQL") "from" [.name "base"]
    let later : List Binding := [⟨"rows", .method (.name "base") "distinct" []⟩]
    let body := Node.method (.name "rows") "limit" [.integer 3]
    (Script.bindAll [] (earlier ++ [⟨"base", v⟩])).2 = .ok () ∧
      (∀ b ∈ later, b.name ≠ "base" ∧ b.name ∉ v.names) ∧
      (run [] ⟨earlier ++ [⟨"rows", .method v "distinct" []⟩], body⟩).2 =
        (run [] ⟨earlier ++ ⟨"base", v⟩ :: later, body⟩).2 := by
  intro earlier v later body
  have hok : (Script.bindAll [] (earlier ++ [⟨"base", v⟩])).2 = .ok () := rfl
  have hapart : ∀ b ∈ later, b.name ≠ "base" ∧ b.name ∉ v.names := by
    simp [later, v, Node.names, Node.listNames]
  exact ⟨hok, hapart, (run_inline [] earlier later "base" v body hok).1 hapart⟩

end Script

end FluentSql
