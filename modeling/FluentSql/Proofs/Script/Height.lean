import FluentSql.Proofs.Script.Accepted
import FluentSql.Proofs.Script.Writable
import Mathlib.Tactic.Ring

/-!
# Heights of accepted scripts

Every method call of a chain is a level of nesting, but the levels that were taken before a closing
parenthesis are free again for the calls after it. So the tree of an accepted script can be higher
than the number of levels: by the number of calls after closing parentheses at most, and up to the
sum of all levels.
-/

namespace FluentSql

/-! ### Heights -/

namespace Node

mutual

/-- How high the expression is: a call is one higher than the highest of its target and its
arguments. -/
def height : Node → Nat
  | call _ arguments => listHeight arguments + 1
  | method target _ arguments => max target.height (listHeight arguments) + 1
  | _ => 0

/-- How high the highest of the expressions is. -/
def listHeight : List Node → Nat
  | [] => 0
  | node :: nodes => max node.height (listHeight nodes)

end

end Node

namespace Script

/-- The expressions of a script, those that are bound before the final one. -/
def trees (s : Script) : List Node :=
  s.bindings.map (·.value) ++ [s.body]

/-- The height that expressions reach with so many levels of nesting. -/
def maxHeight (levels : Nat) : Nat :=
  levels * (levels + 3) / 2

/-- One more level makes room for a call around all others and for as many calls after it. -/
theorem maxHeight_succ (levels : Nat) : maxHeight (levels + 1) = maxHeight levels + levels + 2 := by
  have hsum : (levels + 1) * (levels + 1 + 3) = levels * (levels + 3) + 2 * (levels + 2) := by ring
  rw [maxHeight, hsum, Nat.add_mul_div_left _ _ (by decide), maxHeight, Nat.add_assoc]

/-- More levels make more room. -/
theorem maxHeight_mono {fewer levels : Nat} (h : fewer ≤ levels) :
    maxHeight fewer ≤ maxHeight levels := by
  induction h with
  | refl => exact Nat.le_refl _
  | step _ ih =>
    rw [Nat.succ_eq_add_one, maxHeight_succ]
    omega

/-- There is room for as many calls as there are levels. -/
theorem le_maxHeight (levels : Nat) : levels ≤ maxHeight levels := by
  induction levels with
  | zero => exact Nat.zero_le _
  | succ levels ih =>
    rw [maxHeight_succ]
    omega

/-! ### Calls after parentheses -/

/-- The number of closing parentheses with a point after them, apart from blanks. -/
def chained : List Char → Nat
  | [] => 0
  | c :: cs => (if c = ')' ∧ (skip cs).head? = some '.' then 1 else 0) + chained cs

/-- There are no fewer of them in the characters than in what is left of these. -/
theorem chained_le_of_suffix {cs rest : List Char} (h : rest <:+ cs) :
    chained rest ≤ chained cs := by
  obtain ⟨before, rfl⟩ := h
  induction before with
  | nil => exact Nat.le_refl _
  | cons c before ih => exact Nat.le_trans ih (Nat.le_add_left _ _)

/-- A closing parenthesis with a point after it is one more. -/
theorem chained_closing {cs : List Char} (h : (skip cs).head? = some '.') :
    chained (')' :: cs) = chained cs + 1 := by
  rw [chained, if_pos ⟨rfl, h⟩, Nat.add_comm]

/-! ### What is read -/

/-- A part of a script is taken from the characters, up to what is left of them, with so many levels
of nesting. A chain takes one of its levels for each call, and has those after it for the arguments
of the call. -/
inductive Takes : Nat → Part → List Char → List Char → Prop
  | leaf {levels : Nat} {node : Node} {cs rest : List Char} (hheight : node.height = 0)
      (hsuffix : rest <:+ cs) : Takes levels (.primary node) cs rest
  | call {levels : Nat} {name : String} {nodes : List Node} {cs gap rest : List Char}
      (hsuffix : gap <:+ cs) (h : Takes levels (.arguments nodes) gap rest) :
      Takes (levels + 1) (.primary (.call name nodes)) cs rest
  | parenthesized {levels length : Nat} {node : Node} {cs start after rest : List Char}
      (hsuffix : start <:+ cs) (h : Takes levels (.chain length node) start after)
      (hclosing : ')' :: rest <:+ after) : Takes (levels + 1) (.primary node) cs rest
  | primary {levels : Nat} {node : Node} {cs rest : List Char}
      (h : Takes levels (.primary node) cs rest) : Takes levels (.chain 0 node) cs rest
  | method {length inner : Nat} {target : Node} {name : String} {nodes : List Node}
      {cs before gap rest : List Char}
      (h : Takes (length + inner + 1) (.chain length target) cs before)
      (hpoint : (skip before).head? = some '.') (hsuffix : gap <:+ before)
      (harguments : Takes inner (.arguments nodes) gap rest) :
      Takes (length + inner + 1) (.chain (length + 1) (.method target name nodes)) cs rest
  | done {levels : Nat} (cs : List Char) : Takes levels (.more []) cs cs
  | next {levels length : Nat} {node : Node} {nodes : List Node} {cs start more rest : List Char}
      (hsuffix : start <:+ cs) (h : Takes levels (.chain length node) start more)
      (hmore : Takes levels (.more nodes) more rest) : Takes levels (.more (node :: nodes)) cs rest
  | arguments {levels : Nat} {nodes : List Node} {cs start after rest : List Char}
      (hsuffix : start <:+ cs) (h : Takes levels (.more nodes) start after)
      (hclosing : ')' :: rest <:+ after) : Takes levels (.arguments nodes) cs rest

/-- The reader takes expressions with so many levels. -/
def TakesWithin (levels : Nat) (inner : Reader Node) : Prop :=
  ∀ cs node rest, inner cs = .found node rest → ∃ length, Takes levels (.chain length node) cs rest

section Inner

variable {inner : Reader Node} {levels : Nat} {cs rest : List Char}

/-- A separator leaves a suffix. -/
theorem suffix_of_readSeparator {c : Char} {u : Unit} (h : readSeparator c cs = .found u rest) :
    rest <:+ cs := by
  obtain ⟨after, hbefore, hafter⟩ := skips_of_readSeparator h
  exact hafter.suffix.trans ((List.suffix_cons c after).trans hbefore.suffix)

/-- Expressions that are read after the first one are taken. -/
theorem takes_of_readMany (hinner : TakesWithin levels inner) {bound : Nat} {nodes : List Node}
    (h : readMany (fun cs => (readSeparator ',' cs).andThen fun _ rest => inner rest) bound cs =
      .found nodes rest) : Takes levels (.more nodes) cs rest := by
  refine readMany_induction (P := fun nodes => Takes levels (.more nodes)) .done ?_ h
  intro node nodes cs between rest hnext hmore
  obtain ⟨_, expr, hseparator, hnode⟩ := Reply.andThen_eq_found.mp hnext
  obtain ⟨length, hexpr⟩ := hinner _ _ _ hnode
  exact .next (suffix_of_readSeparator hseparator) hexpr hmore

/-- Arguments that are read are taken. -/
theorem takes_of_readArguments (hinner : TakesWithin levels inner) {nodes : List Node}
    (hread : readArguments inner cs = .found nodes rest) :
    Takes levels (.arguments nodes) cs rest := by
  obtain ⟨_, tail, hopening, h⟩ := Reply.andThen_eq_found.mp hread
  obtain rfl := readChar_eq_found.mp hopening
  obtain ⟨arguments, after, hlist, h⟩ := Reply.andThen_eq_found.mp h
  obtain ⟨_, hclosing, rfl⟩ := Reply.map_eq_found.mp (Reply.required_eq_found.mp h)
  have hend : ')' :: rest <:+ after := readChar_eq_found.mp hclosing ▸ skipComma_suffix after
  have hstart := (skip_suffix tail).trans (List.suffix_cons '(' tail)
  unfold readList at hlist
  split at hlist
  · obtain ⟨rfl, rfl⟩ := Reply.found.inj hlist
    exact .arguments hstart (.done _) hend
  · cases hlist
  · next first between hfirst =>
    obtain ⟨more, hmore, rfl⟩ := Reply.map_eq_found.mp hlist
    obtain ⟨length, hexpr⟩ := hinner _ _ _ hfirst
    exact .arguments hstart (.next List.suffix_rfl hexpr (takes_of_readMany hinner hmore)) hend

/-- A primary that is read is a leaf, or it is a call with arguments or an expression in
parentheses, which are read in turn. -/
theorem cases_of_readPrimary {node : Node} (hread : readPrimary inner cs = .found node rest) :
    (node.height = 0 ∧ rest <:+ cs) ∨
      (∃ name nodes gap, node = .call name nodes ∧ gap <:+ cs ∧
        readArguments inner gap = .found nodes rest) ∨
      ∃ start after, start <:+ cs ∧ inner start = .found node after ∧ ')' :: rest <:+ after := by
  rcases Reply.orElse_eq_found.mp hread with h | ⟨_, -, h⟩
  · rcases Reply.orElse_eq_found.mp h with h | ⟨_, -, h⟩
    · rcases Reply.orElse_eq_found.mp h with h | ⟨_, -, h⟩
      · obtain ⟨value, -, rfl⟩ := Reply.map_eq_found.mp h
        exact .inl ⟨rfl, (derives_of_readString h).suffix⟩
      · have hnumber := derivesNumber_of_readNumber h
        refine .inl ⟨?_, hnumber.suffix⟩
        cases hnumber <;> rfl
    · obtain ⟨name, gap, hname, h⟩ := Reply.andThen_eq_found.mp h
      have hsuffix := (derivesName_of_readName hname).suffix
      split at h
      · next arguments after harguments =>
        obtain ⟨rfl, rfl⟩ := Reply.found.inj h
        exact .inr (.inl ⟨name, arguments, _, rfl, (skip_suffix gap).trans hsuffix, harguments⟩)
      · obtain ⟨rfl, rfl⟩ := Reply.found.inj h
        refine .inl ⟨?_, hsuffix⟩
        unfold ofName
        split
        · rfl
        · split <;> rfl
      · cases h
  · obtain ⟨_, tail, hopening, h⟩ := Reply.andThen_eq_found.mp h
    obtain rfl := readChar_eq_found.mp hopening
    obtain ⟨inside, after, hinside, h⟩ := Reply.andThen_eq_found.mp (Reply.required_eq_found.mp h)
    obtain ⟨_, hclosing, rfl⟩ := Reply.map_eq_found.mp h
    exact .inr (.inr ⟨_, after, (skip_suffix tail).trans (List.suffix_cons '(' tail), hinside,
      readChar_eq_found.mp hclosing ▸ skip_suffix after⟩)

end Inner

/-- Without a level no arguments are read, not even none. -/
theorem readArguments_ne_found (cs : List Char) (nodes : List Node) (rest : List Char) :
    readArguments (readExpr 0) cs ≠ .found nodes rest := by
  intro h
  obtain ⟨_, tail, -, h⟩ := Reply.andThen_eq_found.mp h
  cases h

section Readers

variable {left : Nat} (hinner : ∀ less < left, TakesWithin less (readExpr (less + 1)))
include hinner

/-- A primary that is read is taken with the levels that are left for what is in it. -/
theorem takes_of_readPrimary {cs rest : List Char} {node : Node}
    (h : readPrimary (readExpr left) cs = .found node rest) :
    Takes left (.primary node) cs rest := by
  rcases cases_of_readPrimary h with ⟨hheight, hsuffix⟩ |
    ⟨name, nodes, gap, rfl, hsuffix, harguments⟩ | ⟨start, after, hsuffix, hinside, hclosing⟩
  · exact .leaf hheight hsuffix
  · cases left with
    | zero => exact absurd harguments (readArguments_ne_found _ _ _)
    | succ less =>
      exact .call hsuffix (takes_of_readArguments (hinner less (Nat.lt_succ_self _)) harguments)
  · cases left with
    | zero => cases hinside
    | succ less =>
      obtain ⟨length, hexpr⟩ := hinner less (Nat.lt_succ_self _) _ _ _ hinside
      exact .parenthesized hsuffix hexpr hclosing

/-- A chain goes on with the calls that are read after it. -/
theorem takes_of_readChain {length : Nat} {target node : Node} {start cs rest : List Char}
    (h : readChain (readExpr left) left target cs = .found node rest)
    (htarget : Takes (length + left) (.chain length target) start cs) :
    ∃ length', Takes (length + left) (.chain length' node) start rest := by
  induction left generalizing length target cs with
  | zero =>
    rw [readChain] at h
    split at h
    · obtain ⟨rfl, rfl⟩ := Reply.found.inj h
      exact ⟨length, htarget⟩
    · cases h
    · cases h
  | succ left ih =>
    rw [readChain] at h
    split at h
    · obtain ⟨rfl, rfl⟩ := Reply.found.inj h
      exact ⟨length, htarget⟩
    · cases h
    · next name arguments after hmethod =>
      obtain ⟨dot, gap, hskip, hname, harguments⟩ := cases_of_readMethod hmethod
      have hpoint : (skip cs).head? = some '.' := by rw [hskip, List.head?_cons]
      have hword := (List.suffix_cons '.' dot).trans (hskip ▸ skip_suffix cs)
      have hgap := (skip_suffix gap).trans (hname.suffix.trans ((skip_suffix dot).trans hword))
      have hnodes := takes_of_readArguments (hinner left (Nat.lt_succ_self _)) harguments
      have hlevels : length + left + 1 = length + 1 + left := Nat.add_right_comm _ _ _
      have hnext : Takes (length + left + 1)
          (.chain (length + 1) (.method target name arguments)) start after :=
        .method htarget hpoint hgap hnodes
      rw [← Nat.add_assoc, hlevels]
      rw [hlevels] at hnext
      exact ih (fun less hless => hinner less (Nat.lt_succ_of_lt hless)) h hnext

end Readers

/-- An expression that is read is taken with the levels that are left for what is in it. -/
theorem takesWithin_readExpr (left : Nat) : TakesWithin left (readExpr (left + 1)) := by
  induction left using Nat.strong_induction_on with
  | h left hinner =>
    intro cs node rest h
    rw [readExpr] at h
    obtain ⟨primary, between, hprimary, h⟩ := Reply.andThen_eq_found.mp h
    have htakes : Takes (0 + left) (.chain 0 primary) cs between := by
      rw [Nat.zero_add]
      exact .primary (takes_of_readPrimary hinner hprimary)
    have hchain := takes_of_readChain hinner h htakes
    rwa [Nat.zero_add] at hchain

/-! ### Heights of what is read -/

/-- What is taken leaves a suffix. -/
theorem Takes.suffix {levels : Nat} {part : Part} {cs rest : List Char}
    (h : Takes levels part cs rest) : rest <:+ cs := by
  induction h with
  | leaf _ hsuffix => exact hsuffix
  | call hsuffix _ ih => exact ih.trans hsuffix
  | parenthesized hsuffix _ hclosing ih | arguments hsuffix _ hclosing ih =>
    exact ((List.suffix_cons ')' _).trans hclosing).trans (ih.trans hsuffix)
  | primary _ ih => exact ih
  | method _ _ hsuffix _ ih hlast => exact (hlast.trans hsuffix).trans ih
  | done => exact List.suffix_rfl
  | next hsuffix _ _ ih hlast => exact hlast.trans (ih.trans hsuffix)

/-- Arguments end with a closing parenthesis. -/
theorem Takes.closing_suffix {levels : Nat} {nodes : List Node} {cs rest : List Char}
    (h : Takes levels (.arguments nodes) cs rest) : ')' :: rest <:+ cs := by
  cases h with
  | arguments hsuffix h hclosing => exact hclosing.trans (h.suffix.trans hsuffix)

/-- The part leaves room in the height of all levels for the calls that may still follow. -/
def Part.LeavesRoom (levels : Nat) : Part → Prop
  | .primary node => node.height + levels ≤ maxHeight levels
  | .chain length node => node.height + (levels - length) ≤ maxHeight levels
  | .more nodes | .arguments nodes => Node.listHeight nodes ≤ maxHeight levels

/-- What is taken leaves room. -/
theorem Takes.leavesRoom {levels : Nat} {part : Part} {cs rest : List Char}
    (h : Takes levels part cs rest) : part.LeavesRoom levels := by
  induction h with
  | @leaf levels node cs rest hheight =>
    have hroom := le_maxHeight levels
    simp only [Part.LeavesRoom]
    omega
  | call _ _ ih =>
    simp only [Part.LeavesRoom, Node.height, maxHeight_succ] at ih ⊢
    omega
  | parenthesized _ _ _ ih =>
    simp only [Part.LeavesRoom, maxHeight_succ] at ih ⊢
    omega
  | primary _ ih => exact ih
  | @method length inner _ _ _ _ _ _ _ _ _ _ _ ih hlast =>
    -- A call makes its target higher by one and takes one of the levels.
    have hmono : maxHeight inner + inner + 2 ≤ maxHeight (length + inner + 1) := by
      rw [← maxHeight_succ]
      exact maxHeight_mono (by omega)
    simp only [Part.LeavesRoom, Node.height] at ih hlast ⊢
    omega
  | done => exact Nat.zero_le _
  | next _ _ _ ih hlast =>
    simp only [Part.LeavesRoom, Node.listHeight] at ih hlast ⊢
    omega
  | arguments _ _ _ ih => exact ih

/-- The part is not above its levels and the calls after closing parentheses. It ends with such a
parenthesis if it has any height, and a call after that would be one more. -/
def Part.IsWithin (levels : Nat) (cs rest : List Char) : Part → Prop
  | .primary node | .chain _ node =>
    node.height = 0 ∨ node.height + chained (')' :: rest) ≤ levels + chained cs
  | .more nodes => Node.listHeight nodes + chained rest ≤ levels + chained cs
  | .arguments nodes => Node.listHeight nodes + chained (')' :: rest) ≤ levels + chained cs

/-- What is taken is not above its levels and the calls after closing parentheses. -/
theorem Takes.isWithin {levels : Nat} {part : Part} {cs rest : List Char}
    (h : Takes levels part cs rest) : part.IsWithin levels cs rest := by
  induction h with
  | leaf hheight => exact .inl hheight
  | call hsuffix _ ih =>
    have hle := chained_le_of_suffix hsuffix
    simp only [Part.IsWithin, Node.height] at ih ⊢
    omega
  | @parenthesized _ _ _ _ _ after rest hsuffix _ hclosing ih =>
    have hle := chained_le_of_suffix hsuffix
    have hafter := chained_le_of_suffix hclosing
    have hmore := chained_le_of_suffix (List.suffix_cons ')' after)
    simp only [Part.IsWithin] at ih ⊢
    omega
  | primary _ ih => exact ih
  | @method _ _ _ _ _ _ before _ rest h hpoint hsuffix harguments ih hlast =>
    -- A target of some height ends with a parenthesis, so the call after it counts.
    have hbefore := chained_closing hpoint
    have hle := chained_le_of_suffix h.suffix
    have hgap := chained_le_of_suffix hsuffix
    have hrest := chained_le_of_suffix harguments.closing_suffix
    simp only [Part.IsWithin, Node.height] at ih hlast ⊢
    omega
  | done => exact Nat.add_le_add_right (Nat.zero_le _) _
  | @next _ _ _ _ _ _ more rest hsuffix h hmore ih hlast =>
    have hle := chained_le_of_suffix hsuffix
    have hfirst := chained_le_of_suffix h.suffix
    have hrest := chained_le_of_suffix hmore.suffix
    have hclosing := chained_le_of_suffix (List.suffix_cons ')' more)
    simp only [Part.IsWithin, Node.listHeight] at ih hlast ⊢
    omega
  | @arguments _ _ _ _ _ rest hsuffix _ hclosing ih =>
    have hle := chained_le_of_suffix hsuffix
    have hafter := chained_le_of_suffix hclosing
    simp only [Part.IsWithin] at ih ⊢
    omega

/-- An expression that is read is above neither the height of its levels nor the number of these and
of calls after closing parentheses. -/
theorem height_of_readExpr {left : Nat} {cs rest : List Char} {node : Node}
    (h : readExpr (left + 1) cs = .found node rest) :
    node.height ≤ maxHeight left ∧ node.height + chained rest ≤ left + chained cs := by
  obtain ⟨length, htakes⟩ := takesWithin_readExpr left _ _ _ h
  have hroom : node.height + (left - length) ≤ maxHeight left := htakes.leavesRoom
  have hwithin : node.height = 0 ∨ node.height + chained (')' :: rest) ≤ left + chained cs :=
    htakes.isWithin
  have hsuffix := chained_le_of_suffix htakes.suffix
  have hclosing := chained_le_of_suffix (List.suffix_cons ')' rest)
  omega

/-! ### Scripts -/

/-- The expression is read somewhere in the characters. -/
def IsReadIn (levels : Nat) (cs : List Char) (node : Node) : Prop :=
  ∃ start after, start <:+ cs ∧ readExpr levels start = .found node after

/-- An expression that is read somewhere in what is left is read in the characters. -/
theorem IsReadIn.of_suffix {levels : Nat} {cs rest : List Char} {node : Node}
    (h : IsReadIn levels rest node) (hsuffix : rest <:+ cs) : IsReadIn levels cs node := by
  obtain ⟨start, after, hstart, hread⟩ := h
  exact ⟨start, after, hstart.trans hsuffix, hread⟩

/-- A binding that is read leaves a suffix, and its expression is read before that. -/
theorem isReadIn_of_readBindingAt {levels : Nat} {cs rest : List Char} {binding : Binding}
    (hread : readBindingAt levels cs = .found binding rest) :
    rest <:+ cs ∧ IsReadIn levels cs binding.value := by
  obtain ⟨_, gap, hkeyword, h⟩ := Reply.andThen_eq_found.mp hread
  have hgap : gap <:+ cs := by
    rcases Reply.orElse_eq_found.mp hkeyword with hconst | ⟨_, -, hlet⟩
    · exact (derivesName_of_readKeyword hconst).suffix
    · exact (derivesName_of_readKeyword hlet).suffix
  obtain ⟨name, before, hname, h⟩ := Reply.andThen_eq_found.mp (Reply.required_eq_found.mp h)
  obtain ⟨_, start, hequals, h⟩ := Reply.andThen_eq_found.mp h
  obtain ⟨value, between, hvalue, h⟩ := Reply.andThen_eq_found.mp h
  obtain ⟨_, hsemicolon, rfl⟩ := Reply.map_eq_found.mp h
  have hbefore := (derivesName_of_readName hname).suffix.trans ((skip_suffix gap).trans hgap)
  have hstart := (suffix_of_readSeparator hequals).trans hbefore
  have hbetween := ((takesExpr_readExpr levels).1 _ _ _ hvalue).suffix
  exact ⟨(suffix_of_readSeparator hsemicolon).trans (hbetween.trans hstart),
    start, between, hstart, hvalue⟩

/-- Bindings that are read leave a suffix, and their expressions are read before that. -/
theorem isReadIn_of_readMany {levels bound : Nat} {cs rest : List Char} {bindings : List Binding}
    (h : readMany (readBindingAt levels) bound cs = .found bindings rest) :
    rest <:+ cs ∧ ∀ binding ∈ bindings, IsReadIn levels cs binding.value := by
  refine readMany_induction (P := fun bindings cs rest =>
    rest <:+ cs ∧ ∀ binding ∈ bindings, IsReadIn levels cs binding.value)
    (fun _ => ⟨List.suffix_rfl, List.forall_mem_nil _⟩) ?_ h
  rintro binding bindings cs between rest hbinding ⟨hrest, hvalues⟩
  obtain ⟨hbetween, hvalue⟩ := isReadIn_of_readBindingAt hbinding
  refine ⟨hrest.trans hbetween, List.forall_mem_cons.mpr ⟨hvalue, ?_⟩⟩
  exact fun next hnext => (hvalues next hnext).of_suffix hbetween

/-- The trees of a script that is read are read somewhere in its characters. -/
theorem isReadIn_of_readScriptAt {levels : Nat} {cs rest : List Char} {script : Script}
    (h : readScriptAt levels cs = .found script rest) :
    ∀ node ∈ script.trees, IsReadIn levels cs node := by
  obtain ⟨bindings, before, hbindings, h⟩ := Reply.andThen_eq_found.mp h
  obtain ⟨body, last, hbody, h⟩ := Reply.andThen_eq_found.mp h
  split at h
  · obtain ⟨rfl, -⟩ := Reply.found.inj h
    obtain ⟨hbefore, hvalues⟩ := isReadIn_of_readMany hbindings
    have hexpr := (derivesReturn_skipReturn before).suffix.trans (hbefore.trans (skip_suffix cs))
    rw [trees, List.forall_mem_append, List.forall_mem_map, List.forall_mem_singleton]
    exact ⟨fun binding hbinding => (hvalues binding hbinding).of_suffix (skip_suffix cs),
      _, last, hexpr, hbody⟩
  · cases h

/-- The text is read to the script with so many levels of nesting. -/
def ReadsWithin (levels : Nat) (text : String) (script : Script) : Prop :=
  ∃ rest, readScriptAt (levels + 1) text.toList = .found script rest

/-- An accepted text is read with all levels. -/
theorem readsWithin_of_ofText {text : String} {script : Script} (h : ofText text = .ok script) :
    ReadsWithin maxDepth text script :=
  ofText_eq_ok.mp h

/-- Trees are above neither the height of the levels that they are read with, nor the number of
these and of the calls after closing parentheses. -/
theorem ReadsWithin.height_le {levels : Nat} {text : String} {script : Script}
    (h : ReadsWithin levels text script) :
    ∀ node ∈ script.trees,
      node.height ≤ maxHeight levels ∧ node.height ≤ levels + chained text.toList := by
  intro node hnode
  obtain ⟨rest, hread⟩ := h
  obtain ⟨start, after, hstart, hexpr⟩ := isReadIn_of_readScriptAt hread node hnode
  obtain ⟨hheight, hchained⟩ := height_of_readExpr hexpr
  have hsuffix := chained_le_of_suffix hstart
  exact ⟨hheight, by omega⟩

end Script

/-! ### The highest expressions -/

namespace Node

/-- The expression with so many method calls after it. -/
def calledTimes (node : Node) : Nat → Node
  | 0 => node
  | count + 1 => .method (node.calledTimes count) "g" []

/-- A highest expression with so many levels: each level is a call around the one below and as many
method calls as there are levels. -/
def tower : Nat → Node
  | 0 => .name "x"
  | levels + 1 => (Node.call "f" [tower levels]).calledTimes (levels + 1)

/-- Every call after an expression makes it higher by one. -/
theorem height_calledTimes (node : Node) (count : Nat) :
    (node.calledTimes count).height = node.height + count := by
  induction count with
  | zero => rfl
  | succ count ih => simp [calledTimes, height, listHeight, ih, Nat.add_assoc]

/-- Calls after an expression that ends with none nest as deep as there are of them. -/
theorem depth_calledTimes {node : Node} (h : node.chain = 0) (count : Nat) :
    (node.calledTimes count).chain = count ∧
      (node.calledTimes count).depth = max node.depth count := by
  induction count with
  | zero => exact ⟨h, (Nat.max_zero _).symm⟩
  | succ count ih =>
    rw [calledTimes, chain, depth, ih.1, ih.2, listDepth]
    omega

/-- Calls after a legal expression are legal. -/
theorem Legal.calledTimes {node : Node} (h : node.Legal) (count : Nat) :
    (node.calledTimes count).Legal := by
  induction count with
  | zero => exact h
  | succ count ih => exact ⟨ih, by decide, trivial⟩

/-- A tower is as high as an expression can be with its levels. -/
theorem height_tower (levels : Nat) : (tower levels).height = Script.maxHeight levels := by
  induction levels with
  | zero => rfl
  | succ levels ih =>
    rw [tower, height_calledTimes, height, listHeight, listHeight, ih, Script.maxHeight_succ]
    omega

/-- A tower nests as deep as it has levels. -/
theorem depth_tower (levels : Nat) : (tower levels).depth = levels := by
  induction levels with
  | zero => rfl
  | succ levels ih =>
    rw [tower, (depth_calledTimes rfl _).2, depth, listDepth, listDepth, ih]
    omega

/-- A tower is legal. -/
theorem legal_tower (levels : Nat) : (tower levels).Legal := by
  induction levels with
  | zero => exact ⟨by decide, by decide, by decide⟩
  | succ levels ih =>
    have hcall : (Node.call "f" [tower levels]).Legal := ⟨by decide, ih, trivial⟩
    exact hcall.calledTimes (levels + 1)

/-- A call around so many method calls, with one more method call after it. -/
def aroundCalls (count : Nat) : Node :=
  .method (.call "f" [(name "x").calledTimes count]) "g" []

/-- Its text. -/
def aroundText (count : Nat) : String :=
  String.ofList ("f(x".toList ++ ((List.replicate count ".g()".toList).flatten ++ ").g()".toList))

/-- All the calls make it higher. -/
theorem height_aroundCalls (count : Nat) : (aroundCalls count).height = count + 2 := by
  simp [aroundCalls, height, listHeight, height_calledTimes]

/-- The last call does not nest with those between the parentheses. -/
theorem depth_aroundCalls (count : Nat) : (aroundCalls count).depth = count + 1 := by
  have hinside := (depth_calledTimes (rfl : (name "x").chain = 0) count).2
  simp [aroundCalls, depth, chain, listDepth, hinside]

/-- Calls after an expression are written behind it. -/
theorem IsWritten.calledTimes {node : Node} {cs : List Char} (h : node.IsWritten cs) (count : Nat) :
    (node.calledTimes count).IsWritten (cs ++ (List.replicate count ".g()".toList).flatten) := by
  induction count with
  | zero => simpa [Node.calledTimes] using h
  | succ count ih =>
    have hname : Text.isBareName "g".toList = true := by decide
    have hcall := ih.method .nil hname .nil
    rw [List.replicate_succ', List.flatten_append, ← List.append_assoc]
    exact hcall

end Node

namespace Script

/-- A tree of an accepted script is not above the height of all levels. It is not above their number
if the levels that the text takes and its calls after closing parentheses are no more than that, or
if the text takes so few levels that their height is not. -/
theorem height_of_ofText {text : String} {script : Script} (h : ofText text = .ok script)
    {levels : Nat} (hlevels : ReadsWithin levels text script) {node : Node}
    (hnode : node ∈ script.trees) :
    node.height ≤ maxDepth * (maxDepth + 3) / 2 ∧
      (levels + chained text.toList ≤ maxDepth ∨ levels * (levels + 3) / 2 ≤ maxDepth →
        node.height ≤ maxDepth) := by
  have hall := ((readsWithin_of_ofText h).height_le node hnode).1
  obtain ⟨hheight, hchained⟩ := hlevels.height_le node hnode
  refine ⟨hall, ?_⟩
  rintro (hfew | hlow)
  · exact Nat.le_trans hchained hfew
  · exact Nat.le_trans hheight hlow

/-- There is an accepted script whose tree is as high as all levels allow. -/
theorem exists_height_eq_maxHeight :
    ∃ text script, ofText text = .ok script ∧
      script.body.height = maxDepth * (maxDepth + 3) / 2 := by
  let script : Script := ⟨[], Node.tower maxDepth⟩
  have hlegal : script.Legal := ⟨nofun, nofun, Node.legal_tower maxDepth⟩
  obtain ⟨cs, hcs⟩ := hlegal.exists_writesScript
  have hdepth : script.depth = maxDepth := by
    simp only [script, depth, bindingsDepth, Node.depth_tower, Nat.zero_max]
  rw [hdepth, ← String.toList_ofList (l := cs)] at hcs
  exact ⟨_, script, (ofText_of_writesScript hcs).1 (Nat.le_refl _), Node.height_tower maxDepth⟩

/-- Where the calls nest no deeper than is read, a call around them is accepted, with one more call
after it. -/
theorem ofText_aroundText {count : Nat} (h : count < maxDepth) :
    ofText (Node.aroundText count) = .ok ⟨[], .aroundCalls count⟩ := by
  rw [Node.aroundText]
  generalize hcalls : (List.replicate count ".g()".toList).flatten = calls
  have hx : (Node.name "x").IsWritten "x".toList := Node.isWritten_name (by decide) (by decide)
  have hinside := hx.calledTimes count
  rw [hcalls, ← String.toList_ofList (l := "x".toList ++ calls)] at hinside
  have hcall := Node.isWritten_call (by decide : IsFreeName "f") (.cons hinside .nil)
  have hname : Text.isBareName "g".toList = true := by decide
  have htext : (Node.aroundCalls count).IsWritten
      ("f(x".toList ++ (calls ++ ").g()".toList)) := by
    simpa [Node.aroundCalls] using hcall.method .nil hname .nil
  have hword : leadingName ("f(x".toList ++ (calls ++ ").g()".toList)) = "f" := rfl
  have hscript := WritesScript.mk .nil .nil (.none (by rw [hword]; decide)) htext
    (.bare (.closed .nil))
  simp only [List.nil_append, List.append_nil] at hscript
  rw [← String.toList_ofList (l := "f(x".toList ++ _)] at hscript
  refine (ofText_of_writesScript hscript).1 ?_
  rw [Node.depth_aroundCalls, Nat.zero_max]
  exact h

/-- A call around 255 method calls, with one more method call after it, is accepted, although it is
257 calls high. Around one method call it is read with two levels. With the call after the closing
parenthesis these are three, and it is no higher than the depth. -/
theorem height_of_ofText_calls :
    (ofText (Node.aroundText 255) = .ok ⟨[], .aroundCalls 255⟩ ∧
      maxDepth < (Node.aroundCalls 255).height ∧
      (Node.aroundCalls 255).height ≤ maxDepth * (maxDepth + 3) / 2) ∧
    ofText "f(x.g()).g()" = .ok ⟨[], .aroundCalls 1⟩ ∧
      ReadsWithin 2 "f(x.g()).g()" ⟨[], .aroundCalls 1⟩ ∧
      2 + chained "f(x.g()).g()".toList ≤ maxDepth ∧
      (Node.aroundCalls 1).height ≤ maxDepth := by
  have hmany := ofText_aroundText (by decide : 255 < maxDepth)
  have hall := height_of_ofText hmany (readsWithin_of_ofText hmany) (List.mem_singleton_self _)
  have hfew : ofText "f(x.g()).g()" = .ok ⟨[], .aroundCalls 1⟩ := rfl
  have hlevels : ReadsWithin 2 "f(x.g()).g()" ⟨[], .aroundCalls 1⟩ := ⟨[], rfl⟩
  have hsum : 2 + chained "f(x.g()).g()".toList ≤ maxDepth := by decide
  have hlow := height_of_ofText hfew hlevels (List.mem_singleton_self _)
  refine ⟨⟨hmany, ?_, hall.1⟩, hfew, hlevels, hsum, hlow.2 (.inl hsum)⟩
  rw [Node.height_aroundCalls]
  decide

end Script

end FluentSql
