import FluentSql.Proofs.Script.Derivation
import FluentSql.Proofs.Script.Token

/-!
# Accepted scripts are derived

Every reader takes only what its rule of the grammar derives, and gives the tree of that derivation.
There is one exception: where arguments are read, a comma alone passes for none. So an accepted
script is derived by the grammar with that exception. What is left after any part of it is a suffix.
-/

namespace FluentSql

namespace Script

/-! ### Blanks and words -/

mutual

/-- What is skipped is blank. -/
theorem skips_skip (cs : List Char) : Skips cs (skip cs) := by
  cases cs with
  | nil => exact .done []
  | cons c cs =>
    rw [skip_cons]
    split
    · next hspace => exact .space hspace (skips_skip cs)
    · split
      · next hslash =>
        subst hslash
        match cs with
        | [] => exact .done _
        | d :: ds =>
          dsimp only
          split
          · next hslash =>
            subst hslash
            exact skips_skipComment [] ds nofun
          · exact .done _
      · exact .done _

/-- What is skipped of a comment whose first characters are `text` is blank. -/
theorem skips_skipComment (text cs : List Char) (htext : ∀ c ∈ text, c ≠ '\n' ∧ c ≠ '\r') :
    Skips ('/' :: '/' :: (text ++ cs)) (skipComment ('/' :: '/' :: (text ++ cs)) cs) := by
  cases cs with
  | nil => exact .comment htext (.inl rfl) (.done [])
  | cons c cs =>
    rw [skipComment_cons]
    split
    · next hfeed =>
      subst hfeed
      exact .comment htext (.inr ⟨cs, .inl rfl⟩) (.space rfl (skips_skip cs))
    · next hfeed =>
      split
      · next hreturn =>
        subst hreturn
        match cs with
        | [] => exact .done _
        | d :: ds =>
          dsimp only
          split
          · next hfeed =>
            subst hfeed
            exact .comment htext (.inr ⟨ds, .inr rfl⟩) (.space rfl (.space rfl (skips_skip ds)))
          · exact .done _
      · next hreturn =>
        have hmore : ∀ d ∈ text ++ [c], d ≠ '\n' ∧ d ≠ '\r' := by
          intro d hd
          rcases List.mem_append.mp hd with hd | hd
          · exact htext d hd
          · rw [List.mem_singleton.mp hd]
            exact ⟨hfeed, hreturn⟩
        have h := skips_skipComment (text ++ [c]) cs hmore
        rwa [List.append_assoc, List.singleton_append] at h

end

/-- A name that is read is a whole name. -/
theorem derivesName_of_readName {cs rest : List Char} {name : String}
    (h : readName cs = .found name rest) : DerivesName name cs rest := by
  cases cs with
  | nil => cases h
  | cons c cs =>
    rw [readName] at h
    split at h
    · next hstart =>
      obtain ⟨rfl, rfl⟩ := Reply.found.inj h
      have hsplit : c :: cs =
          (String.ofList (c :: cs.takeWhile Text.isNameChar)).toList ++
            cs.dropWhile Text.isNameChar := by
        rw [String.toList_ofList, List.cons_append, List.takeWhile_append_dropWhile]
      rw [hsplit]
      constructor
      · simp [Text.isBareName, hstart, List.all_takeWhile]
      · intro d hd
        have hnot := List.head?_dropWhile_not Text.isNameChar cs
        rw [Option.mem_def.mp hd] at hnot
        simpa using hnot
    · cases h

/-- A keyword that is read is a whole name. -/
theorem derivesName_of_readKeyword {cs rest : List Char} {word : String} {u : Unit}
    (h : readKeyword word cs = .found u rest) : DerivesName word cs rest := by
  rw [readKeyword] at h
  split at h
  · next name after hname =>
    split at h
    · next heq =>
      obtain ⟨-, rfl⟩ := Reply.found.inj h
      exact heq ▸ derivesName_of_readName hname
    · cases h
  · cases h

/-- A separator is taken with blanks around it. -/
theorem skips_of_readSeparator {c : Char} {cs rest : List Char} {u : Unit}
    (h : readSeparator c cs = .found u rest) :
    ∃ after, Skips cs (c :: after) ∧ Skips after rest := by
  obtain ⟨_, after, hchar, hrest⟩ := Reply.andThen_eq_found.mp h
  obtain ⟨-, rfl⟩ := Reply.found.inj hrest
  rw [readChar_eq_found] at hchar
  exact ⟨after, hchar ▸ skips_skip cs, skips_skip after⟩

/-- What is read between quotes was written there. -/
theorem exists_writesText_of_unquote {quote : Char} {cs text rest : List Char}
    (h : Text.unquote quote cs = some (text, rest)) :
    ∃ written, WritesText quote text written ∧ cs = written ++ quote :: rest := by
  fun_induction Text.unquote quote cs generalizing text rest with
  | case1 => cases h
  | case2 => cases h
  | case3 c cs ih =>
    obtain ⟨⟨inner, after⟩, hinner, heq⟩ := Option.map_eq_some_iff.mp h
    obtain ⟨rfl, rfl⟩ := Prod.mk.inj heq
    obtain ⟨written, hwritten, rfl⟩ := ih hinner
    exact ⟨'\\' :: c :: written, .marked hwritten, rfl⟩
  | case4 cs =>
    obtain ⟨rfl, rfl⟩ := Prod.mk.inj (Option.some.inj h)
    exact ⟨[], .nil, rfl⟩
  | case5 c cs hlast hmarked hquote ih =>
    obtain ⟨⟨inner, after⟩, hinner, heq⟩ := Option.map_eq_some_iff.mp h
    obtain ⟨rfl, rfl⟩ := Prod.mk.inj heq
    obtain ⟨written, hwritten, rfl⟩ := ih hinner
    have hslash : c ≠ '\\' := by
      intro hc
      obtain ⟨d, ds, hcons⟩ := List.exists_cons_of_ne_nil
        (List.append_ne_nil_of_right_ne_nil written (List.cons_ne_nil quote after))
      exact hmarked d ds hc hcons
    exact ⟨c :: written, .plain hslash hquote hwritten, rfl⟩

/-- What follows a closing quote is a suffix. -/
theorem unquote_suffix {quote : Char} {cs text rest : List Char}
    (h : Text.unquote quote cs = some (text, rest)) : rest <:+ cs := by
  obtain ⟨written, -, rfl⟩ := exists_writesText_of_unquote h
  exact (List.suffix_cons quote rest).trans (List.suffix_append written _)

/-! ### Primaries -/

/-- A quoted text that is read was written. -/
theorem exists_writesText_of_readQuoted {quote : Char} {cs rest : List Char} {value : String}
    (h : readQuoted quote cs = .found value rest) :
    ∃ written, WritesText quote value.toList written ∧
      cs = quote :: (written ++ quote :: rest) := by
  cases cs with
  | nil => cases h
  | cons c cs =>
    rw [readQuoted] at h
    split at h
    · next hquote =>
      split at h
      · next text after hunquote =>
        obtain ⟨rfl, rfl⟩ := Reply.found.inj h
        obtain ⟨written, hwritten, rfl⟩ := exists_writesText_of_unquote hunquote
        exact ⟨written, by rwa [String.toList_ofList], by rw [hquote]⟩
      · cases h
    · cases h

/-- A string that is read is a primary. -/
theorem derives_of_readString {cs rest : List Char} {node : Node}
    (h : readString cs = .found node rest) : Derives True (.primary node) cs rest := by
  obtain ⟨value, hvalue, rfl⟩ := Reply.map_eq_found.mp h
  rcases Reply.orElse_eq_found.mp hvalue with hdouble | ⟨_, -, hsingle⟩
  · obtain ⟨written, hwritten, rfl⟩ := exists_writesText_of_readQuoted hdouble
    exact .string (.inl rfl) hwritten
  · obtain ⟨written, hwritten, rfl⟩ := exists_writesText_of_readQuoted hsingle
    exact .string (.inr rfl) hwritten

/-- An infinity that is read is a number. -/
theorem derivesNumber_of_readInfinity {cs rest : List Char} {node : Node}
    (h : readInfinity cs = .found node rest) : DerivesNumber node cs rest := by
  unfold readInfinity at h
  split at h
  · obtain ⟨_, hword, rfl⟩ := Reply.map_eq_found.mp h
    exact .negativeInfinity (derivesName_of_readKeyword hword)
  · obtain ⟨_, hword, rfl⟩ := Reply.map_eq_found.mp h
    exact .infinity (derivesName_of_readKeyword hword)

/-- A numeral that is read is a number. -/
theorem derivesNumber_of_readNumeral {cs rest : List Char} {node : Node}
    (h : readNumeral cs = .found node rest) : DerivesNumber node cs rest := by
  unfold readNumeral at h
  split at h
  · cases h
  · next n after hscan =>
    obtain ⟨written, hwritten, rfl⟩ := Numeral.eq_append_of_scan hscan
    split at h
    · next hinteger =>
      split at h
      · next value hvalue =>
        obtain ⟨rfl, rfl⟩ := Reply.found.inj h
        exact .integer hwritten hinteger hvalue
      · cases h
    · next hinteger =>
      obtain ⟨rfl, rfl⟩ := Reply.found.inj h
      exact .float hwritten (by simpa using hinteger)

/-- A number that is read is a number of the grammar. -/
theorem derivesNumber_of_readNumber {cs rest : List Char} {node : Node}
    (h : readNumber cs = .found node rest) : DerivesNumber node cs rest := by
  rcases Reply.orElse_eq_found.mp h with h | ⟨_, -, h⟩
  · rcases Reply.orElse_eq_found.mp h with h | ⟨_, -, h⟩
    · obtain ⟨_, hword, rfl⟩ := Reply.map_eq_found.mp h
      exact .nan (derivesName_of_readKeyword hword)
    · exact derivesNumber_of_readInfinity h
  · exact derivesNumber_of_readNumeral h

/-- A name that is read where no number is stands for no number. -/
theorem isFreeName_of_readNumber_absent {cs stop rest : List Char} {name : String}
    (habsent : readNumber cs = .absent stop) (h : readName cs = .found name rest) :
    IsFreeName name := by
  have hderives := derivesName_of_readName h
  have hbare : Text.isBareName name.toList = true := by
    cases hderives
    assumption
  refine ⟨hbare, ?_, ?_⟩
  · rintro rfl
    have hkeyword : readKeyword "NaN" cs = .found () rest := by
      rw [readKeyword, h]
      exact if_pos rfl
    rw [readNumber, hkeyword] at habsent
    cases habsent
  · rintro rfl
    have hnan : readKeyword "NaN" cs = .absent cs := by
      rw [readKeyword, h]
      exact if_neg (by decide)
    have hkeyword : readKeyword "Infinity" cs = .found () rest := by
      rw [readKeyword, h]
      exact if_pos rfl
    have hinfinity : readInfinity cs =
        (readKeyword "Infinity" cs).map fun _ => .float (.infinite false) := by
      cases hderives
      rfl
    rw [readNumber, hnan, hinfinity, hkeyword] at habsent
    cases habsent

/-! ### Expressions -/

/-- What the reader takes is an expression of the grammar with the exception. -/
def TakesExpr (inner : Reader Node) : Prop :=
  ∀ cs node rest, inner cs = .found node rest → Derives True (.expr node) cs rest

section Inner

variable {inner : Reader Node} {cs rest : List Char}

/-- Expressions that are read after the first one have a comma before each. -/
theorem derives_of_readMany (hinner : TakesExpr inner) {bound : Nat} {nodes : List Node}
    (h : readMany (fun cs => (readSeparator ',' cs).andThen fun _ rest => inner rest) bound cs =
      .found nodes rest) : Derives True (.more nodes) cs rest := by
  refine readMany_induction (P := fun nodes => Derives True (.more nodes)) .done ?_ h
  intro node nodes cs between rest hnext hmore
  obtain ⟨_, expr, hseparator, hnode⟩ := Reply.andThen_eq_found.mp hnext
  obtain ⟨after, hbefore, hafter⟩ := skips_of_readSeparator hseparator
  exact .next hbefore hafter (hinner _ _ _ hnode) hmore

/-- A comma may stand between the last argument and the closing parenthesis. -/
theorem skips_of_skipComma (h : skipComma (skip cs) = ')' :: rest) :
    Skips cs (')' :: rest) ∨ ∃ gap, Skips cs (',' :: gap) ∧ Skips gap (')' :: rest) := by
  have hskip := skips_skip cs
  unfold skipComma at h
  split at h
  · next gap hcomma =>
    rw [hcomma] at hskip
    exact .inr ⟨gap, hskip, h ▸ skips_skip gap⟩
  · rw [h] at hskip
    exact .inl hskip

/-- Arguments that are read are arguments of the grammar with the exception. -/
theorem derives_of_readArguments (hinner : TakesExpr inner) {nodes : List Node}
    (hread : readArguments inner cs = .found nodes rest) :
    Derives True (.arguments nodes) cs rest := by
  obtain ⟨_, tail, hopening, h⟩ := Reply.andThen_eq_found.mp hread
  obtain rfl := readChar_eq_found.mp hopening
  obtain ⟨arguments, after, hlist, h⟩ := Reply.andThen_eq_found.mp h
  obtain ⟨_, hclosing, rfl⟩ := Reply.map_eq_found.mp (Reply.required_eq_found.mp h)
  have hend := skips_of_skipComma (readChar_eq_found.mp hclosing)
  have hbefore := skips_skip tail
  unfold readList at hlist
  split at hlist
  · obtain ⟨rfl, rfl⟩ := Reply.found.inj hlist
    rcases hend with hend | ⟨gap, hcomma, hgap⟩
    · exact .empty (hbefore.trans hend)
    · exact .comma trivial (hbefore.trans hcomma) hgap
  · cases hlist
  · next first between hfirst =>
    obtain ⟨more, hmore, rfl⟩ := Reply.map_eq_found.mp hlist
    have hexpr := hinner _ _ _ hfirst
    have hderives := derives_of_readMany hinner hmore
    rcases hend with hend | ⟨gap, hcomma, hgap⟩
    · exact .full hbefore hexpr hderives hend
    · exact .trailing hbefore hexpr hderives hcomma hgap

/-- A name that is read, with arguments or without them, is a primary. -/
theorem derives_of_readNameOrCall (hinner : TakesExpr inner) {node : Node}
    {stop : List Char} (hnumber : readNumber cs = .absent stop)
    (h : readNameOrCall inner cs = .found node rest) : Derives True (.primary node) cs rest := by
  obtain ⟨name, gap, hname, h⟩ := Reply.andThen_eq_found.mp h
  have hfree := isFreeName_of_readNumber_absent hnumber hname
  have hderives := derivesName_of_readName hname
  split at h
  · next arguments after harguments =>
    obtain ⟨rfl, rfl⟩ := Reply.found.inj h
    exact .call hderives hfree (skips_skip gap)
      (derives_of_readArguments hinner harguments)
  · obtain ⟨rfl, rfl⟩ := Reply.found.inj h
    exact .name hderives hfree
  · cases h

/-- An expression that is read in parentheses is a primary. -/
theorem derives_of_readParenthesized (hinner : TakesExpr inner) {node : Node}
    (hread : readParenthesized inner cs = .found node rest) :
    Derives True (.primary node) cs rest := by
  obtain ⟨_, tail, hopening, h⟩ := Reply.andThen_eq_found.mp hread
  obtain rfl := readChar_eq_found.mp hopening
  obtain ⟨inside, after, hinside, h⟩ := Reply.andThen_eq_found.mp (Reply.required_eq_found.mp h)
  obtain ⟨_, hclosing, rfl⟩ := Reply.map_eq_found.mp h
  have hafter := skips_skip after
  rw [readChar_eq_found.mp hclosing] at hafter
  exact .parenthesized (skips_skip tail) (hinner _ _ _ hinside) hafter

/-- A primary that is read is a primary of the grammar with the exception. -/
theorem derives_of_readPrimary (hinner : TakesExpr inner) {node : Node}
    (hread : readPrimary inner cs = .found node rest) : Derives True (.primary node) cs rest := by
  rcases Reply.orElse_eq_found.mp hread with h | ⟨_, -, h⟩
  · rcases Reply.orElse_eq_found.mp h with h | ⟨_, habsent, h⟩
    · rcases Reply.orElse_eq_found.mp h with h | ⟨_, -, h⟩
      · exact derives_of_readString h
      · exact .number (derivesNumber_of_readNumber h)
    · cases hstring : readString cs with
      | found => simp [hstring] at habsent
      | failed => simp [hstring] at habsent
      | absent =>
        rw [hstring, Reply.orElse_absent] at habsent
        exact derives_of_readNameOrCall hinner habsent h
  · exact derives_of_readParenthesized hinner h

/-- A method call that is read is a point, a name and arguments that are read in turn. -/
theorem cases_of_readMethod {name : String} {nodes : List Node}
    (h : readMethod inner cs = .found (name, nodes) rest) :
    ∃ after gap, skip cs = '.' :: after ∧ DerivesName name (skip after) gap ∧
      readArguments inner (skip gap) = .found nodes rest := by
  obtain ⟨_, word, hseparator, h⟩ := Reply.andThen_eq_found.mp h
  obtain ⟨_, after, hpoint, hword⟩ := Reply.andThen_eq_found.mp hseparator
  obtain ⟨-, rfl⟩ := Reply.found.inj hword
  obtain ⟨name, gap, hname, h⟩ := Reply.andThen_eq_found.mp (Reply.required_eq_found.mp h)
  obtain ⟨nodes, hnodes, heq⟩ := Reply.map_eq_found.mp h
  obtain ⟨rfl, rfl⟩ := Prod.mk.inj heq
  exact ⟨after, gap, readChar_eq_found.mp hpoint, derivesName_of_readName hname, hnodes⟩

end Inner

/-- An expression that is read, with any number of levels left, is an expression of the grammar with
the exception, and so is a target with the method calls that are read after it. -/
theorem takesExpr_readExpr (levels : Nat) :
    TakesExpr (readExpr levels) ∧
      ∀ target start cs node rest, readChain (readExpr levels) levels target cs = .found node rest →
        Derives True (.expr target) start cs → Derives True (.expr node) start rest := by
  induction levels with
  | zero =>
    refine ⟨nofun, ?_⟩
    intro target start cs node rest h htarget
    rw [readChain] at h
    split at h
    · obtain ⟨rfl, rfl⟩ := Reply.found.inj h
      exact htarget
    · cases h
    · cases h
  | succ left ih =>
    obtain ⟨hinner, hchain⟩ := ih
    have hexpr : TakesExpr (readExpr (left + 1)) := by
      intro cs node rest h
      rw [readExpr] at h
      obtain ⟨primary, between, hprimary, h⟩ := Reply.andThen_eq_found.mp h
      exact hchain _ _ _ _ _ h (.primary (derives_of_readPrimary hinner hprimary))
    refine ⟨hexpr, ?_⟩
    intro target start cs node rest h htarget
    rw [readChain] at h
    split at h
    · obtain ⟨rfl, rfl⟩ := Reply.found.inj h
      exact htarget
    · cases h
    · next name arguments after hmethod =>
      obtain ⟨dot, gap, hpoint, hname, harguments⟩ := cases_of_readMethod hmethod
      have hbefore : Skips cs ('.' :: dot) := hpoint ▸ skips_skip cs
      refine hchain _ _ _ _ _ h ?_
      exact .method htarget hbefore (skips_skip dot) hname (skips_skip gap)
        (derives_of_readArguments hexpr harguments)

/-- An expression that no other one contains is an expression of the grammar with the exception. -/
theorem takesExpr_readOuterExpr : TakesExpr readOuterExpr :=
  (takesExpr_readExpr (maxDepth + 1)).1

/-! ### Scripts -/

/-- A binding that is read is a binding of the grammar with the exception. -/
theorem derivesBinding_of_readBinding {cs rest : List Char} {binding : Binding}
    (hread : readBinding cs = .found binding rest) : DerivesBinding True binding cs rest := by
  obtain ⟨_, gap, hkeyword, h⟩ := Reply.andThen_eq_found.mp hread
  have hword : ∃ word, (word = "const" ∨ word = "let") ∧ DerivesName word cs gap := by
    rcases Reply.orElse_eq_found.mp hkeyword with hconst | ⟨_, -, hlet⟩
    · exact ⟨_, .inl rfl, derivesName_of_readKeyword hconst⟩
    · exact ⟨_, .inr rfl, derivesName_of_readKeyword hlet⟩
  obtain ⟨word, hword, hderives⟩ := hword
  obtain ⟨name, before, hname, h⟩ := Reply.andThen_eq_found.mp (Reply.required_eq_found.mp h)
  obtain ⟨_, expr, hequals, h⟩ := Reply.andThen_eq_found.mp h
  obtain ⟨value, between, hvalue, h⟩ := Reply.andThen_eq_found.mp h
  obtain ⟨_, hsemicolon, rfl⟩ := Reply.map_eq_found.mp h
  obtain ⟨after, hbefore, hafter⟩ := skips_of_readSeparator hequals
  obtain ⟨last, hbetween, hlast⟩ := skips_of_readSeparator hsemicolon
  exact .mk hword hderives (skips_skip gap) (derivesName_of_readName hname) hbefore hafter
    (takesExpr_readOuterExpr _ _ _ hvalue) hbetween hlast

/-- Bindings that are read are bindings of the grammar with the exception. -/
theorem derivesBindings_of_readMany {bound : Nat} {cs rest : List Char} {bindings : List Binding}
    (h : readMany readBinding bound cs = .found bindings rest) :
    DerivesBindings True bindings cs rest := by
  refine readMany_induction (P := DerivesBindings True) .done ?_ h
  intro binding bindings cs between rest hbinding hmore
  exact .next (derivesBinding_of_readBinding hbinding) hmore

/-- The word `return` is passed as a whole, with the blanks after it. -/
theorem derivesReturn_skipReturn (cs : List Char) : DerivesReturn cs (skipReturn cs) := by
  unfold skipReturn
  split
  · next rest hword => exact .word (derivesName_of_readKeyword hword) (skips_skip rest)
  · exact .none cs

/-- Where nothing is left after blanks and perhaps a semicolon, the script ends. -/
theorem derivesEnd_of_skip {cs : List Char} (h : skip (skipSemicolon (skip cs)) = []) :
    DerivesEnd cs := by
  have hskip := skips_skip cs
  unfold skipSemicolon at h
  split at h
  · next last hsemicolon =>
    rw [hsemicolon] at hskip
    exact .semicolon hskip (h ▸ skips_skip last)
  · exact .bare (hskip.trans (h ▸ skips_skip (skip cs)))

/-- A script that is read is a script of the grammar with the exception. -/
theorem derivesScript_of_readScript {cs rest : List Char} {script : Script}
    (hread : readScript cs = .found script rest) : DerivesScript True script cs := by
  obtain ⟨bindings, before, hbindings, h⟩ := Reply.andThen_eq_found.mp hread
  obtain ⟨body, last, hbody, h⟩ := Reply.andThen_eq_found.mp h
  split at h
  · next hend =>
    obtain ⟨rfl, -⟩ := Reply.found.inj h
    exact .mk (skips_skip cs) (derivesBindings_of_readMany hbindings)
      (derivesReturn_skipReturn before) (takesExpr_readOuterExpr _ _ _ hbody)
      (derivesEnd_of_skip hend)
  · cases h

/-- A text is accepted if a script is read from its characters. -/
theorem ofText_eq_ok {text : String} {script : Script} :
    ofText text = .ok script ↔ ∃ rest, readScript text.toList = .found script rest := by
  rw [ofText]
  dsimp only
  cases hread : readScript text.toList with
  | found read rest =>
    constructor
    · intro h
      exact ⟨rest, by rw [Except.ok.inj h]⟩
    · rintro ⟨_, h⟩
      rw [(Reply.found.inj h).1]
  | absent | failed => exact ⟨nofun, nofun⟩

/-! ### Suffixes -/

/-- Blanks leave a suffix. -/
theorem Skips.suffix {cs rest : List Char} (h : Skips cs rest) : rest <:+ cs := by
  induction h with
  | done => exact List.suffix_rfl
  | space _ _ ih => exact ih.trans (List.suffix_cons _ _)
  | @comment text cs rest _ _ _ ih =>
    exact ih.trans (List.suffix_append ('/' :: '/' :: text) cs)

/-- Skipping leaves a suffix. -/
theorem skip_suffix (cs : List Char) : skip cs <:+ cs :=
  (skips_skip cs).suffix

/-- A comma that is passed leaves a suffix. -/
theorem skipComma_suffix (cs : List Char) : skipComma (skip cs) <:+ cs := by
  unfold skipComma
  split
  · next rest hcomma =>
    exact (skip_suffix rest).trans ((List.suffix_cons ',' rest).trans (hcomma ▸ skip_suffix cs))
  · exact skip_suffix cs

/-- Blanks and a mark leave a suffix. -/
theorem Skips.mark_suffix {cs rest : List Char} {c : Char} (h : Skips cs (c :: rest)) :
    rest <:+ cs :=
  (List.suffix_cons c rest).trans h.suffix

/-- A name leaves a suffix. -/
theorem DerivesName.suffix {name : String} {cs rest : List Char} (h : DerivesName name cs rest) :
    rest <:+ cs := by
  cases h with
  | mk => exact List.suffix_append _ _

/-- A number leaves a suffix. -/
theorem DerivesNumber.suffix {node : Node} {cs rest : List Char}
    (h : DerivesNumber node cs rest) : rest <:+ cs := by
  cases h with
  | nan h | infinity h => exact h.suffix
  | negativeInfinity h => exact h.suffix.trans (List.suffix_cons _ _)
  | integer | float => exact List.suffix_append _ _

/-- A part of an expression leaves a suffix. -/
theorem Derives.suffix {lone : Prop} {phrase : Phrase} {cs rest : List Char}
    (h : Derives lone phrase cs rest) : rest <:+ cs := by
  induction h with
  | @string quote value cs rest => exact ⟨quote :: (cs ++ [quote]), by simp⟩
  | number h => exact h.suffix
  | name hname => exact hname.suffix
  | call hname _ hgap _ ih => exact ih.trans (hgap.suffix.trans hname.suffix)
  | parenthesized hbefore _ hafter ih =>
    exact hafter.mark_suffix.trans (ih.trans (hbefore.suffix.trans (List.suffix_cons '(' _)))
  | primary _ ih => exact ih
  | method _ hbefore hafter hname hgap _ ih iharguments =>
    have hword := hafter.suffix.trans (hbefore.mark_suffix.trans ih)
    exact iharguments.trans (hgap.suffix.trans (hname.suffix.trans hword))
  | done => exact List.suffix_rfl
  | next hbefore hafter _ _ ih ihmore =>
    exact ihmore.trans (ih.trans (hafter.suffix.trans hbefore.mark_suffix))
  | empty hgap => exact hgap.mark_suffix.trans (List.suffix_cons '(' _)
  | full hbefore _ _ hafter ih ihmore =>
    have hfirst := hbefore.suffix.trans (List.suffix_cons '(' _)
    exact hafter.mark_suffix.trans (ihmore.trans (ih.trans hfirst))
  | trailing hbefore _ _ hafter hgap ih ihmore =>
    have hfirst := hbefore.suffix.trans (List.suffix_cons '(' _)
    have hcomma := hafter.mark_suffix.trans (ihmore.trans (ih.trans hfirst))
    exact hgap.mark_suffix.trans hcomma
  | comma _ hbefore hgap =>
    exact hgap.mark_suffix.trans (hbefore.mark_suffix.trans (List.suffix_cons '(' _))

/-- Perhaps the word `return` leaves a suffix. -/
theorem DerivesReturn.suffix {cs rest : List Char} (h : DerivesReturn cs rest) : rest <:+ cs := by
  cases h with
  | none => exact List.suffix_rfl
  | word hword hgap => exact hgap.suffix.trans hword.suffix

end Script

end FluentSql
