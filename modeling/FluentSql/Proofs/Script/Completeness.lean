import FluentSql.Proofs.Script.Token

/-!
# Every layout is read

The reader takes the characters of a layout back to the tree that they were written from, as long
as they do not nest too deep; if they do, that is the failure it reports. What matters about the
characters after a part is only that they could not belong to it.
-/

namespace FluentSql

namespace Script

/-! ### Parts -/

/-- Takes a comma and an expression. -/
def readNext (inner : Reader Node) : Reader Node := fun cs =>
  (readSeparator ',' cs).andThen fun _ rest => inner rest

/-- What the reader makes of the characters of a part, whatever follows that cannot belong to it:
with enough levels it finds the part, and otherwise it fails for lack of levels. -/
def Part.IsRead : Part → Nat → List Char → Prop
  | .primary node, depth, cs => ∀ left rest, Closed rest →
    (depth ≤ left → readPrimary (readExpr left) (cs ++ rest) = .found node rest) ∧
      (left < depth → ∃ stop, readPrimary (readExpr left) (cs ++ rest) = .failed true stop)
  | .chain length node, depth, cs => ∀ left rest, Closed rest →
    (depth ≤ left → readExpr (left + 1) (cs ++ rest) =
      readChain (readExpr (left - length)) (left - length) node rest) ∧
      (left < depth → ∃ stop, readExpr (left + 1) (cs ++ rest) = .failed true stop)
  | .more nodes, depth, cs => ∀ left bound rest, Ended rest → nodes.length ≤ bound →
    (∃ stop, readNext (readExpr (left + 1)) rest = .absent stop) →
    (depth ≤ left → readMany (readNext (readExpr (left + 1))) bound (cs ++ rest) =
      .found nodes rest) ∧
      (left < depth → ∃ stop,
        readMany (readNext (readExpr (left + 1))) bound (cs ++ rest) = .failed true stop)
  | .arguments nodes, depth, cs => ∀ levels rest,
    (depth < levels → readArguments (readExpr levels) (cs ++ rest) = .found nodes rest) ∧
      (levels ≤ depth → ∃ stop, readArguments (readExpr levels) (cs ++ rest) = .failed true stop)

/-- Where no method call follows, a chain ends. -/
theorem readChain_of_ended (inner : Reader Node) (left : Nat) (target : Node) {rest : List Char}
    (h : Ended rest) : readChain inner left target rest = .found target rest := by
  have hmethod : ∃ stop, readMethod inner rest = .absent stop := by
    have hchaining := h.chaining
    unfold readMethod readSeparator
    cases hskip : skip rest with
    | nil => exact ⟨_, rfl⟩
    | cons c cs =>
      have hc : c ≠ '.' := by simpa [hskip] using hchaining
      simp [readChar, hc]
  obtain ⟨stop, hmethod⟩ := hmethod
  rw [readChain, hmethod]

/-- A name is not skipped. -/
theorem solid_of_isBareName {name : List Char} (h : Text.isBareName name = true) : Solid name := by
  obtain ⟨c, tail, rfl, hstart, -⟩ := Text.exists_of_isBareName h
  refine ⟨c, tail, rfl, ?_, ?_⟩
  · rw [Bool.eq_false_iff]
    intro hspace
    have hname := isNameChar_of_isSpace hspace
    rw [Text.isNameChar_of_isNameStart hstart] at hname
    cases hname
  · rintro rfl
    cases hstart

/-- A numeral is not skipped. -/
theorem solid_of_writes {n : Numeral} {cs : List Char} (h : n.Writes cs) : Solid cs := by
  obtain ⟨c, tail, hdigit, rfl | rfl⟩ := exists_of_writes h
  · refine ⟨c, tail, rfl, ?_, ?_⟩
    · rw [Bool.eq_false_iff]
      intro hspace
      have hname := isNameChar_of_isSpace hspace
      rw [Numeral.isNameChar_of_isDigit hdigit] at hname
      cases hname
    · rintro rfl
      cases hdigit
  · exact ⟨'-', _, rfl, rfl, by decide⟩

/-- A primary is not skipped. -/
theorem Writes.solid_primary {node : Node} {depth : Nat} {cs : List Char}
    (h : Writes (.primary node) depth cs) : Solid cs := by
  cases h with
  | string hquote => rcases hquote with rfl | rfl <;> exact ⟨_, _, rfl, rfl, by decide⟩
  | integer h | float h => exact solid_of_writes h
  | nan => exact ⟨_, _, rfl, rfl, by decide⟩
  | infinity negative => cases negative <;> exact ⟨_, _, rfl, rfl, by decide⟩
  | name hname => exact solid_of_isBareName hname.1
  | call hname => exact (solid_of_isBareName hname.1).append _
  | parenthesized => exact ⟨_, _, rfl, rfl, by decide⟩

/-- An expression is not skipped. -/
theorem Writes.solid {length : Nat} {node : Node} {depth : Nat} {cs : List Char}
    (h : Writes (.chain length node) depth cs) : Solid cs := by
  generalize hpart : Part.chain length node = part at h
  induction h generalizing length node with
  | primary h => exact h.solid_primary
  | method _ _ _ _ _ _ ih => exact (ih rfl).append _
  | _ => cases hpart

/-- A list after its first expression takes as many characters as it has expressions. -/
theorem Writes.length_le {nodes : List Node} {depth : Nat} {cs : List Char}
    (h : Writes (.more nodes) depth cs) : nodes.length ≤ cs.length := by
  generalize hpart : Part.more nodes = part at h
  induction h generalizing nodes with
  | done =>
    cases hpart
    exact Nat.le_refl 0
  | next _ _ _ _ _ ih =>
    cases hpart
    have hle := ih rfl
    simp only [List.length_cons, List.length_append]
    omega
  | _ => cases hpart

/-- More expressions end the one before them. -/
theorem Writes.ended {nodes : List Node} {depth : Nat} {cs : List Char}
    (h : Writes (.more nodes) depth cs) {rest : List Char} (hrest : Ended rest) :
    Ended (cs ++ rest) := by
  cases h with
  | done => exact hrest
  | next hbefore hafter h hmore =>
    rw [List.append_assoc]
    exact hbefore.ended (.inl rfl) _

/-- Takes a separator with blanks around it. -/
theorem readSeparator_append {c : Char} {before after cs : List Char} (hbefore : Blank before)
    (hafter : Blank after) (hc : Solid (c :: (after ++ cs))) (hcs : Solid cs) :
    readSeparator c (before ++ c :: (after ++ cs)) = .found () cs := by
  rw [readSeparator, hbefore.skip_append_solid hc]
  simp [readChar, hafter.skip_append_solid hcs]

/-- Arguments start with a parenthesis. -/
theorem Writes.opening {nodes : List Node} {depth : Nat} {cs : List Char}
    (h : Writes (.arguments nodes) depth cs) : ∃ tail, cs = '(' :: tail := by
  cases h <;> exact ⟨_, rfl⟩

/-- A parenthesis is not skipped. -/
theorem solid_parenthesis {c : Char} (h : c = '(' ∨ c = ')') (cs : List Char) :
    Solid (c :: cs) := by
  obtain rfl | rfl := h <;> exact ⟨_, _, rfl, rfl, by decide⟩

/-- No name and no number goes on with a parenthesis. -/
theorem apart_opening (cs : List Char) : Numeral.Apart ('(' :: cs) :=
  Numeral.apart_cons (by decide) (by decide) cs

/-- Without a parenthesis there are no arguments. -/
theorem readArguments_absent (inner : Reader Node) {cs : List Char} (h : cs.head? ≠ some '(') :
    ∃ stop, readArguments inner cs = .absent stop := by
  cases cs with
  | nil => exact ⟨_, rfl⟩
  | cons c cs =>
    have hc : c ≠ '(' := by simpa using h
    exact ⟨c :: cs, by simp [readArguments, readChar, hc]⟩

/-- A closing parenthesis starts no expression. -/
theorem readExpr_closing (left : Nat) (rest : List Char) :
    ∃ stop, readExpr (left + 1) (')' :: rest) = .absent stop := by
  obtain ⟨stop, hstop⟩ := readPrimary_closing (readExpr left) rest
  exact ⟨stop, by rw [readExpr, hstop, Reply.andThen_absent]⟩

/-- A whole expression is read, if there are enough levels. -/
theorem Part.IsRead.readExpr_append {length : Nat} {node : Node} {depth : Nat} {cs : List Char}
    (h : (Part.chain length node).IsRead depth cs) (levels : Nat) {rest : List Char}
    (hrest : Ended rest) :
    (depth < levels → readExpr levels (cs ++ rest) = .found node rest) ∧
      (levels ≤ depth → ∃ stop, readExpr levels (cs ++ rest) = .failed true stop) := by
  cases levels with
  | zero => exact ⟨fun hlt => absurd hlt (Nat.not_lt_zero _), fun _ => ⟨_, rfl⟩⟩
  | succ left =>
    obtain ⟨hfound, hfailed⟩ := h left rest hrest.closed
    refine ⟨fun hlt => ?_, fun hle => hfailed hle⟩
    rw [hfound (Nat.lt_succ_iff.mp hlt), readChain_of_ended _ _ _ hrest]

/-- What needs no level is read with any number of them. -/
theorem Part.isRead_leaf {node : Node} {cs : List Char}
    (h : ∀ inner rest, Closed rest → readPrimary inner (cs ++ rest) = .found node rest) :
    (Part.primary node).IsRead 0 cs :=
  fun _ rest hrest => ⟨fun _ => h _ rest hrest, fun hdeep => absurd hdeep (Nat.not_lt_zero _)⟩

/-- A name without arguments is read. -/
theorem Part.isRead_name {name : String} (hname : IsFreeName name) :
    (Part.primary (ofName name)).IsRead 0 name.toList := by
  refine isRead_leaf fun inner rest hrest => ?_
  have hread := readName_append hname.1 hrest.apart.name
  obtain ⟨stop, habsent⟩ := readArguments_absent inner hrest.opening
  rw [readPrimary_name inner hname hrest.apart.name]
  simp [readNameOrCall, hread, habsent]

/-- A call is read if its arguments are. -/
theorem Part.isRead_call {name : String} {nodes : List Node} {depth : Nat} {gap cs : List Char}
    (hname : IsFreeName name) (hgap : Blank gap) (h : Writes (.arguments nodes) depth cs)
    (ih : (Part.arguments nodes).IsRead depth cs) :
    (Part.primary (.call name nodes)).IsRead (depth + 1) (name.toList ++ (gap ++ cs)) := by
  intro left rest hrest
  obtain ⟨tail, rfl⟩ := h.opening
  have hapart : Numeral.Apart (gap ++ ('(' :: tail ++ rest)) := hgap.apart (apart_opening _)
  have hread := readName_append hname.1 hapart.name
  have hskip := hgap.skip_append_solid (solid_parenthesis (.inl rfl) (tail ++ rest))
  obtain ⟨hfound, hfailed⟩ := ih left rest
  simp only [List.append_assoc]
  rw [readPrimary_name _ hname hapart.name]
  simp only [List.cons_append] at hread hfound hfailed ⊢
  simp only [readNameOrCall, hread, Reply.andThen_found, hskip, String.ofList_toList]
  refine ⟨fun hle => ?_, fun hlt => ?_⟩
  · rw [hfound hle, Reply.orElse_found]
  · obtain ⟨stop, hstop⟩ := hfailed (Nat.lt_succ_iff.mp hlt)
    exact ⟨stop, by rw [hstop, Reply.orElse_failed]⟩

/-- An expression in parentheses is read if the expression is. -/
theorem Part.isRead_parenthesized {length : Nat} {node : Node} {depth : Nat}
    {before cs after : List Char} (hbefore : Blank before)
    (h : Writes (.chain length node) depth cs) (hafter : Blank after)
    (ih : (Part.chain length node).IsRead depth cs) :
    (Part.primary node).IsRead (depth + 1) ('(' :: (before ++ (cs ++ (after ++ [')'])))) := by
  intro left rest hrest
  have hended := hafter.ended (.inr (.inl rfl)) rest
  have hskip := hbefore.skip_append_solid (h.solid.append (after ++ ')' :: rest))
  have hclosing := hafter.skip_append_solid (solid_parenthesis (.inr rfl) rest)
  obtain ⟨hfound, hfailed⟩ := ih.readExpr_append left hended
  simp only [List.append_assoc, List.cons_append, List.nil_append, readPrimary_opening,
    readParenthesized, readChar, if_true, Reply.andThen_found, hskip]
  refine ⟨fun hle => ?_, fun hlt => ?_⟩
  · simp [hfound hle, hclosing]
  · obtain ⟨stop, hstop⟩ := hfailed (Nat.lt_succ_iff.mp hlt)
    exact ⟨stop, by rw [hstop]; rfl⟩

/-- A primary without method calls is read as an expression. -/
theorem Part.isRead_primary {node : Node} {depth : Nat} {cs : List Char}
    (ih : (Part.primary node).IsRead depth cs) : (Part.chain 0 node).IsRead depth cs := by
  intro left rest hrest
  obtain ⟨hfound, hfailed⟩ := ih left rest hrest
  refine ⟨fun hle => ?_, fun hlt => ?_⟩
  · rw [readExpr, hfound hle]
    rfl
  · obtain ⟨stop, hstop⟩ := hfailed hlt
    exact ⟨stop, by rw [readExpr, hstop, Reply.andThen_failed]⟩

/-- A method call is read if its target and its arguments are. Each call of a chain leaves one
level less for the arguments of the next one. -/
theorem Part.isRead_method {length : Nat} {target : Node} {depth inner : Nat} {name : String}
    {nodes : List Node} {before after between cs ds : List Char} (hbefore : Blank before)
    (hafter : Blank after) (hname : Text.isBareName name.toList = true) (hbetween : Blank between)
    (harguments : Writes (.arguments nodes) inner ds)
    (ih : (Part.chain length target).IsRead depth cs)
    (iharguments : (Part.arguments nodes).IsRead inner ds) :
    (Part.chain (length + 1) (.method target name nodes)).IsRead (max depth (length + inner + 1))
      (cs ++ (before ++ '.' :: (after ++ (name.toList ++ (between ++ ds))))) := by
  intro left rest hrest
  obtain ⟨tail, rfl⟩ := harguments.opening
  have hclosed := hbefore.closed_point hafter hname (between ++ ('(' :: tail ++ rest))
  have hapart : Numeral.Apart (between ++ ('(' :: tail ++ rest)) := hbetween.apart (apart_opening _)
  have hread := readName_append hname hapart.name
  have hseparator := readSeparator_append (c := '.') hbefore hafter ⟨'.', _, rfl, rfl, by decide⟩
    ((solid_of_isBareName hname).append (between ++ ('(' :: tail ++ rest)))
  have hskip := hbetween.skip_append_solid (solid_parenthesis (.inl rfl) (tail ++ rest))
  obtain ⟨hfound, hfailed⟩ := ih left _ hclosed
  obtain ⟨harg, hargfailed⟩ := iharguments (left - length) rest
  have hmethod : readMethod (readExpr (left - length))
      (before ++ '.' :: (after ++ (name.toList ++ (between ++ ('(' :: tail ++ rest))))) =
        ((readArguments (readExpr (left - length)) ('(' :: tail ++ rest)).map
          fun arguments => (name, arguments)).required := by
    rw [readMethod, hseparator, Reply.andThen_found, hread, Reply.andThen_found,
      String.ofList_toList, List.cons_append, hskip]
  simp only [List.append_assoc, List.cons_append] at hfound hfailed hmethod harg hargfailed ⊢
  refine ⟨fun hle => ?_, fun hlt => ?_⟩
  · have hlevels : left - length = left - (length + 1) + 1 := by omega
    rw [hfound (by omega), readChain, hmethod, harg (by omega), hlevels]
    rfl
  · by_cases hdeep : left < depth
    · exact hfailed hdeep
    · obtain ⟨stop, hstop⟩ := hargfailed (by omega)
      exact ⟨stop, by rw [hfound (by omega), readChain, hmethod, hstop]; rfl⟩

/-- Nothing more is read where no comma and expression follow. -/
theorem Part.isRead_done : (Part.more []).IsRead 0 [] := by
  intro left bound rest _ _ hstop
  obtain ⟨stop, hstop⟩ := hstop
  refine ⟨fun _ => ?_, fun hlt => absurd hlt (Nat.not_lt_zero _)⟩
  cases bound with
  | zero => rfl
  | succ bound => rw [List.nil_append, readMany, hstop]

/-- One more expression is read if it is and those after it are. -/
theorem Part.isRead_next {length : Nat} {node : Node} {nodes : List Node} {depth inner : Nat}
    {before after cs ds : List Char} (hbefore : Blank before) (hafter : Blank after)
    (h : Writes (.chain length node) depth cs) (hmore : Writes (.more nodes) inner ds)
    (ih : (Part.chain length node).IsRead depth cs) (ihmore : (Part.more nodes).IsRead inner ds) :
    (Part.more (node :: nodes)).IsRead (max depth inner)
      (before ++ ',' :: (after ++ (cs ++ ds))) := by
  intro left bound rest hrest hbound hstop
  have hended := hmore.ended hrest
  have hseparator := readSeparator_append (c := ',') hbefore hafter ⟨',', _, rfl, rfl, by decide⟩
    (h.solid.append (ds ++ rest))
  have hnext : readNext (readExpr (left + 1)) (before ++ ',' :: (after ++ (cs ++ (ds ++ rest)))) =
      readExpr (left + 1) (cs ++ (ds ++ rest)) := by
    rw [readNext, hseparator, Reply.andThen_found]
  obtain ⟨hfound, hfailed⟩ := ih.readExpr_append (left + 1) hended
  simp only [List.append_assoc, List.cons_append]
  cases bound with
  | zero => exact absurd hbound (Nat.not_succ_le_zero _)
  | succ bound =>
    obtain ⟨hrestFound, hrestFailed⟩ :=
      ihmore left bound rest hrest (Nat.le_of_succ_le_succ hbound) hstop
    refine ⟨fun hle => ?_, fun hlt => ?_⟩
    · rw [readMany, hnext, hfound (by omega)]
      simp [hrestFound (by omega)]
    · by_cases hdeep : left < depth
      · obtain ⟨stop, hfail⟩ := hfailed hdeep
        exact ⟨stop, by rw [readMany, hnext, hfail]⟩
      · obtain ⟨stop, hfail⟩ := hrestFailed (by omega)
        refine ⟨stop, ?_⟩
        rw [readMany, hnext, hfound (by omega)]
        simp [hfail]

/-- No arguments are read, if there is a level for those that there could be. -/
theorem Part.isRead_empty {gap : List Char} (hgap : Blank gap) :
    (Part.arguments []).IsRead 0 ('(' :: (gap ++ [')'])) := by
  intro levels rest
  have hskip := hgap.skip_append_solid (solid_parenthesis (.inr rfl) rest)
  cases levels with
  | zero =>
    refine ⟨fun hlt => absurd hlt (Nat.not_lt_zero _), fun _ => ?_⟩
    exact ⟨_, rfl⟩
  | succ left =>
    refine ⟨fun _ => ?_, fun hle => absurd hle (Nat.not_succ_le_zero _)⟩
    obtain ⟨stop, hstop⟩ := readExpr_closing left rest
    have hclosing : skipComma (skip (')' :: rest)) = ')' :: rest := by
      rw [(solid_parenthesis (.inr rfl) rest).skip_eq]
      rfl
    simp [readArguments, readChar, readList, hskip, hstop, hclosing]

/-- What may stand between the last argument and the closing parenthesis ends the argument, and no
other argument follows it. -/
theorem trailing_ended {after trailing : List Char} (hafter : Blank after)
    (htrailing : trailing = [] ∨ ∃ gap, Blank gap ∧ trailing = ',' :: gap) (left : Nat)
    (rest : List Char) :
    Ended (after ++ (trailing ++ ')' :: rest)) ∧
      (∃ stop, readNext (readExpr (left + 1)) (after ++ (trailing ++ ')' :: rest)) = .absent stop) ∧
      skipComma (skip (after ++ (trailing ++ ')' :: rest))) = ')' :: rest := by
  rcases htrailing with rfl | ⟨gap, hgap, rfl⟩
  · have hskip := hafter.skip_append_solid (solid_parenthesis (.inr rfl) rest)
    refine ⟨hafter.ended (.inr (.inl rfl)) rest, ⟨')' :: rest, ?_⟩, ?_⟩
    · rw [readNext, readSeparator, List.nil_append, hskip]
      rfl
    · rw [List.nil_append, hskip]
      rfl
  · have hcomma : Solid (',' :: (gap ++ ')' :: rest)) := ⟨',', _, rfl, rfl, by decide⟩
    have hseparator := readSeparator_append hafter hgap hcomma (solid_parenthesis (.inr rfl) rest)
    obtain ⟨stop, hstop⟩ := readExpr_closing left rest
    refine ⟨hafter.ended (.inl rfl) _, ⟨stop, ?_⟩, ?_⟩
    · rw [readNext, List.cons_append, hseparator, Reply.andThen_found, hstop]
    · rw [List.cons_append, hafter.skip_append_solid hcomma]
      exact hgap.skip_append_solid (solid_parenthesis (.inr rfl) rest)

/-- Expressions are read on after the first one. -/
theorem readList_found {inner : Reader Node} {cs rest : List Char} {first : Node}
    (h : inner cs = .found first rest) :
    readList inner cs = (readMany (readNext inner) rest.length rest).map (first :: ·) := by
  rw [readList, h]
  rfl

/-- Where the first expression fails, all of them do. -/
theorem readList_failed {inner : Reader Node} {cs stop : List Char} {deep : Bool}
    (h : inner cs = .failed deep stop) : readList inner cs = .failed deep stop := by
  rw [readList, h]

/-- Arguments are read if all of them are. -/
theorem Part.isRead_full {length : Nat} {node : Node} {nodes : List Node} {depth inner : Nat}
    {before after trailing cs ds : List Char} (hbefore : Blank before)
    (h : Writes (.chain length node) depth cs) (hmore : Writes (.more nodes) inner ds)
    (hafter : Blank after)
    (htrailing : trailing = [] ∨ ∃ gap, Blank gap ∧ trailing = ',' :: gap)
    (ih : (Part.chain length node).IsRead depth cs) (ihmore : (Part.more nodes).IsRead inner ds) :
    (Part.arguments (node :: nodes)).IsRead (max depth inner)
      ('(' :: (before ++ (cs ++ (ds ++ (after ++ (trailing ++ [')'])))))) := by
  intro levels rest
  simp only [List.append_assoc, List.cons_append, List.nil_append]
  generalize hend : after ++ (trailing ++ ')' :: rest) = ending
  have hskip := hbefore.skip_append_solid (h.solid.append (ds ++ ending))
  rw [readArguments, readChar, if_pos rfl, Reply.andThen_found, hskip]
  cases levels with
  | zero =>
    have hzero : readExpr 0 (cs ++ (ds ++ ending)) = .failed true (cs ++ (ds ++ ending)) := rfl
    exact ⟨fun hlt => absurd hlt (Nat.not_lt_zero _),
      fun _ => ⟨_, by rw [readList_failed hzero]; rfl⟩⟩
  | succ left =>
    obtain ⟨hended, hstop, hclosing⟩ := trailing_ended hafter htrailing left rest
    rw [hend] at hended hstop hclosing
    have hbound : nodes.length ≤ (ds ++ ending).length := by
      have hle := hmore.length_le
      rw [List.length_append]
      omega
    obtain ⟨hfound, hfailed⟩ := ih.readExpr_append (left + 1) (hmore.ended hended)
    obtain ⟨hmany, hmanyFailed⟩ := ihmore left _ ending hended hbound hstop
    refine ⟨fun hlt => ?_, fun hle => ?_⟩
    · rw [readList_found (hfound (by omega)), hmany (by omega)]
      simp [hclosing, readChar]
    · by_cases hdeep : left + 1 ≤ depth
      · obtain ⟨stop, hfail⟩ := hfailed hdeep
        exact ⟨stop, by rw [readList_failed hfail]; rfl⟩
      · obtain ⟨stop, hfail⟩ := hmanyFailed (by omega)
        refine ⟨stop, ?_⟩
        rw [readList_found (hfound (by omega)), hfail]
        rfl

/-- Every layout is read. -/
theorem Writes.isRead {part : Part} {depth : Nat} {cs : List Char} (h : Writes part depth cs) :
    part.IsRead depth cs := by
  induction h with
  | string hquote h =>
    exact Part.isRead_leaf fun inner rest _ => by
      simpa using readPrimary_string inner hquote h rest
  | integer h hinteger hvalue =>
    exact Part.isRead_leaf fun inner rest hrest => readPrimary_numeral inner h <| by
      simp [readNumeral, Numeral.scan_append h hrest.apart, hinteger, hvalue]
  | float h hinteger =>
    exact Part.isRead_leaf fun inner rest hrest => readPrimary_numeral inner h <| by
      simp [readNumeral, Numeral.scan_append h hrest.apart, hinteger]
  | nan => exact Part.isRead_leaf fun inner _ hrest => readPrimary_nan inner hrest.apart
  | infinity negative =>
    exact Part.isRead_leaf fun inner _ hrest => readPrimary_infinity inner negative hrest.apart
  | name hname => exact Part.isRead_name hname
  | call hname hgap h ih => exact Part.isRead_call hname hgap h ih
  | parenthesized hbefore h hafter ih => exact Part.isRead_parenthesized hbefore h hafter ih
  | primary h ih => exact Part.isRead_primary ih
  | method h hbefore hafter hname hbetween harguments ih iharguments =>
    exact Part.isRead_method hbefore hafter hname hbetween harguments ih iharguments
  | done => exact Part.isRead_done
  | next hbefore hafter h hmore ih ihmore => exact Part.isRead_next hbefore hafter h hmore ih ihmore
  | empty hgap => exact Part.isRead_empty hgap
  | full hbefore h hmore hafter htrailing ih ihmore =>
    exact Part.isRead_full hbefore h hmore hafter htrailing ih ihmore

/-! ### Scripts -/

/-- Takes a binding and the spaces after it, with so many levels of nesting. -/
def readBindingAt (levels : Nat) : Reader Binding := fun cs =>
  ((readKeyword "const" cs).orElse fun _ => readKeyword "let" cs).andThen fun _ rest =>
    ((readName (skip rest)).andThen fun name rest =>
      (readSeparator '=' rest).andThen fun _ rest =>
        (readExpr levels rest).andThen fun value rest =>
          (readSeparator ';' rest).map fun _ => ⟨name, value⟩).required

/-- Takes a whole script, with so many levels of nesting. -/
def readScriptAt (levels : Nat) : Reader Script := fun cs =>
  (readMany (readBindingAt levels) cs.length (skip cs)).andThen fun bindings rest =>
    (readExpr levels (skipReturn rest)).andThen fun body rest =>
      match skip (skipSemicolon (skip rest)) with
      | [] => .found ⟨bindings, body⟩ []
      | stop => .absent stop

/-- A script is read with the levels that there are. -/
theorem readScript_eq_readScriptAt : readScript = readScriptAt (maxDepth + 1) := rfl

/-- A written binding is read, if there are enough levels. -/
theorem WritesBinding.readBindingAt_append {binding : Binding} {depth : Nat} {cs : List Char}
    (h : WritesBinding binding depth cs) (levels : Nat) {rest : List Char} (hrest : Solid rest) :
    (depth < levels → readBindingAt levels (cs ++ rest) = .found binding rest) ∧
      (levels ≤ depth → ∃ stop, readBindingAt levels (cs ++ rest) = .failed true stop) := by
  cases h with
  | @mk word name length value depth gap before after between vs last hword hgap hapart hname
      hbefore hafter h hbetween hlast =>
    simp only [List.append_assoc, List.cons_append]
    have hended := hbetween.ended (.inr (.inr rfl)) (last ++ rest)
    have hvalue := h.solid.append (between ++ ';' :: (last ++ rest))
    have hequals :=
      readSeparator_append hbefore hafter (c := '=') ⟨'=', _, rfl, rfl, by decide⟩ hvalue
    have hsemicolon := readSeparator_append hbetween hlast (c := ';')
      ⟨';', _, rfl, rfl, by decide⟩ hrest
    have hread := readName_append hname
      (hbefore.apart (Numeral.apart_cons (c := '=') (by decide) (by decide)
        (after ++ (vs ++ (between ++ ';' :: (last ++ rest)))))).name
    have hskip := hgap.skip_append_solid ((solid_of_isBareName hname).append
      (before ++ '=' :: (after ++ (vs ++ (between ++ ';' :: (last ++ rest))))))
    have hkeyword (cs : List Char) : (readKeyword "const" (word.toList ++ (gap ++ cs))).orElse
        (fun _ => readKeyword "let" (word.toList ++ (gap ++ cs))) = .found () (gap ++ cs) := by
      have happend (keyword : String) (hbare : Text.isBareName word.toList = true) :=
        readKeyword_append keyword hbare (hgap.apart_of_ne_nil hapart cs).name
      rcases hword with rfl | rfl
      · rw [happend "const" (by decide), if_pos (by simp), Reply.orElse_found]
      · rw [happend "const" (by decide), if_neg (by decide), Reply.orElse_absent,
          happend "let" (by decide), if_pos (by simp)]
    obtain ⟨hfound, hfailed⟩ := h.isRead.readExpr_append levels hended
    rw [readBindingAt, hkeyword, Reply.andThen_found, hskip, hread, Reply.andThen_found, hequals,
      Reply.andThen_found]
    refine ⟨fun hlt => ?_, fun hle => ?_⟩
    · rw [hfound hlt, Reply.andThen_found, hsemicolon, String.ofList_toList]
      rfl
    · obtain ⟨stop, hstop⟩ := hfailed hle
      exact ⟨stop, by rw [hstop]; rfl⟩

/-- A binding is not skipped. -/
theorem WritesBinding.solid {binding : Binding} {depth : Nat} {cs : List Char}
    (h : WritesBinding binding depth cs) : Solid cs := by
  cases h with
  | mk hword => rcases hword with rfl | rfl <;> exact ⟨_, _, rfl, rfl, by decide⟩

/-- Bindings are not skipped. -/
theorem WritesBindings.solid {bindings : List Binding} {depth : Nat} {cs : List Char}
    (h : WritesBindings bindings depth cs) {rest : List Char} (hrest : Solid rest) :
    Solid (cs ++ rest) := by
  cases h with
  | nil => exact hrest
  | cons h hmore => exact (h.solid.append _).append rest

/-- Bindings take at least as many characters as there are of them. -/
theorem WritesBindings.length_le {bindings : List Binding} {depth : Nat} {cs : List Char}
    (h : WritesBindings bindings depth cs) : bindings.length ≤ cs.length := by
  induction h with
  | nil => exact Nat.le_refl 0
  | cons h _ ih =>
    obtain ⟨c, tail, rfl, -, -⟩ := h.solid
    simp only [List.length_append, List.length_cons]
    omega

/-- Written bindings are read, up to what is no binding. -/
theorem WritesBindings.readMany_append {bindings : List Binding} {depth : Nat} {cs : List Char}
    (h : WritesBindings bindings depth cs) {levels bound : Nat} (hlevels : 0 < levels)
    (hbound : bindings.length ≤ bound) {rest : List Char} (hrest : Solid rest)
    (hstop : ∃ stop, readBindingAt levels rest = .absent stop) :
    (depth < levels → readMany (readBindingAt levels) bound (cs ++ rest) = .found bindings rest) ∧
      (levels ≤ depth →
        ∃ stop, readMany (readBindingAt levels) bound (cs ++ rest) = .failed true stop) := by
  induction h generalizing bound with
  | nil =>
    obtain ⟨stop, hstop⟩ := hstop
    refine ⟨fun _ => ?_, fun hle => absurd hlevels (Nat.not_lt.mpr hle)⟩
    cases bound with
    | zero => rfl
    | succ bound => rw [List.nil_append, readMany, hstop]
  | @cons binding bindings depth inner cs ds h hmore ih =>
    cases bound with
    | zero => exact absurd hbound (Nat.not_succ_le_zero _)
    | succ bound =>
      obtain ⟨hfound, hfailed⟩ := h.readBindingAt_append levels (hmore.solid hrest)
      obtain ⟨hmany, hmanyFailed⟩ := ih (Nat.le_of_succ_le_succ hbound)
      rw [List.append_assoc]
      refine ⟨fun hlt => ?_, fun hle => ?_⟩
      · rw [readMany, hfound (by omega)]
        simp [hmany (by omega)]
      · by_cases hdeep : levels ≤ depth
        · obtain ⟨stop, hfail⟩ := hfailed hdeep
          exact ⟨stop, by rw [readMany, hfail]⟩
        · obtain ⟨stop, hfail⟩ := hmanyFailed (by omega)
          refine ⟨stop, ?_⟩
          rw [readMany, hfound (by omega)]
          simp [hfail]

/-- Characters that begin with another name do not begin with the keyword. -/
theorem readKeyword_of_leadingName {word : String} {cs : List Char} (h : leadingName cs ≠ word) :
    readKeyword word cs = .absent cs := by
  cases cs with
  | nil => rfl
  | cons c cs =>
    cases hstart : Text.isNameStart c with
    | false => exact readKeyword_absent word hstart
    | true =>
      have hname : leadingName (c :: cs) = String.ofList (c :: cs.takeWhile Text.isNameChar) := by
        simp [leadingName, Text.isNameChar_of_isNameStart hstart]
      rw [hname] at h
      simp only [readKeyword, readName, hstart, if_true, if_neg h]

/-- What ends a name does not change the one that the characters begin with. -/
theorem leadingName_append {cs rest : List Char}
    (hrest : ∀ c ∈ rest.head?, Text.isNameChar c = false) :
    leadingName (cs ++ rest) = leadingName cs := by
  have htake : (cs ++ rest).takeWhile Text.isNameChar = cs.takeWhile Text.isNameChar := by
    induction cs with
    | nil =>
      cases rest with
      | nil => rfl
      | cons d ds => simp [hrest d rfl]
    | cons c cs ih =>
      rw [List.cons_append, List.takeWhile_cons, List.takeWhile_cons, ih]
  rw [leadingName, htake, leadingName]

/-- Characters that begin with no name do not begin with a character of one. -/
theorem head?_of_leadingName {cs : List Char} (hcs : Solid cs) (h : leadingName cs = "")
    (rest : List Char) : ∀ c ∈ (cs ++ rest).head?, Text.isNameChar c = false := by
  obtain ⟨c, tail, rfl, -, -⟩ := hcs
  have htake : (c :: tail).takeWhile Text.isNameChar = [] := by
    simpa [leadingName] using congrArg String.toList h
  cases hname : Text.isNameChar c with
  | true => simp [hname] at htake
  | false => simpa using hname

/-- Blanks at the end of a script are no part of a name or a number. -/
theorem FinalBlank.apart {cs : List Char} (h : FinalBlank cs) : Numeral.Apart cs := by
  cases h with
  | closed h => simpa using h.apart apart_nil
  | comment h => exact h.apart (Numeral.apart_cons (by decide) (by decide) _)

/-- The end of a script ends its final expression, and nothing is left. -/
theorem WritesEnd.ended {last : List Char} (h : WritesEnd last) :
    Ended last ∧ skip (skipSemicolon (skip last)) = [] := by
  cases h with
  | bare h =>
    have hskip := h.skip_eq_nil
    exact ⟨⟨⟨h.apart, by simp [hskip]⟩, by simp [hskip]⟩, by rw [hskip]; rfl⟩
  | @semicolon gap last hgap h =>
    have hskip := hgap.skip_append_solid (⟨';', last, rfl, rfl, by decide⟩ : Solid (';' :: last))
    refine ⟨hgap.ended (.inr (.inr rfl)) last, ?_⟩
    rw [hskip]
    exact h.skip_eq_nil

/-- What stands before the final expression is no binding and is passed. -/
theorem WritesReturn.skipReturn_append {before ds : List Char} (h : WritesReturn before ds)
    (levels : Nat) (hds : Solid ds) {last : List Char}
    (hlast : ∀ c ∈ last.head?, Text.isNameChar c = false) :
    Solid (before ++ (ds ++ last)) ∧
      (∃ stop, readBindingAt levels (before ++ (ds ++ last)) = .absent stop) ∧
      skipReturn (before ++ (ds ++ last)) = ds ++ last := by
  have hleading : leadingName (ds ++ last) = leadingName ds := leadingName_append hlast
  cases h with
  | none hcs =>
    simp only [List.mem_cons, List.not_mem_nil, or_false, not_or] at hcs
    have hkeyword {word : String} (hne : leadingName ds ≠ word) :
        readKeyword word (ds ++ last) = .absent (ds ++ last) :=
      readKeyword_of_leadingName (hleading ▸ hne)
    refine ⟨hds.append last, ⟨ds ++ last, ?_⟩, ?_⟩
    · rw [List.nil_append, readBindingAt, hkeyword hcs.1, Reply.orElse_absent, hkeyword hcs.2.1]
      rfl
    · rw [List.nil_append, skipReturn, hkeyword hcs.2.2]
  | @word gap _ hgap hapart =>
    have hhead : ∀ c ∈ (gap ++ (ds ++ last)).head?, Text.isNameChar c = false := by
      by_cases hne : gap = []
      · rcases hapart with hcontra | hempty
        · exact absurd hne hcontra
        · subst hne
          exact head?_of_leadingName hds hempty last
      · exact (hgap.apart_of_ne_nil hne _).name
    have hkeyword (word : String) := readKeyword_append word
      (by decide : Text.isBareName "return".toList = true) hhead
    rw [List.append_assoc]
    refine ⟨⟨_, _, rfl, rfl, by decide⟩, ⟨"return".toList ++ (gap ++ (ds ++ last)), ?_⟩, ?_⟩
    · rw [readBindingAt, hkeyword, if_neg (by decide), Reply.orElse_absent, hkeyword,
        if_neg (by decide)]
      rfl
    · rw [skipReturn, hkeyword, if_pos (by simp)]
      exact hgap.skip_append_solid (hds.append last)

/-- A written script is read, if there are enough levels. -/
theorem WritesScript.readScriptAt_eq {script : Script} {depth : Nat} {cs : List Char}
    (h : WritesScript script depth cs) {levels : Nat} (hlevels : 0 < levels) :
    (depth < levels → readScriptAt levels cs = .found script []) ∧
      (levels ≤ depth → ∃ stop, readScriptAt levels cs = .failed true stop) := by
  cases h with
  | @mk bindings length body depth inner first bs before ds last hfirst hbindings hbefore h hlast =>
    obtain ⟨hended, hend⟩ := hlast.ended
    obtain ⟨hsolid, hstop, hreturn⟩ :=
      hbefore.skipReturn_append levels h.solid hended.closed.apart.name
    have hskip := hfirst.skip_append_solid (hbindings.solid hsolid)
    have hbound : bindings.length ≤ (first ++ (bs ++ (before ++ (ds ++ last)))).length := by
      have hle := hbindings.length_le
      simp only [List.length_append]
      omega
    obtain ⟨hmany, hmanyFailed⟩ := hbindings.readMany_append hlevels hbound hsolid hstop
    obtain ⟨hfound, hfailed⟩ := h.isRead.readExpr_append levels hended
    rw [readScriptAt, hskip]
    refine ⟨fun hlt => ?_, fun hle => ?_⟩
    · rw [hmany (by omega), Reply.andThen_found, hreturn, hfound (by omega),
        Reply.andThen_found, hend]
    · by_cases hdeep : levels ≤ depth
      · obtain ⟨stop, hfail⟩ := hmanyFailed hdeep
        exact ⟨stop, by rw [hfail]; rfl⟩
      · obtain ⟨stop, hfail⟩ := hfailed (by omega)
        exact ⟨stop, by rw [hmany (by omega), Reply.andThen_found, hreturn, hfail]; rfl⟩

/-- No two scripts are written alike, however deep they nest. -/
theorem WritesScript.inj {script script' : Script} {depth depth' : Nat} {cs : List Char}
    (h : WritesScript script depth cs) (h' : WritesScript script' depth' cs) :
    script = script' := by
  have hlevels : 0 < max depth depth' + 1 := Nat.succ_pos _
  have hread := (h.readScriptAt_eq hlevels).1 (by omega)
  rw [(h'.readScriptAt_eq hlevels).1 (by omega)] at hread
  exact (Reply.found.inj hread).1.symm

/-- The text of a written script is read as the script, unless it nests too deep. -/
theorem ofText_of_writesScript {script : Script} {depth : Nat} {text : String}
    (h : WritesScript script depth text.toList) :
    (depth ≤ maxDepth → ofText text = .ok script) ∧
      (maxDepth < depth →
        ∃ position, ofText text = .error (.parse position (.tooDeep maxDepth))) := by
  obtain ⟨hfound, hfailed⟩ := h.readScriptAt_eq (Nat.succ_pos maxDepth)
  rw [← readScript_eq_readScriptAt] at hfound hfailed
  refine ⟨fun hle => ?_, fun hlt => ?_⟩
  · simp [ofText, hfound (Nat.lt_succ_of_le hle)]
  · obtain ⟨stop, hstop⟩ := hfailed hlt
    exact ⟨_, by simp [ofText, hstop]; rfl⟩

end Script

end FluentSql
