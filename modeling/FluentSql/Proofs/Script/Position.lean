import FluentSql.Proofs.Script.Accepted

/-!
# Where reading stops

Whatever a reader answers, it leaves a suffix of the characters that it was given: those after a
value, or those where it found nothing or failed. So the error of a text that cannot be read stands
at the start of one of its characters or at its end, and its message quotes what follows there.
-/

namespace FluentSql

/-! ### What replies leave -/

namespace Reply

variable {α β : Type}

/-- The characters after the value, or those where reading stopped. -/
def left : Reply α → List Char
  | found _ rest => rest
  | absent stop => stop
  | failed _ stop => stop

/-- A changed value leaves what the value leaves. -/
@[simp] theorem left_map (f : α → β) (r : Reply α) : (r.map f).left = r.left := by
  cases r <;> rfl

/-- What is left does not depend on whether the value has to be there. -/
@[simp] theorem left_required (r : Reply α) : r.required.left = r.left := by
  cases r <;> rfl

/-- A suffix is left after two parts if the first part leaves one, and the second one does wherever
it goes on. -/
theorem left_andThen_suffix {r : Reply α} {next : α → List Char → Reply β} {cs : List Char}
    (h : r.left <:+ cs) (hnext : ∀ value rest, rest <:+ cs → (next value rest).left <:+ cs) :
    (r.andThen next).left <:+ cs := by
  cases r with
  | found value rest => exact hnext value rest h
  | absent | failed => exact h

/-- A suffix is left by one of two readers if each of them leaves one. -/
theorem left_orElse_suffix {r : Reply α} {other : Unit → Reply α} {cs : List Char}
    (h : r.left <:+ cs) (hother : (other ()).left <:+ cs) : (r.orElse other).left <:+ cs := by
  cases r with
  | absent => exact hother
  | found | failed => exact h

end Reply

/-- The reader leaves a suffix of any characters. -/
def LeavesSuffix {α : Type} (reader : Reader α) : Prop :=
  ∀ cs, (reader cs).left <:+ cs

/-- What is left of a suffix is left of the whole. -/
theorem LeavesSuffix.of_suffix {α : Type} {reader : Reader α} (h : LeavesSuffix reader)
    {start cs : List Char} (hsuffix : start <:+ cs) : (reader start).left <:+ cs :=
  (h start).trans hsuffix

/-- A character or nothing is taken. -/
theorem leavesSuffix_readChar (expected : Char) : LeavesSuffix (readChar expected) := by
  intro cs
  cases cs with
  | nil => exact List.suffix_rfl
  | cons c cs =>
    rw [readChar]
    split
    · exact List.suffix_cons c cs
    · exact List.suffix_rfl

/-- Values in a row leave a suffix if each one does. -/
theorem leavesSuffix_readMany {α : Type} {item : Reader α} (hitem : LeavesSuffix item)
    (bound : Nat) : LeavesSuffix (readMany item bound) := by
  induction bound with
  | zero => exact fun cs => List.suffix_rfl
  | succ bound ih =>
    intro cs
    have hleft := hitem cs
    rw [readMany]
    generalize item cs = reply at hleft ⊢
    cases reply with
    | found value rest =>
      rw [Reply.left_map]
      exact ih.of_suffix hleft
    | absent stop => exact List.suffix_rfl
    | failed deep stop => exact hleft

namespace Script

open Reply

/-! ### Tokens -/

/-- A name leaves a suffix. -/
theorem leavesSuffix_readName : LeavesSuffix readName := by
  intro cs
  cases cs with
  | nil => exact List.suffix_rfl
  | cons c cs =>
    rw [readName]
    split
    · exact (List.dropWhile_suffix _).trans (List.suffix_cons c cs)
    · exact List.suffix_rfl

/-- A keyword leaves a suffix. -/
theorem leavesSuffix_readKeyword (word : String) : LeavesSuffix (readKeyword word) := by
  intro cs
  have hleft := leavesSuffix_readName cs
  unfold readKeyword
  generalize readName cs = reply at hleft ⊢
  cases reply with
  | found name rest =>
    dsimp only
    split
    · exact hleft
    · exact List.suffix_rfl
  | absent | failed => exact List.suffix_rfl

/-- A text in quotes leaves a suffix. One that is never closed is left from its quote on. -/
theorem leavesSuffix_readQuoted (quote : Char) : LeavesSuffix (readQuoted quote) := by
  intro cs
  cases cs with
  | nil => exact List.suffix_rfl
  | cons c cs =>
    rw [readQuoted]
    split
    · split
      · next text rest hunquote =>
        obtain ⟨written, -, rfl⟩ := exists_writesText_of_unquote hunquote
        have hclosed := (List.suffix_cons quote rest).trans (List.suffix_append written _)
        exact hclosed.trans (List.suffix_cons c _)
      · exact List.suffix_rfl
    · exact List.suffix_rfl

/-- A string leaves a suffix. -/
theorem leavesSuffix_readString : LeavesSuffix readString := by
  intro cs
  rw [readString, left_map]
  exact left_orElse_suffix (leavesSuffix_readQuoted _ cs) (leavesSuffix_readQuoted _ cs)

/-- The name of an infinity leaves a suffix. -/
theorem leavesSuffix_readInfinity : LeavesSuffix readInfinity := by
  intro cs
  unfold readInfinity
  split
  · next rest =>
    rw [left_map]
    exact (leavesSuffix_readKeyword _).of_suffix (List.suffix_cons '-' rest)
  · rw [left_map]
    exact leavesSuffix_readKeyword _ _

/-- A numeral leaves a suffix. -/
theorem leavesSuffix_readNumeral : LeavesSuffix readNumeral := by
  intro cs
  unfold readNumeral
  split
  · exact List.suffix_rfl
  · next n rest hscan =>
    obtain ⟨text, -, rfl⟩ := Numeral.eq_append_of_scan hscan
    split
    · split
      · exact List.suffix_append text rest
      · exact List.suffix_rfl
    · exact List.suffix_append text rest

/-- A number leaves a suffix. -/
theorem leavesSuffix_readNumber : LeavesSuffix readNumber := by
  intro cs
  refine left_orElse_suffix (left_orElse_suffix ?_ (leavesSuffix_readInfinity cs))
    (leavesSuffix_readNumeral cs)
  rw [left_map]
  exact leavesSuffix_readKeyword _ cs

/-- A separator leaves a suffix. -/
theorem leavesSuffix_readSeparator (c : Char) : LeavesSuffix (readSeparator c) :=
  fun cs => left_andThen_suffix ((leavesSuffix_readChar c).of_suffix (skip_suffix cs))
    fun _ rest hrest => (skip_suffix rest).trans hrest

/-! ### Expressions -/

section Inner

variable {inner : Reader Node} (hinner : LeavesSuffix inner)
include hinner

/-- Expressions with commas between them leave a suffix. -/
theorem leavesSuffix_readList : LeavesSuffix (readList inner) := by
  have hnext : LeavesSuffix fun cs => (readSeparator ',' cs).andThen fun _ rest => inner rest :=
    fun cs => left_andThen_suffix (leavesSuffix_readSeparator ',' cs)
      fun _ _ hrest => hinner.of_suffix hrest
  intro cs
  have hleft := hinner cs
  unfold readList
  generalize inner cs = reply at hleft ⊢
  cases reply with
  | found first rest =>
    rw [left_map]
    exact (leavesSuffix_readMany hnext _).of_suffix hleft
  | absent stop => exact List.suffix_rfl
  | failed deep stop => exact hleft

/-- Arguments leave a suffix. -/
theorem leavesSuffix_readArguments : LeavesSuffix (readArguments inner) := by
  intro cs
  refine left_andThen_suffix (leavesSuffix_readChar '(' cs) fun _ rest hrest => ?_
  have hstart := (skip_suffix rest).trans hrest
  refine left_andThen_suffix ((leavesSuffix_readList hinner).of_suffix hstart)
    fun arguments after hafter => ?_
  rw [left_required, left_map]
  exact (leavesSuffix_readChar ')').of_suffix ((skipComma_suffix after).trans hafter)

/-- A name, with arguments or without them, leaves a suffix. -/
theorem leavesSuffix_readNameOrCall : LeavesSuffix (readNameOrCall inner) := by
  intro cs
  refine left_andThen_suffix (leavesSuffix_readName cs) fun name rest hrest => ?_
  have hleft := (leavesSuffix_readArguments hinner).of_suffix ((skip_suffix rest).trans hrest)
  generalize readArguments inner (skip rest) = reply at hleft ⊢
  cases reply with
  | found arguments after => exact hleft
  | absent stop => exact hrest
  | failed deep stop => exact hleft

/-- An expression in parentheses leaves a suffix. -/
theorem leavesSuffix_readParenthesized : LeavesSuffix (readParenthesized inner) := by
  intro cs
  refine left_andThen_suffix (leavesSuffix_readChar '(' cs) fun _ rest hrest => ?_
  rw [left_required]
  refine left_andThen_suffix (hinner.of_suffix ((skip_suffix rest).trans hrest))
    fun node after hafter => ?_
  rw [left_map]
  exact (leavesSuffix_readChar ')').of_suffix ((skip_suffix after).trans hafter)

/-- A primary leaves a suffix. -/
theorem leavesSuffix_readPrimary : LeavesSuffix (readPrimary inner) := by
  intro cs
  refine left_orElse_suffix (left_orElse_suffix ?_ (leavesSuffix_readNameOrCall hinner cs))
    (leavesSuffix_readParenthesized hinner cs)
  exact left_orElse_suffix (leavesSuffix_readString cs) (leavesSuffix_readNumber cs)

/-- A method call leaves a suffix. -/
theorem leavesSuffix_readMethod : LeavesSuffix (readMethod inner) := by
  intro cs
  refine left_andThen_suffix (leavesSuffix_readSeparator '.' cs) fun _ rest hrest => ?_
  rw [left_required]
  refine left_andThen_suffix (leavesSuffix_readName.of_suffix hrest) fun name after hafter => ?_
  rw [left_map]
  exact (leavesSuffix_readArguments hinner).of_suffix ((skip_suffix after).trans hafter)

end Inner

/-- An expression leaves a suffix, with any number of levels left, and so do the method calls after
a target. -/
theorem leavesSuffix_readExpr (levels : Nat) :
    LeavesSuffix (readExpr levels) ∧
      ∀ inner target, LeavesSuffix inner → LeavesSuffix (readChain inner levels target) := by
  -- An expression begins a chain, and each call of a chain has arguments with a level less.
  induction levels with
  | zero =>
    refine ⟨fun cs => List.suffix_rfl, fun inner target hinner cs => ?_⟩
    have hleft := leavesSuffix_readMethod hinner cs
    rw [readChain]
    generalize readMethod inner cs = reply at hleft ⊢
    cases reply with
    | found method rest => exact List.suffix_rfl
    | absent stop => exact List.suffix_rfl
    | failed deep stop => exact hleft
  | succ levels ih =>
    obtain ⟨hexpr, hchain⟩ := ih
    refine ⟨fun cs => ?_, fun inner target hinner cs => ?_⟩
    · rw [readExpr]
      exact left_andThen_suffix (leavesSuffix_readPrimary hexpr cs)
        fun node rest hrest => (hchain _ node hexpr).of_suffix hrest
    · have hleft := leavesSuffix_readMethod hinner cs
      rw [readChain]
      generalize readMethod inner cs = reply at hleft ⊢
      cases reply with
      | found method rest => exact (hchain _ _ hexpr).of_suffix hleft
      | absent stop => exact List.suffix_rfl
      | failed deep stop => exact hleft

/-- An expression that no other one contains leaves a suffix. -/
theorem leavesSuffix_readOuterExpr : LeavesSuffix readOuterExpr :=
  (leavesSuffix_readExpr (maxDepth + 1)).1

/-! ### Scripts -/

/-- A binding leaves a suffix. -/
theorem leavesSuffix_readBinding : LeavesSuffix readBinding := by
  intro cs
  have hkeyword : ((readKeyword "const" cs).orElse fun _ => readKeyword "let" cs).left <:+ cs :=
    left_orElse_suffix (leavesSuffix_readKeyword _ cs) (leavesSuffix_readKeyword _ cs)
  refine left_andThen_suffix hkeyword fun _ rest hrest => ?_
  rw [left_required]
  refine left_andThen_suffix (leavesSuffix_readName.of_suffix ((skip_suffix rest).trans hrest))
    fun name before hbefore => ?_
  refine left_andThen_suffix ((leavesSuffix_readSeparator '=').of_suffix hbefore)
    fun _ start hstart => ?_
  refine left_andThen_suffix (leavesSuffix_readOuterExpr.of_suffix hstart)
    fun value after hafter => ?_
  rw [left_map]
  exact (leavesSuffix_readSeparator ';').of_suffix hafter

/-- A semicolon that is passed leaves a suffix. -/
theorem skipSemicolon_suffix (cs : List Char) : skipSemicolon cs <:+ cs := by
  unfold skipSemicolon
  split
  · next rest => exact List.suffix_cons ';' rest
  · exact List.suffix_rfl

/-- A script leaves a suffix. -/
theorem leavesSuffix_readScript : LeavesSuffix readScript := by
  intro cs
  have hbindings := (leavesSuffix_readMany leavesSuffix_readBinding cs.length).of_suffix
    (skip_suffix cs)
  refine left_andThen_suffix hbindings fun bindings rest hrest => ?_
  have hreturn := (derivesReturn_skipReturn rest).suffix.trans hrest
  refine left_andThen_suffix (leavesSuffix_readOuterExpr.of_suffix hreturn)
    fun body after hafter => ?_
  have hend : skip (skipSemicolon (skip after)) <:+ cs :=
    (skip_suffix _).trans ((skipSemicolon_suffix _).trans ((skip_suffix after).trans hafter))
  split
  · exact List.nil_suffix
  · exact hend

/-! ### Errors -/

/-- The bytes of the characters of a text are its bytes. -/
theorem byteLength_toList (s : String) : byteLength s.toList = s.utf8ByteSize := by
  have hlist (cs : List Char) : byteLength cs = (String.ofList cs).utf8ByteSize := by
    induction cs with
    | nil => rfl
    | cons c cs ih =>
      rw [String.ofList_cons, String.utf8ByteSize_append, String.utf8ByteSize_singleton, ← ih]
      rfl
  rw [hlist, String.ofList_toList]

/-- A message that quotes something does not say that the text ends. -/
theorem message_unexpected {snippet : String} (h : snippet ≠ "") :
    (ReadCause.unexpected snippet).message = "unexpected input near '" ++ snippet ++ "'" ∧
      (ReadCause.unexpected snippet).message ≠ "unexpected end of input" := by
  have hquotes : (ReadCause.unexpected snippet).message =
      "unexpected input near '" ++ snippet ++ "'" := if_neg h
  refine ⟨hquotes, fun hends => ?_⟩
  have hprefix : "unexpected input near '".toList <+: "unexpected end of input".toList := by
    rw [← hends, hquotes, String.toList_append, String.toList_append, List.append_assoc]
    exact List.prefix_append _ _
  exact absurd hprefix (by decide)

/-- Something is quoted of a text unless it is empty. -/
theorem snippet_ne_empty {rest : String} (h : rest ≠ "") :
    String.ofList (rest.toList.take snippetLength) ≠ "" := by
  intro hempty
  have htake : rest.toList.take snippetLength = [] := by
    rw [← String.toList_ofList (l := rest.toList.take snippetLength), hempty]
    rfl
  rcases List.take_eq_nil_iff.mp htake with hzero | hnil
  · cases hzero
  · exact h (String.toList_eq_nil_iff.mp hnil)

/-- The error of a text that cannot be read counts the bytes in front of what the reader leaves. It
quotes the start of that, unless the nesting is to blame. -/
theorem eq_parse_of_ofText {text : String} {e : Error} (h : ofText text = .error e) :
    let stop := (readScript text.toList).left
    ∃ cause, e = .parse (byteLength text.toList - byteLength stop) cause ∧
      (cause = .tooDeep maxDepth ∨
        cause = .unexpected (String.ofList (stop.take snippetLength))) := by
  unfold ofText at h
  dsimp only at h
  split at h
  · cases h
  · next stop hstop =>
    rw [hstop]
    exact ⟨_, (Except.error.inj h).symm, .inr rfl⟩
  · next deep stop hstop =>
    rw [hstop]
    refine ⟨_, (Except.error.inj h).symm, ?_⟩
    cases deep with
    | true => exact .inl rfl
    | false => exact .inr rfl

/-- The reader of scripts leaves an end of the text. -/
theorem exists_append_left (text : String) :
    ∃ before rest, text = before ++ rest ∧ (readScript text.toList).left = rest.toList := by
  obtain ⟨start, hstart⟩ := leavesSuffix_readScript text.toList
  refine ⟨String.ofList start, String.ofList (readScript text.toList).left, ?_,
    String.toList_ofList.symm⟩
  rw [← String.ofList_append, hstart, String.ofList_toList]

/-- The error of a text that cannot be read stands between two parts of the text: its position is
the number of bytes of the first one, so it is the start of a character or the end of the text. The
second one is what the reader leaves, and takes no more bytes than the text. Unless the nesting is
to blame, the message says that the text ends exactly if the error stands at its end, and otherwise
it quotes the first twenty characters from there, or all if there are fewer. -/
theorem position_of_ofText {text : String} {e : Error} (h : ofText text = .error e) :
    ∃ before rest cause, text = before ++ rest ∧ e = .parse before.utf8ByteSize cause ∧
      before.utf8ByteSize ≤ text.utf8ByteSize ∧
      String.Pos.Raw.IsValid text ⟨before.utf8ByteSize⟩ ∧
      (readScript text.toList).left = rest.toList ∧
      byteLength rest.toList ≤ byteLength text.toList ∧
      (cause ≠ .tooDeep maxDepth →
        (cause.message = "unexpected end of input" ↔
          before.utf8ByteSize = text.utf8ByteSize) ∧
        (before.utf8ByteSize ≠ text.utf8ByteSize → cause.message =
          "unexpected input near '" ++ String.ofList (rest.toList.take 20) ++ "'")) := by
  obtain ⟨cause, he, hcause⟩ := eq_parse_of_ofText h
  obtain ⟨before, rest, htext, hleft⟩ := exists_append_left text
  -- What is left is part of the text, so the difference of the bytes cuts nothing off.
  have hbytes : byteLength text.toList = byteLength before.toList + byteLength rest.toList := by
    rw [htext, String.toList_append, byteLength_append]
  have hshorter : byteLength rest.toList ≤ byteLength text.toList :=
    hbytes ▸ Nat.le_add_left _ _
  rw [hleft, hbytes, Nat.add_sub_cancel, byteLength_toList] at he
  rw [hleft] at hcause
  have hsize : text.utf8ByteSize = before.utf8ByteSize + rest.utf8ByteSize := by
    rw [← byteLength_toList, hbytes, byteLength_toList, byteLength_toList]
  have hend : before.utf8ByteSize = text.utf8ByteSize ↔ rest = "" := by
    rw [← String.utf8ByteSize_eq_zero_iff]
    omega
  refine ⟨before, rest, cause, htext, he, by omega,
    String.Pos.Raw.isValid_iff_exists_append.mpr ⟨before, rest, htext, rfl⟩, hleft, hshorter,
    fun hshallow => ?_⟩
  obtain rfl := hcause.resolve_left hshallow
  by_cases hempty : rest = ""
  · have hposition := hend.mpr hempty
    subst hempty
    exact ⟨iff_of_true rfl hposition, fun hbefore => absurd hposition hbefore⟩
  · obtain ⟨hquotes, hnot⟩ := message_unexpected (snippet_ne_empty hempty)
    exact ⟨iff_of_false hnot (mt hend.mp hempty), fun _ => hquotes⟩

/-- An error behind a character of two bytes quotes twenty of the characters that follow. -/
theorem position_of_ofText_accents :
    let text := "f(\"é\") überall und jederzeit"
    ofText text = .error (.parse 8 (.unexpected "überall und jederzei")) ∧
      String.Pos.Raw.IsValid text ⟨8⟩ ∧
      ∃ before rest, text = before ++ rest ∧ before.utf8ByteSize = 8 ∧
        (ReadCause.unexpected "überall und jederzei").message =
          "unexpected input near '" ++ String.ofList (rest.toList.take 20) ++ "'" := by
  intro text
  have hfails : ofText "f(\"é\") überall und jederzeit" =
      .error (.parse 8 (.unexpected "überall und jederzei")) := rfl
  obtain ⟨before, rest, cause, htext, he, -, hvalid, -, -, hmessage⟩ := position_of_ofText hfails
  obtain ⟨hposition, rfl⟩ := Error.parse.inj he
  rw [← hposition] at hvalid hmessage
  obtain ⟨-, hquotes⟩ := hmessage nofun
  exact ⟨hfails, hvalid, before, rest, htext, hposition.symm, hquotes (by decide)⟩

end Script

end FluentSql
