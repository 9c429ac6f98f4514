import FluentSql.Json.Reader
import FluentSql.Json.Writer
import FluentSql.Proofs.Number.Reading

/-!
# Written JSON is read back

The reader takes the text of a value back to the value, if its numbers are natural and its strings
are whole. What matters about the characters after a value is only that no number goes on with them.
-/

namespace FluentSql

namespace Json

mutual

/-- All numbers in the value are natural, and all strings are whole. -/
def Plain : Json → Prop
  | null | boolean _ | natural _ | string _ => True
  | number _ | broken _ => False
  | array items => ListPlain items
  | object members => MembersPlain members

/-- The same of all items. -/
def ListPlain : List Json → Prop
  | [] => True
  | item :: items => item.Plain ∧ ListPlain items

/-- The same of the values of all members. -/
def MembersPlain : List (String × Json) → Prop
  | [] => True
  | (_, value) :: members => value.Plain ∧ MembersPlain members

end

/-! ### Strings -/

/-- A hexadecimal digit has its value. -/
theorem hexValue?_digitChar {n : Nat} (h : n < 16) :
    Numeral.hexValue? (Nat.digitChar n) = some n := by
  have hall : ∀ n < 16, Numeral.hexValue? (Nat.digitChar n) = some n := by decide
  exact hall n h

/-- A mark of one letter is read as its character. -/
theorem unquote_mark {mark c : Char} (hmark : mark ≠ 'u') (h : unescapeChar? mark = some c)
    (cs : List Char) :
    unquote ('\\' :: mark :: cs) =
      (unquote cs).map fun (codes, rest) => (c.toNat :: codes, rest) := by
  have hunquote : unquote ('\\' :: mark :: cs) = do
      let c ← unescapeChar? mark
      let (codes, rest) ← unquote cs
      return (c.toNat :: codes, rest) := by
    rw [unquote]
    rintro _ _ _ _ _ rfl
    exact absurd rfl hmark
  rw [hunquote, h]
  cases unquote cs <;> rfl

/-- A mark with a code is read as the code. -/
theorem unquote_code {a b c d : Char} {code : Nat} (h : hexValue4? a b c d = some code)
    (cs : List Char) :
    unquote ('\\' :: 'u' :: a :: b :: c :: d :: cs) =
      (unquote cs).map fun (codes, rest) => (code :: codes, rest) := by
  rw [unquote, h]
  cases unquote cs <;> rfl

/-- Another character is read as it stands. -/
theorem unquote_plain {c : Char} (hquote : c ≠ '"') (hslash : c ≠ '\\')
    (hcontrol : ¬ c.toNat < 0x20) (cs : List Char) :
    unquote (c :: cs) = (unquote cs).map fun (codes, rest) => (c.toNat :: codes, rest) := by
  rw [unquote, if_neg (by simp [hcontrol, hslash])]
  · cases unquote cs <;> rfl
  · exact hquote
  · exact fun _ _ _ _ _ hmark _ => hslash hmark
  · exact fun _ _ hmark _ => hslash hmark

/-- A character as a string in JSON writes it is read back. -/
theorem unquote_escapeChar (c : Char) (cs : List Char) :
    unquote (escapeChar c ++ cs) =
      (unquote cs).map fun (codes, rest) => (c.toNat :: codes, rest) := by
  unfold escapeChar
  split_ifs with hquote hslash hfeed hreturn htab hback hform hcontrol
  · subst hquote
    exact unquote_mark (by decide) rfl cs
  · subst hslash
    exact unquote_mark (by decide) rfl cs
  · subst hfeed
    exact unquote_mark (by decide) rfl cs
  · subst hreturn
    exact unquote_mark (by decide) rfl cs
  · subst htab
    exact unquote_mark (by decide) rfl cs
  · have hmark : 'b' ≠ 'u' := by decide
    rw [hback]
    exact unquote_mark hmark rfl cs
  · have hmark : 'f' ≠ 'u' := by decide
    rw [hform]
    exact unquote_mark hmark rfl cs
  · have hzero : Numeral.hexValue? '0' = some 0 := rfl
    have hhigh := hexValue?_digitChar (by omega : c.toNat / 16 < 16)
    have hlow := hexValue?_digitChar (by omega : c.toNat % 16 < 16)
    refine unquote_code ?_ cs
    rw [hexValue4?, hzero, hhigh, hlow]
    exact congrArg some (by omega)
  · exact unquote_plain hquote hslash hcontrol cs

/-- A text as a string in JSON writes it is read back to its codes. -/
theorem unquote_escaped (s rest : List Char) :
    unquote (s.flatMap escapeChar ++ '"' :: rest) = some (s.map Char.toNat, rest) := by
  induction s with
  | nil => rw [List.flatMap_nil, List.nil_append, unquote, List.map_nil]
  | cons c s ih => simp [unquote_escapeChar, ih]

/-- A character is no half of a surrogate pair. -/
theorem not_isSurrogate (c : Char) :
    isHighSurrogate c.toNat = false ∧ isLowSurrogate c.toNat = false := by
  have hvalid : c.toNat < 0xD800 ∨ 0xDFFF < c.toNat ∧ c.toNat < 0x110000 := c.valid
  simp only [isHighSurrogate, isLowSurrogate, Bool.and_eq_false_iff, decide_eq_false_iff_not]
  omega

/-- The codes of characters stand for the characters. -/
theorem ofCodes_map_toNat (s : List Char) : ofCodes (s.map Char.toNat) = some s := by
  induction s with
  | nil => rfl
  | cons c s ih =>
    obtain ⟨hhigh, hlow⟩ := not_isSurrogate c
    cases s with
    | nil => simp [ofCodes, hhigh, hlow, Char.ofNat_toNat]
    | cons d s =>
      rw [List.map_cons] at ih
      simp [ofCodes, hhigh, hlow, ih, Char.ofNat_toNat]

/-- A written string is read. -/
theorem readString_quoted (s : String) (rest : List Char) :
    readString ((quoted s).toList ++ rest) = some (some s, rest) := by
  rw [quoted, String.toList_ofList, List.cons_append, List.cons_append, readString,
    List.append_assoc, List.singleton_append, unquote_escaped]
  change some ((ofCodes (s.toList.map Char.toNat)).map String.ofList, rest) = _
  rw [ofCodes_map_toNat, Option.map_some, String.ofList_toList]

/-! ### Numbers -/

/-- No number goes on with the characters. -/
def EndsValue (rest : List Char) : Prop :=
  ∀ c ∈ rest.head?, c = ',' ∨ c = '\n'

/-- Only zero is written with a zero in front. -/
theorem head?_toDigits {n : Nat} (hn : 0 < n) : (Nat.toDigits 10 n).head? ≠ some '0' := by
  induction n using Nat.strong_induction_on with
  | h n ih =>
    by_cases hlt : n < 10
    · have hall : ∀ n < 10, 0 < n → [Nat.digitChar n].head? ≠ some '0' := by decide
      rw [Nat.toDigits_of_lt_base hlt]
      exact hall n hlt hn
    · have hdiv : 0 < n / 10 := by omega
      have hhead := ih (n / 10) (by omega) hdiv
      rw [Nat.toDigits_of_base_le (by decide) (by omega)]
      cases hdigits : Nat.toDigits 10 (n / 10) with
      | nil => exact absurd hdigits Nat.toDigits_ne_nil
      | cons c cs => simpa [hdigits] using hhead

/-- The digits of a natural number are read up to their end. -/
theorem readWhole_toDigits (n : Nat) {rest : List Char}
    (hrest : ∀ c ∈ rest.head?, c.isDigit = false) :
    readWhole (Nat.toDigits 10 n ++ rest) = some (Nat.toDigits 10 n, rest) := by
  obtain ⟨hne, hdigit⟩ := Numeral.isDigits_toDigits n
  obtain ⟨htake, hdrop⟩ := Text.run_append hdigit hrest
  by_cases hn : n = 0
  · subst hn
    rfl
  · have hhead := head?_toDigits (Nat.pos_of_ne_zero hn)
    unfold readWhole
    split
    · next heq =>
      obtain ⟨c, cs, hcs⟩ := List.exists_cons_of_ne_nil hne
      rw [hcs] at heq hhead
      exact absurd (congrArg some (List.cons.inj heq).1) hhead
    · rw [readDigits, htake, hdrop]
      split
      · next hnil => exact absurd hnil hne
      · rfl

/-- A written natural number is read. -/
theorem readNumber_natural (n : Nat) {rest : List Char} (hrest : EndsValue rest) :
    readNumber ((toString n).toList ++ rest) = some (natural n, rest) := by
  have htext : (toString n).toList = Nat.toDigits 10 n := by
    rw [Nat.toString_eq_repr, Nat.toList_repr]
  have hend : startsFraction rest = false := by
    cases rest with
    | nil => rfl
    | cons c rest => rcases hrest c rfl with rfl | rfl <;> rfl
  have hwhole : readWhole (Nat.toDigits 10 n ++ rest) = some (Nat.toDigits 10 n, rest) := by
    refine readWhole_toDigits n fun c hc => ?_
    rcases hrest c hc with rfl | rfl <;> rfl
  have hsign : ∀ tail, Nat.toDigits 10 n ++ rest ≠ '-' :: tail := by
    intro tail heq
    obtain ⟨hne, hdigit⟩ := Numeral.isDigits_toDigits n
    obtain ⟨c, cs, hcs⟩ := List.exists_cons_of_ne_nil hne
    rw [hcs] at heq hdigit
    have hminus := hdigit c List.mem_cons_self
    rw [(List.cons.inj heq).1] at hminus
    cases hminus
  rw [htext]
  unfold readNumber
  split
  next negative unsigned hsplit =>
    split at hsplit
    · next heq => exact absurd heq (hsign _)
    · obtain ⟨rfl, rfl⟩ := Prod.mk.inj hsplit
      rw [hwhole]
      simp [hend]

/-! ### Values -/

/-- The characters of items after the first one, each on a line with the margin of a depth, and of
what ends them. -/
def following (depth : Nat) (ending : List Char) : List String → List Char
  | [] => ending
  | item :: items =>
    ',' :: '\n' :: ((margin depth).toList ++ (item.toList ++ following depth ending items))

/-- The characters that end items: the closing bracket on a line of its own, and what follows it. -/
def closing (depth : Nat) (bracket : String) (rest : List Char) : List Char :=
  '\n' :: ((margin depth).toList ++ (bracket.toList ++ rest))

/-- Items are written one after the other. -/
theorem toList_intercalate (depth : Nat) (ending : List Char) (item : String)
    (items : List String) :
    (",\n".intercalate ((item :: items).map (margin depth ++ ·))).toList ++ ending =
      (margin depth).toList ++ (item.toList ++ following depth ending items) := by
  induction items generalizing item with
  | nil => simp [following]
  | cons next items ih =>
    rw [List.map_cons, List.map_cons, String.intercalate_cons_cons, String.toList_append,
      String.toList_append, List.append_assoc, List.append_assoc]
    have hrest := ih next
    rw [List.map_cons] at hrest
    rw [hrest]
    simp [following]

/-- Items are written between brackets, each on a line of its own. -/
theorem toList_block (depth : Nat) (opening bracket item : String) (items : List String)
    (rest : List Char) :
    (block depth opening bracket (item :: items)).toList ++ rest =
      opening.toList ++ '\n' :: ((margin (depth + 1)).toList ++
        (item.toList ++ following (depth + 1) (closing depth bracket rest) items)) := by
  rw [← toList_intercalate]
  simp [block, closing]

/-- No items are brackets alone. -/
theorem toList_block_nil (depth : Nat) (opening bracket : String) :
    (block depth opening bracket []).toList = opening.toList ++ bracket.toList := by
  rw [block, List.isEmpty_nil, if_pos rfl, String.toList_append]

/-- A value starts with neither a space nor a closing bracket. -/
def StartsValue (cs : List Char) : Prop :=
  ∃ c tail, cs = c :: tail ∧ Text.isSpace c = false ∧ c ≠ ']' ∧ c ≠ '}'

/-- What follows does not matter. -/
theorem StartsValue.append {cs : List Char} (h : StartsValue cs) (rest : List Char) :
    StartsValue (cs ++ rest) := by
  obtain ⟨c, tail, rfl, hc⟩ := h
  exact ⟨c, tail ++ rest, rfl, hc⟩

/-- The end of a line and the margin after it are skipped up to another character. -/
theorem skip_margin (depth : Nat) {c : Char} (hc : Text.isSpace c = false) (tail : List Char) :
    skip ('\n' :: ((margin depth).toList ++ c :: tail)) = c :: tail := by
  have hspace : ∀ d ∈ '\n' :: (margin depth).toList, Text.isSpace d = true := by
    intro d hd
    rw [margin, String.toList_ofList, List.mem_cons, List.mem_replicate] at hd
    rcases hd with rfl | ⟨-, rfl⟩ <;> rfl
  rw [← List.cons_append, skip, List.dropWhile_append_of_pos hspace,
    List.dropWhile_cons_of_neg (by simp [hc])]

/-- The margin in front of a value is skipped. -/
theorem StartsValue.skip_margin {cs : List Char} (h : StartsValue cs) (depth : Nat) :
    skip ('\n' :: ((margin depth).toList ++ cs)) = cs := by
  obtain ⟨c, tail, rfl, hc, -⟩ := h
  exact Json.skip_margin depth hc tail

/-- A written string starts a value. -/
theorem startsValue_quoted (s : String) : StartsValue (quoted s).toList :=
  ⟨'"', _, by rw [quoted, String.toList_ofList]; rfl, by decide⟩

/-- What stands between brackets starts a value if its opening bracket does. -/
theorem startsValue_block {opening : String} (h : StartsValue opening.toList) (depth : Nat)
    (bracket : String) (items : List String) :
    StartsValue (block depth opening bracket items).toList := by
  cases items with
  | nil =>
    rw [toList_block_nil]
    exact h.append _
  | cons item items =>
    have hblock := toList_block depth opening bracket item items []
    rw [List.append_nil] at hblock
    rw [hblock]
    exact h.append _

/-- A written natural number is a digit and more. -/
theorem exists_toString_eq (n : Nat) :
    ∃ c tail, (toString n).toList = c :: tail ∧ c.isDigit = true := by
  obtain ⟨hne, hdigit⟩ := Numeral.isDigits_toDigits n
  obtain ⟨c, cs, hcs⟩ := List.exists_cons_of_ne_nil hne
  rw [Nat.toString_eq_repr, Nat.toList_repr, hcs]
  exact ⟨c, cs, rfl, hdigit c (hcs ▸ List.mem_cons_self)⟩

/-- A digit is neither a space nor a closing bracket. -/
theorem ne_of_isDigit {c : Char} (h : c.isDigit = true) :
    Text.isSpace c = false ∧ c ≠ ']' ∧ c ≠ '}' := by
  refine ⟨?_, ?_, ?_⟩
  · rw [Bool.eq_false_iff]
    intro hspace
    simp only [Text.isSpace, Bool.or_eq_true, beq_iff_eq] at hspace
    rcases hspace with ((rfl | rfl) | rfl) | rfl <;> cases h
  · rintro rfl
    cases h
  · rintro rfl
    cases h

/-- What starts with a digit is a number. -/
theorem readValue_digit (bound : Nat) {c : Char} (h : c.isDigit = true) (cs : List Char) :
    readValue (bound + 1) (c :: cs) = readNumber (c :: cs) := by
  unfold readValue
  split <;> simp_all

/-- A written string is read as a value. -/
theorem readValue_quoted (bound : Nat) (s : String) (rest : List Char) :
    readValue (bound + 1) ((quoted s).toList ++ rest) = some (string s, rest) := by
  have hread := readString_quoted s rest
  obtain ⟨tail, htail⟩ : ∃ tail, (quoted s).toList ++ rest = '"' :: tail :=
    ⟨_, by rw [quoted, String.toList_ofList]; rfl⟩
  rw [htail] at hread ⊢
  rw [readValue, hread]
  rfl

/-- An array is read if its items are. -/
theorem readValue_array {bound : Nat} {cs rest : List Char} {items : List Json}
    (hstart : StartsValue cs) (depth : Nat) (h : readItems bound cs = some (items, rest)) :
    readValue (bound + 1) ('[' :: '\n' :: ((margin depth).toList ++ cs)) =
      some (array items, rest) := by
  rw [readValue, hstart.skip_margin]
  obtain ⟨c, tail, rfl, -, hc, -⟩ := hstart
  split
  · next heq => exact absurd (List.cons.inj heq).1 hc
  · rw [h]
    rfl

/-- The members with the names that a reader finds. -/
def named (members : List (String × Json)) : List (Option String × Json) :=
  members.map fun (name, value) => (some name, value)

/-- Members with names are the members of an object. -/
theorem ofMembers_named (rest cs : List Char) (members : List (String × Json)) :
    ofMembers rest cs (named members) = object members := by
  have hmembers (f : Option String × Json → Option (String × Json))
      (hname : ∀ name value, f (some name, value) = some (name, value)) :
      (named members).mapM f = some members := by
    induction members with
    | nil => rfl
    | cons member members ih =>
      rw [named, List.map_cons, List.mapM_cons, ← named, ih, hname]
      rfl
  rw [ofMembers, hmembers]
  exact fun _ _ => rfl

/-- An object is read if its members are, and if they have names. -/
theorem readValue_object {bound : Nat} {cs rest : List Char} {members : List (String × Json)}
    (hstart : StartsValue cs) (depth : Nat)
    (h : readMembers bound cs = some (named members, rest)) :
    readValue (bound + 1) ('{' :: '\n' :: ((margin depth).toList ++ cs)) =
      some (object members, rest) := by
  rw [readValue, hstart.skip_margin]
  obtain ⟨c, tail, rfl, -, -, hc⟩ := hstart
  split
  · next heq => exact absurd (List.cons.inj heq).1 hc
  · rw [h]
    exact congrArg (fun j => some (j, rest)) (ofMembers_named rest _ members)

/-- What follows an item ends it. -/
theorem endsValue_following (depth outer : Nat) (bracket : String) (items : List String)
    (rest : List Char) : EndsValue (following depth (closing outer bracket rest) items) := by
  cases items with
  | nil =>
    rintro c ⟨⟩
    exact .inr rfl
  | cons item items =>
    rintro c ⟨⟩
    exact .inl rfl

/-- The closing bracket is what is left after spaces. -/
theorem skip_closing {bracket : String} {c : Char} (hbracket : bracket.toList = [c])
    (hc : Text.isSpace c = false) (depth : Nat) (rest : List Char) :
    skip (closing depth bracket rest) = c :: rest := by
  rw [closing, hbracket]
  exact skip_margin depth hc rest

/-- The space in front of the value of a member is skipped. -/
theorem StartsValue.skip_space {cs : List Char} (h : StartsValue cs) : skip (' ' :: cs) = cs := by
  obtain ⟨c, tail, rfl, hc, -⟩ := h
  rw [skip, List.dropWhile_cons_of_pos rfl, List.dropWhile_cons_of_neg (by simp [hc])]

/-- The last item ends with the closing bracket. -/
theorem readItems_last {bound : Nat} {cs after rest : List Char} {item : Json}
    (hitem : readValue bound cs = some (item, after)) (hafter : skip after = ']' :: rest) :
    readItems (bound + 1) cs = some ([item], rest) := by
  rw [readItems, hitem]
  simp only [Option.bind_eq_bind, Option.bind_some]
  rw [hafter]
  rfl

/-- After a comma are more items. -/
theorem readItems_comma {bound : Nat} {cs after rest : List Char} {item : Json}
    {items : List Json} (hitem : readValue bound cs = some (item, ',' :: after))
    (hitems : readItems bound (skip after) = some (items, rest)) :
    readItems (bound + 1) cs = some (item :: items, rest) := by
  have hcomma : skip (',' :: after) = ',' :: after := rfl
  rw [readItems, hitem]
  simp only [Option.bind_eq_bind, Option.bind_some]
  rw [hcomma]
  simp only [hitems, Option.bind_some]
  rfl

/-- The last member ends with the closing bracket. -/
theorem readMembers_last {bound : Nat} {cs between after rest : List Char} {name : String}
    {value : Json} (hname : readString cs = some (some name, ':' :: between))
    (hvalue : readValue bound (skip between) = some (value, after))
    (hafter : skip after = '}' :: rest) :
    readMembers (bound + 1) cs = some (named [(name, value)], rest) := by
  have hcolon : skip (':' :: between) = ':' :: between := rfl
  rw [readMembers, hname]
  simp only [Option.bind_eq_bind, Option.bind_some]
  rw [hcolon]
  simp only [hvalue, Option.bind_some]
  rw [hafter]
  rfl

/-- After a comma are more members. -/
theorem readMembers_comma {bound : Nat} {cs between after rest : List Char} {name : String}
    {value : Json} {members : List (String × Json)}
    (hname : readString cs = some (some name, ':' :: between))
    (hvalue : readValue bound (skip between) = some (value, ',' :: after))
    (hmembers : readMembers bound (skip after) = some (named members, rest)) :
    readMembers (bound + 1) cs = some (named ((name, value) :: members), rest) := by
  have hcolon : skip (':' :: between) = ':' :: between := rfl
  have hcomma : skip (',' :: after) = ',' :: after := rfl
  rw [readMembers, hname]
  simp only [Option.bind_eq_bind, Option.bind_some]
  rw [hcolon]
  simp only [hvalue, Option.bind_some]
  rw [hcomma]
  simp only [hmembers, Option.bind_some]
  rfl

/-- The value is read back from its text at every depth, whatever ends it. -/
structure Readable (j : Json) : Prop where
  starts : ∀ depth, StartsValue (write depth j).toList
  readValue_eq : ∀ depth {bound : Nat} {rest : List Char}, EndsValue rest →
    ((write depth j).toList ++ rest).length < bound →
      readValue bound ((write depth j).toList ++ rest) = some (j, rest)

/-- Written items are read back up to the closing bracket. -/
theorem readItems_write {item : Json} {items : List Json} (h : ∀ j ∈ item :: items, Readable j)
    (depth outer : Nat) {bound : Nat} {rest : List Char}
    (hbound : ((write depth item).toList ++
      following depth (closing outer "]" rest) (writeItems depth items)).length + 1 < bound) :
    readItems bound ((write depth item).toList ++
      following depth (closing outer "]" rest) (writeItems depth items)) =
        some (item :: items, rest) := by
  induction items generalizing item bound with
  | nil =>
    obtain ⟨bound, rfl⟩ := Nat.exists_eq_add_one_of_ne_zero (Nat.ne_zero_of_lt hbound)
    have hread := (h item List.mem_cons_self).readValue_eq depth
      (endsValue_following depth outer "]" _ rest) (Nat.lt_of_succ_lt_succ hbound)
    exact readItems_last hread (skip_closing rfl rfl outer rest)
  | cons next items ih =>
    obtain ⟨bound, rfl⟩ := Nat.exists_eq_add_one_of_ne_zero (Nat.ne_zero_of_lt hbound)
    obtain ⟨hitem, hitems⟩ := List.forall_mem_cons.1 h
    have hread := hitem.readValue_eq depth
      (endsValue_following depth outer "]" _ rest) (Nat.lt_of_succ_lt_succ hbound)
    have hstart := ((hitems next List.mem_cons_self).starts depth).append
      (following depth (closing outer "]" rest) (writeItems depth items))
    rw [writeItems, following] at hread hbound ⊢
    refine readItems_comma hread ?_
    rw [hstart.skip_margin]
    refine ih hitems ?_
    simp only [List.length_append, List.length_cons] at hbound ⊢
    omega

/-- The characters of a member: its name, a colon and its value. -/
def memberChars (depth : Nat) (name : String) (value : Json) (ending : List Char) : List Char :=
  (quoted name).toList ++ ':' :: ' ' :: ((write depth value).toList ++ ending)

/-- A member is written as its characters. -/
theorem toList_member (depth : Nat) (name : String) (value : Json) (ending : List Char) :
    (quoted name ++ ": " ++ write depth value).toList ++ ending =
      memberChars depth name value ending := by
  simp [memberChars]

/-- The name of a member is read, and the value after it. -/
theorem Readable.readMember {value : Json} (h : Readable value) (depth : Nat) (name : String)
    {bound : Nat} {ending : List Char} (hending : EndsValue ending)
    (hbound : (memberChars depth name value ending).length < bound) :
    ∃ between, readString (memberChars depth name value ending) =
        some (some name, ':' :: between) ∧
      readValue bound (skip between) = some (value, ending) := by
  refine ⟨_, readString_quoted name _, ?_⟩
  rw [((h.starts depth).append ending).skip_space]
  refine h.readValue_eq depth hending ?_
  simp only [memberChars, List.length_append, List.length_cons] at hbound ⊢
  omega

/-- Written members are read back up to the closing bracket. -/
theorem readMembers_write {name : String} {value : Json} {members : List (String × Json)}
    (h : ∀ member ∈ (name, value) :: members, Readable member.2) (depth outer : Nat)
    {bound : Nat} {rest : List Char}
    (hbound : (memberChars depth name value
      (following depth (closing outer "\x7d" rest) (writeMembers depth members))).length + 1 <
        bound) :
    readMembers bound (memberChars depth name value
      (following depth (closing outer "\x7d" rest) (writeMembers depth members))) =
        some (named ((name, value) :: members), rest) := by
  induction members generalizing name value bound with
  | nil =>
    obtain ⟨bound, rfl⟩ := Nat.exists_eq_add_one_of_ne_zero (Nat.ne_zero_of_lt hbound)
    obtain ⟨between, hname, hvalue⟩ := (h (name, value) List.mem_cons_self).readMember depth name
      (endsValue_following depth outer "\x7d" _ rest) (Nat.lt_of_succ_lt_succ hbound)
    exact readMembers_last hname hvalue (skip_closing rfl rfl outer rest)
  | cons member members ih =>
    obtain ⟨next, value'⟩ := member
    obtain ⟨bound, rfl⟩ := Nat.exists_eq_add_one_of_ne_zero (Nat.ne_zero_of_lt hbound)
    obtain ⟨hmember, hmembers⟩ := List.forall_mem_cons.1 h
    obtain ⟨between, hname, hvalue⟩ := hmember.readMember depth name
      (endsValue_following depth outer "\x7d" _ rest) (Nat.lt_of_succ_lt_succ hbound)
    have hstart := (startsValue_quoted next).append (':' :: ' ' :: ((write depth value').toList ++
      following depth (closing outer "\x7d" rest) (writeMembers depth members)))
    rw [writeMembers, following, toList_member] at hname hvalue hbound ⊢
    refine readMembers_comma hname hvalue ?_
    rw [memberChars, hstart.skip_margin, ← memberChars]
    refine ih hmembers ?_
    simp only [memberChars, List.length_append, List.length_cons] at hbound ⊢
    omega

/-- A written array is read back if its items are. -/
theorem readable_array {items : List Json} (h : ∀ j ∈ items, Readable j) :
    Readable (array items) where
  starts depth := by
    rw [write]
    exact startsValue_block ⟨'[', [], rfl, by decide⟩ depth _ _
  readValue_eq depth bound rest _ hbound := by
    obtain ⟨bound, rfl⟩ := Nat.exists_eq_add_one_of_ne_zero (Nat.ne_zero_of_lt hbound)
    have hbracket : "[".toList = ['['] := rfl
    cases items with
    | nil =>
      rw [write, writeItems, toList_block_nil]
      rfl
    | cons item items =>
      have hstart := ((h item List.mem_cons_self).starts (depth + 1)).append
        (following (depth + 1) (closing depth "]" rest) (writeItems (depth + 1) items))
      rw [write, writeItems, toList_block, hbracket] at hbound ⊢
      refine readValue_array hstart (depth + 1) (readItems_write h (depth + 1) depth ?_)
      simp only [List.length_append, List.length_cons, List.length_nil] at hbound ⊢
      omega

/-- A written object is read back if the values of its members are. -/
theorem readable_object {members : List (String × Json)}
    (h : ∀ member ∈ members, Readable member.2) : Readable (object members) where
  starts depth := by
    rw [write]
    exact startsValue_block ⟨'\x7b', [], rfl, by decide⟩ depth _ _
  readValue_eq depth bound rest _ hbound := by
    obtain ⟨bound, rfl⟩ := Nat.exists_eq_add_one_of_ne_zero (Nat.ne_zero_of_lt hbound)
    have hbracket : "\x7b".toList = ['{'] := rfl
    cases members with
    | nil =>
      rw [write, writeMembers, toList_block_nil]
      rfl
    | cons member members =>
      obtain ⟨name, value⟩ := member
      have hstart := (startsValue_quoted name).append
        (':' :: ' ' :: ((write (depth + 1) value).toList ++ following (depth + 1)
          (closing depth "\x7d" rest) (writeMembers (depth + 1) members)))
      rw [write, writeMembers, toList_block, hbracket, toList_member] at hbound ⊢
      refine readValue_object hstart (depth + 1) (readMembers_write h (depth + 1) depth ?_)
      simp only [List.length_append, List.length_cons, List.length_nil] at hbound ⊢
      omega

/-- A written natural number is read back. -/
theorem readable_natural (n : Nat) : Readable (natural n) where
  starts depth := by
    obtain ⟨c, tail, heq, hc⟩ := exists_toString_eq n
    rw [write]
    exact ⟨c, tail, heq, ne_of_isDigit hc⟩
  readValue_eq depth bound rest hrest hbound := by
    obtain ⟨bound, rfl⟩ := Nat.exists_eq_add_one_of_ne_zero (Nat.ne_zero_of_lt hbound)
    obtain ⟨c, tail, heq, hc⟩ := exists_toString_eq n
    have hread := readNumber_natural n hrest
    rw [heq] at hread
    rw [write, heq, List.cons_append, readValue_digit bound hc]
    exact hread

/-- A written string is read back. -/
theorem readable_string (s : String) : Readable (string s) where
  starts depth := by
    rw [write]
    exact startsValue_quoted s
  readValue_eq depth bound rest _ hbound := by
    obtain ⟨bound, rfl⟩ := Nat.exists_eq_add_one_of_ne_zero (Nat.ne_zero_of_lt hbound)
    rw [write]
    exact readValue_quoted bound s rest

/-- A written word is read back. -/
theorem readable_boolean (b : Bool) : Readable (boolean b) where
  starts depth := by
    rw [write]
    cases b with
    | false => exact ⟨'f', _, rfl, by decide⟩
    | true => exact ⟨'t', _, rfl, by decide⟩
  readValue_eq depth bound rest _ hbound := by
    obtain ⟨bound, rfl⟩ := Nat.exists_eq_add_one_of_ne_zero (Nat.ne_zero_of_lt hbound)
    rw [write]
    cases b <;> rfl

/-- The written word for no value is read back. -/
theorem readable_null : Readable null where
  starts depth := by
    rw [write]
    exact ⟨'n', _, rfl, by decide⟩
  readValue_eq depth bound rest _ hbound := by
    obtain ⟨bound, rfl⟩ := Nat.exists_eq_add_one_of_ne_zero (Nat.ne_zero_of_lt hbound)
    rw [write]
    rfl

mutual

/-- Written values are read back. -/
theorem Plain.readable {j : Json} (hj : j.Plain) : Readable j := by
  cases j with
  | null => exact readable_null
  | boolean b => exact readable_boolean b
  | natural n => exact readable_natural n
  | string s => exact readable_string s
  | number | broken => cases hj
  | array items => exact readable_array (ListPlain.readable hj)
  | object members => exact readable_object (MembersPlain.readable hj)

/-- Written items are read back. -/
theorem ListPlain.readable {items : List Json} (h : ListPlain items) :
    ∀ j ∈ items, Readable j := by
  cases items with
  | nil => exact fun _ hj => absurd hj List.not_mem_nil
  | cons item items => exact List.forall_mem_cons.2 ⟨h.1.readable, ListPlain.readable h.2⟩

/-- The written values of members are read back. -/
theorem MembersPlain.readable {members : List (String × Json)} (h : MembersPlain members) :
    ∀ member ∈ members, Readable member.2 := by
  match members, h with
  | [], _ => exact fun _ hmember => absurd hmember List.not_mem_nil
  | (name, value) :: members, h =>
    exact List.forall_mem_cons.2 ⟨Plain.readable h.1, MembersPlain.readable h.2⟩

end

/-- The text of a value is read back to the value. -/
theorem ofText?_toText {j : Json} (hj : j.Plain) : ofText? j.toText = some j := by
  have hread : readValue (j.toText.toList.length + 1) (j.toText.toList ++ []) = some (j, []) := by
    refine hj.readable.readValue_eq 0 nofun ?_
    rw [List.append_nil]
    exact Nat.lt_succ_self _
  obtain ⟨c, tail, heq, hc, -⟩ := hj.readable.starts 0
  have hskip : skip j.toText.toList = j.toText.toList := by
    rw [toText, heq, skip, List.dropWhile_cons_of_neg (by simp [hc])]
  rw [List.append_nil] at hread
  rw [ofText?, hskip]
  simp only
  rw [hread]
  rfl

end Json
end FluentSql
