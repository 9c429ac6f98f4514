import FluentSql.Proofs.Number.Reading
import FluentSql.Text.Name

/-!
# Lexemes of SQL

SQL is read as words, numbers, texts between single quotes, names between double quotes, and marks.
A quote that is written twice between quotes stands for itself. Comments are not read.
-/

namespace FluentSql

/-- What SQL is read as, piece by piece. -/
inductive Lexeme
  /-- A keyword or a bare name. -/
  | word (text : String)
  /-- A name between double quotes. -/
  | quoted (name : String)
  /-- A text between single quotes. -/
  | string (value : String)
  /-- A number without a sign. -/
  | number (value : Numeral)
  /-- A mark. -/
  | mark (c : Char)
deriving DecidableEq

namespace Lexeme

/-! ### The reader -/

/-- The character is a mark. -/
def isMark (c : Char) : Bool :=
  "()[],;:.*/%+-<=>|^?".toList.contains c

/-- A comment starts with the two characters. -/
def startsComment (c : Char) (cs : List Char) : Bool :=
  (c == '-' && cs.head? == some '-') || (c == '/' && cs.head? == some '*')

/-- Takes the text up to the closing quote, which is the first one that is not written twice. -/
def takeEnclosed (quote : Char) : List Char → Option (List Char × List Char)
  | [] => none
  | [c] => if c = quote then some ([], []) else none
  | c :: d :: cs =>
    if c ≠ quote then (takeEnclosed quote (d :: cs)).map fun (text, rest) => (c :: text, rest)
    else if d ≠ quote then some ([], d :: cs)
    else (takeEnclosed quote cs).map fun (text, rest) => (quote :: text, rest)

/-- Takes the lexeme that starts with the character. -/
def take (c : Char) (cs : List Char) : Option (Lexeme × List Char) :=
  if c = '\'' then
    (takeEnclosed c cs).map fun (text, rest) => (.string (String.ofList text), rest)
  else if c = '"' then
    (takeEnclosed c cs).map fun (text, rest) => (.quoted (String.ofList text), rest)
  else if Text.isNameStart c then
    some (.word (String.ofList (c :: cs.takeWhile Text.isNameChar)), cs.dropWhile Text.isNameChar)
  else if c.isDigit then
    (Numeral.scan (c :: cs)).map fun (n, rest) => (.number n, rest)
  else if isMark c && !startsComment c cs then some (.mark c, cs)
  else none

/-- What is left after a closing quote is shorter. -/
theorem length_of_takeEnclosed {quote : Char} {cs text rest : List Char}
    (h : takeEnclosed quote cs = some (text, rest)) : rest.length < cs.length := by
  fun_induction takeEnclosed quote cs generalizing text with
  | case1 => cases h
  | case2 =>
    obtain ⟨-, rfl⟩ := Prod.mk.inj (Option.some.inj h)
    exact Nat.zero_lt_one
  | case3 => cases h
  | case4 c d cs _ ih =>
    obtain ⟨⟨inner, after⟩, htake, heq⟩ := Option.map_eq_some_iff.mp h
    obtain ⟨-, rfl⟩ := Prod.mk.inj heq
    exact Nat.lt_succ_of_lt (ih htake)
  | case5 c d cs =>
    obtain ⟨-, rfl⟩ := Prod.mk.inj (Option.some.inj h)
    exact Nat.lt_succ_self _
  | case6 c d cs _ _ ih =>
    obtain ⟨⟨inner, after⟩, htake, heq⟩ := Option.map_eq_some_iff.mp h
    obtain ⟨-, rfl⟩ := Prod.mk.inj heq
    exact Nat.lt_succ_of_lt (Nat.lt_succ_of_lt (ih htake))

/-- What is left does not depend on what becomes of the part that is taken. -/
theorem length_of_map {α : Type} {f : α × List Char → Lexeme × List Char}
    {result : Option (α × List Char)} {t : Lexeme} {rest : List Char} {bound : Nat}
    (h : result.map f = some (t, rest)) (hf : ∀ p, (f p).2 = p.2)
    (hresult : ∀ a after, result = some (a, after) → after.length < bound) :
    rest.length < bound := by
  obtain ⟨⟨a, after⟩, hsome, heq⟩ := Option.map_eq_some_iff.mp h
  have hafter := hf (a, after)
  rw [heq] at hafter
  obtain rfl : rest = after := hafter
  exact hresult a rest hsome

/-- What is left after a lexeme is shorter. -/
theorem length_of_take {c : Char} {cs rest : List Char} {t : Lexeme}
    (h : take c cs = some (t, rest)) : rest.length < (c :: cs).length := by
  unfold take at h
  split at h
  · refine length_of_map h (fun _ => rfl) fun text after htake => ?_
    exact Nat.lt_succ_of_lt (length_of_takeEnclosed htake)
  split at h
  · refine length_of_map h (fun _ => rfl) fun text after htake => ?_
    exact Nat.lt_succ_of_lt (length_of_takeEnclosed htake)
  split at h
  · obtain ⟨-, rfl⟩ := Prod.mk.inj (Option.some.inj h)
    exact Nat.lt_succ_of_le (List.dropWhile_suffix _).length_le
  split at h
  · refine length_of_map h (fun _ => rfl) fun n after hscan => ?_
    obtain ⟨text, hwrites, heq⟩ := Numeral.eq_append_of_scan hscan
    have hpos := hwrites.length_pos
    rw [heq, List.length_append]
    omega
  split at h
  · obtain ⟨-, rfl⟩ := Prod.mk.inj (Option.some.inj h)
    exact Nat.lt_succ_self _
  · cases h

/-- Reads SQL as lexemes, if it is nothing but lexemes with blanks between them. -/
def lex : List Char → Option (List Lexeme)
  | [] => some []
  | c :: cs =>
    if c.isWhitespace then lex cs
    else
      match _ : take c cs with
      | none => none
      | some (t, rest) => (lex rest).map (t :: ·)
termination_by cs => cs.length
decreasing_by
  · exact Nat.lt_succ_self _
  · exact length_of_take ‹_›

/-! ### What is read -/

/-- A blank is passed over. -/
theorem lex_blank {c : Char} (h : c.isWhitespace = true) (cs : List Char) :
    lex (c :: cs) = lex cs := by
  rw [lex, if_pos h]

/-- A lexeme that is taken is read. -/
theorem lex_of_take {c : Char} {cs rest : List Char} {t : Lexeme} (hblank : c.isWhitespace = false)
    (h : take c cs = some (t, rest)) : lex (c :: cs) = (lex rest).map (t :: ·) := by
  rw [lex, hblank, if_neg Bool.false_ne_true]
  split
  · next hnone =>
    rw [hnone] at h
    cases h
  · next hsome =>
    obtain ⟨rfl, rfl⟩ := Prod.mk.inj (Option.some.inj (hsome.symm.trans h))
    rfl

/-- A mark is not taken for anything else. -/
theorem plain_of_isMark {c : Char} (h : isMark c = true) :
    c.isWhitespace = false ∧ c ≠ '\'' ∧ c ≠ '"' ∧ Text.isNameStart c = false ∧
      c.isDigit = false := by
  have hall : "()[],;:.*/%+-<=>|^?".toList.all (fun c => !c.isWhitespace && c != '\'' && c != '"' &&
      !Text.isNameStart c && !c.isDigit) = true := by decide
  have hc := List.all_eq_true.mp hall c (by simpa [isMark] using h)
  simpa [and_assoc] using hc

/-- A mark is read where no comment starts. -/
theorem lex_mark {c : Char} {cs : List Char} (h : isMark c = true)
    (hcomment : startsComment c cs = false) : lex (c :: cs) = (lex cs).map (mark c :: ·) := by
  obtain ⟨hblank, hsingle, hdouble, hname, hdigit⟩ := plain_of_isMark h
  apply lex_of_take hblank
  simp [take, hsingle, hdouble, hname, hdigit, h, hcomment]

/-- A character of a name is neither a blank nor a quote. -/
theorem plain_of_isNameChar {c : Char} (h : Text.isNameChar c = true) :
    c.isWhitespace = false ∧ c ≠ '\'' ∧ c ≠ '"' := by
  refine ⟨?_, ?_, ?_⟩
  · rw [Bool.eq_false_iff]
    intro hblank
    simp only [Char.isWhitespace, Bool.or_eq_true, decide_eq_true_eq, or_assoc] at hblank
    rcases hblank with rfl | rfl | rfl | rfl <;> cases h
  · rintro rfl
    cases h
  · rintro rfl
    cases h

/-- A bare name is read as a word, unless it goes on. -/
theorem lex_word {name rest : List Char} (h : Text.isBareName name = true)
    (hrest : ∀ c ∈ rest.head?, Text.isNameChar c = false) :
    lex (name ++ rest) = (lex rest).map (word (String.ofList name) :: ·) := by
  obtain ⟨c, cs, rfl, hstart, hall⟩ := Text.exists_of_isBareName h
  obtain ⟨hblank, hsingle, hdouble⟩ := plain_of_isNameChar (Text.isNameChar_of_isNameStart hstart)
  obtain ⟨htake, hdrop⟩ := Text.run_append hall hrest
  rw [List.cons_append]
  apply lex_of_take hblank
  simp [take, hsingle, hdouble, hstart, htake, hdrop]

/-- A numeral without a sign is read as a number, unless it goes on. -/
theorem lex_number {n : Numeral} {text rest : List Char} (h : n.Writes text)
    (hnegative : n.negative = false) (hrest : Numeral.Apart rest) :
    lex (text ++ rest) = (lex rest).map (number n :: ·) := by
  have hscan := Numeral.scan_append h hrest
  obtain ⟨c, cs, rfl, hdigit⟩ : ∃ c cs, text = c :: cs ∧ c.isDigit = true := by
    cases h with
    | @mk negative whole _ _ _ _ hwhole =>
      obtain ⟨c, cs, rfl⟩ := List.exists_cons_of_ne_nil hwhole.1
      obtain rfl : negative = false := hnegative
      exact ⟨c, _, rfl, hwhole.2 c List.mem_cons_self⟩
  obtain ⟨hblank, hsingle, hdouble⟩ := plain_of_isNameChar (Numeral.isNameChar_of_isDigit hdigit)
  have hstart := Text.isNameStart_of_isDigit hdigit
  rw [List.cons_append] at hscan ⊢
  apply lex_of_take hblank
  simp [take, hsingle, hdouble, hstart, hdigit, hscan]

/-- Other characters than the quote stand for themselves. -/
theorem takeEnclosed_cons {quote c : Char} (h : c ≠ quote) (cs : List Char) :
    takeEnclosed quote (c :: cs) =
      (takeEnclosed quote cs).map fun (text, rest) => (c :: text, rest) := by
  cases cs with
  | nil => simp [takeEnclosed, h]
  | cons d cs => rw [takeEnclosed, if_pos h]

/-- A text with every quote written twice is taken up to its closing quote. -/
theorem takeEnclosed_doubled {quote : Char} (text : List Char) {rest : List Char}
    (hrest : rest.head? ≠ some quote) :
    takeEnclosed quote (Text.doubled quote text ++ quote :: rest) = some (text, rest) := by
  induction text with
  | nil =>
    cases rest with
    | nil => simp [Text.doubled, takeEnclosed]
    | cons d ds =>
      have hd : d ≠ quote := by simpa using hrest
      simp [Text.doubled, takeEnclosed, hd]
  | cons c text ih =>
    rw [Text.doubled, List.flatMap_cons]
    by_cases hc : c = quote
    · -- A quote of the text stands there twice, so neither of the two closes it.
      subst hc
      simp only [if_true, List.cons_append, List.nil_append]
      rw [takeEnclosed, if_neg (by simp), if_neg (by simp)]
      exact congrArg _ ih
    · simp only [hc, if_false, List.cons_append, List.nil_append]
      rw [takeEnclosed_cons hc]
      exact congrArg _ ih

/-- What stands between two quotes is read as one lexeme of their kind, if no quote follows. -/
theorem lex_enclosed {quote : Char} {lexeme : String → Lexeme}
    (hkind : (quote = '\'' ∧ lexeme = string) ∨ (quote = '"' ∧ lexeme = quoted)) (s : String)
    {rest : List Char} (hrest : rest.head? ≠ some quote) :
    lex ((Text.enclosed quote s).toList ++ rest) = (lex rest).map (lexeme s :: ·) := by
  have hblank : quote.isWhitespace = false := by
    rcases hkind with ⟨rfl, -⟩ | ⟨rfl, -⟩ <;> rfl
  have hopening (cs : List Char) : take quote cs =
      (takeEnclosed quote cs).map fun (text, rest) => (lexeme (String.ofList text), rest) := by
    rcases hkind with ⟨rfl, rfl⟩ | ⟨rfl, rfl⟩ <;> rfl
  have htake := takeEnclosed_doubled s.toList hrest
  rw [Text.enclosed, String.toList_ofList, List.cons_append, List.cons_append, List.append_assoc]
  apply lex_of_take hblank
  rw [hopening, List.singleton_append, htake]
  simp

/-! ### Texts before a boundary -/

/-- A lexeme may end before the character: it is a blank, a comma or a parenthesis. -/
def isBoundary (c : Char) : Bool :=
  c.isWhitespace || c == ',' || c == '(' || c == ')'

/-- Every lexeme ends before the characters. -/
def Boundary (rest : List Char) : Prop :=
  ∀ c ∈ rest.head?, isBoundary c = true

/-- Nothing follows. -/
theorem boundary_nil : Boundary [] := nofun

/-- What follows starts with a boundary. -/
theorem boundary_cons {c : Char} (h : isBoundary c = true) (rest : List Char) :
    Boundary (c :: rest) := by
  intro d hd
  obtain rfl : c = d := by simpa using hd
  exact h

/-- A boundary is no character of a name or a number, and no quote. -/
theorem plain_of_isBoundary {c : Char} (h : isBoundary c = true) :
    Text.isNameChar c = false ∧ c ≠ '.' ∧ c ≠ '\'' ∧ c ≠ '"' := by
  simp only [isBoundary, Char.isWhitespace, Bool.or_eq_true, decide_eq_true_eq, beq_iff_eq,
    or_assoc] at h
  rcases h with rfl | rfl | rfl | rfl | rfl | rfl | rfl <;> decide

/-- No name and no number goes on with a boundary. -/
theorem Boundary.apart {rest : List Char} (h : Boundary rest) : Numeral.Apart rest := by
  cases rest with
  | nil => exact ⟨nofun, nofun⟩
  | cons c cs =>
    obtain ⟨hname, hpoint, -, -⟩ := plain_of_isBoundary (h c rfl)
    exact Numeral.apart_cons hname hpoint cs

/-- A boundary is no quote. -/
theorem Boundary.head? {rest : List Char} (h : Boundary rest) :
    rest.head? ≠ some '\'' ∧ rest.head? ≠ some '"' := by
  constructor <;> intro hquote <;> exact absurd (h _ hquote) (by decide)

/-- The text is read as the lexemes, and then what follows it is read. -/
def Lexes (text : List Char) (ts : List Lexeme) : Prop :=
  ∀ rest, Boundary rest → lex (text ++ rest) = (lex rest).map (ts ++ ·)

namespace Lexes

variable {x y : List Char} {ts us : List Lexeme} {c : Char}

/-- The whole text is read. -/
theorem lex_eq (h : Lexes x ts) : lex x = some ts := by
  have hnil := h [] boundary_nil
  have hend : lex [] = some [] := by rw [lex]
  rwa [List.append_nil, hend, Option.map_some, List.append_nil] at hnil

/-- No text is no lexeme. -/
theorem nil : Lexes [] [] := by
  intro rest _
  simp

/-- One lexeme after others. -/
theorem map_cons (t : Lexeme) (result : Option (List Lexeme)) :
    (result.map (us ++ ·)).map (t :: ·) = result.map (t :: us ++ ·) := by
  cases result <;> rfl

/-- A mark in front, where no comment starts. -/
theorem mark_cons (hc : isMark c = true) (hcomment : ∀ rest, startsComment c (y ++ rest) = false)
    (h : Lexes y us) : Lexes (c :: y) (mark c :: us) := by
  intro rest hrest
  rw [List.cons_append, lex_mark hc (hcomment rest), h rest hrest, map_cons]

/-- A text that begins with a boundary follows another one. -/
theorem append (hx : Lexes x ts) (hc : isBoundary c = true) (hy : Lexes (c :: y) us) :
    Lexes (x ++ c :: y) (ts ++ us) := by
  intro rest hrest
  have hboundary : Boundary (c :: y ++ rest) := boundary_cons hc _
  rw [List.append_assoc, hx _ hboundary, hy rest hrest, Option.map_map]
  congr 1
  funext vs
  exact (List.append_assoc ts us vs).symm

/-- A blank in front. -/
theorem blank_cons (hc : c.isWhitespace = true) (h : Lexes y us) : Lexes (c :: y) us := by
  intro rest hrest
  rw [List.cons_append, lex_blank hc, h rest hrest]

/-- Texts with a space between them. -/
theorem spaced (hx : Lexes x ts) (hy : Lexes y us) : Lexes (x ++ ' ' :: y) (ts ++ us) :=
  hx.append rfl (hy.blank_cons rfl)

/-- A text between parentheses. -/
theorem parenthesized (h : Lexes x ts) :
    Lexes ('(' :: (x ++ [')'])) (mark '(' :: (ts ++ [mark ')'])) := by
  have hclosing : Lexes [')'] [mark ')'] := .mark_cons rfl (fun _ => rfl) .nil
  exact .mark_cons rfl (fun _ => rfl) (h.append rfl hclosing)

/-- A bare name. -/
theorem word {name : String} (h : Text.isBareName name.toList = true) :
    Lexes name.toList [.word name] := by
  intro rest hrest
  have hword := lex_word h hrest.apart.name
  rwa [String.ofList_toList] at hword

/-- A text between quotes. -/
theorem string (s : String) : Lexes (Text.enclosed '\'' s).toList [.string s] :=
  fun _ hrest => lex_enclosed (.inl ⟨rfl, rfl⟩) s hrest.head?.1

/-- A name between quotes. -/
theorem quoted (name : String) : Lexes (Text.enclosed '"' name).toList [.quoted name] :=
  fun _ hrest => lex_enclosed (.inr ⟨rfl, rfl⟩) name hrest.head?.2

/-- A numeral without a sign. -/
theorem number {n : Numeral} (h : n.Writes x) (hnegative : n.negative = false) :
    Lexes x [.number n] :=
  fun _ hrest => lex_number h hnegative hrest.apart

end Lexes

end Lexeme

end FluentSql
