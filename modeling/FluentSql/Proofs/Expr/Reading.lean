import FluentSql.Proofs.Statement.Piece

/-!
# Expressions are read back from their SQL

The parentheses, the keywords and the quotes of the SQL of an expression tell how it was built, also
where columns and aliases have the names of keywords. A reader of its lexemes takes back exactly the
expression, so different expressions have different SQL. Excepted are columns named as the truth
values, and types of conversions that are written in upper case without being so.
-/

namespace FluentSql

/-! ### The reader -/

/-- The name that a lexeme stands for where a name is expected. -/
def Lexeme.name? : Lexeme → Option String
  | word text => some text
  | quoted name => some name
  | mark c => if c = '*' then some "*" else none
  | _ => none

/-- The constant that a number stands for. -/
def Literal.ofNumeral? (n : Numeral) : Option Literal :=
  if n.isInteger then n.toInt64?.map .integer else some (.float n.toDouble)

/-- The number that is not finite with the text. -/
def Double.ofSpecial? (s : String) : Option Double :=
  [nan, infinite false, infinite true].find? (·.text == s)

/-- Takes an operator between two operands. -/
def BinaryOp.take? : List Lexeme → Option (BinaryOp × List Lexeme)
  | .mark '=' :: ts => some (.eq, ts)
  | .mark '<' :: .mark '>' :: ts => some (.neq, ts)
  | .mark '<' :: .mark '=' :: ts => some (.lte, ts)
  | .mark '<' :: ts => some (.lt, ts)
  | .mark '>' :: .mark '=' :: ts => some (.gte, ts)
  | .mark '>' :: ts => some (.gt, ts)
  | .mark '+' :: ts => some (.plus, ts)
  | .word "AND" :: ts => some (.and, ts)
  | .word "OR" :: ts => some (.or, ts)
  | .word "IS" :: .word "DISTINCT" :: .word "FROM" :: ts => some (.isDistinctFrom, ts)
  | .word "IS" :: .word "NOT" :: .word "DISTINCT" :: .word "FROM" :: ts =>
    some (.isNotDistinctFrom, ts)
  | _ => none

namespace Expr

/-- Takes a closing parenthesis. -/
def takeClosing? : List Lexeme → Option (List Lexeme)
  | .mark ')' :: ts => some ts
  | _ => none

section Take

variable (inner : List Lexeme → Option (Expr × List Lexeme))

/-- Takes two bounds and the closing parenthesis after them. -/
def takeBounds? (operand : Expr) (test : RangeTest) (ts : List Lexeme) :
    Option (Expr × List Lexeme) := do
  let (lower, ts) ← inner ts
  match ts with
  | .word "AND" :: ts =>
    let (upper, ts) ← inner ts
    return (.range operand test lower upper, ← takeClosing? ts)
  | _ => none

/-- Takes what an operator does to its operand, up to the closing parenthesis. -/
def takeOperation? (operand : Expr) : List Lexeme → Option (Expr × List Lexeme)
  | .word "IS" :: .word "NULL" :: ts => do
    return (.nullTest operand .isNull, ← takeClosing? ts)
  | .word "IS" :: .word "NOT" :: .word "NULL" :: ts => do
    return (.nullTest operand .isNotNull, ← takeClosing? ts)
  | .word "BETWEEN" :: ts => takeBounds? inner operand .between ts
  | .word "NOT" :: .word "BETWEEN" :: ts => takeBounds? inner operand .notBetween ts
  | ts => do
    let (op, ts) ← BinaryOp.take? ts
    let (right, ts) ← inner ts
    return (.binary operand op right, ← takeClosing? ts)

/-- What a call of a function with the operand between its parentheses stands for. The type of a
conversion is read as an alias of what is converted. -/
def ofCall? (function : String) (operand : Expr) : Option Expr :=
  if function = "TRY_CAST" then
    match operand with
    | .named operand dataType => some (.cast operand dataType)
    | _ => none
  else (Aggregate.all.find? (·.sql == function)).map (.aggregate · operand)

/-- What a word stands for that no parenthesis follows. -/
def ofWord (w : String) : Expr :=
  if w = "true" then .literal (.boolean true)
  else if w = "false" then .literal (.boolean false)
  else .column w

/-- Takes an expression up to aliases and directions after it. -/
def takePrimary? : List Lexeme → Option (Expr × List Lexeme)
  | .word w :: ts =>
    if ts.head? = some (.mark '(') then do
      let (operand, ts) ← inner ts.tail
      return (← ofCall? w operand, ← takeClosing? ts)
    else some (ofWord w, ts)
  | .quoted name :: ts => some (.column name, ts)
  | .string s :: ts =>
    if ts.head? = some (.mark ':') then
      (Double.ofSpecial? s).map fun x => (.literal (.float x), ts.drop 3)
    else some (.literal (.text s), ts)
  | .number n :: ts => (Literal.ofNumeral? n).map fun value => (.literal value, ts)
  | .mark '-' :: .number n :: ts =>
    (Literal.ofNumeral? { n with negative := true }).map fun value => (.literal value, ts)
  | .mark '*' :: ts => some (.column "*", ts)
  | .mark '(' :: ts => do
    let (operand, ts) ← inner ts
    takeOperation? inner operand ts
  | _ => none

end Take

/-- Takes all aliases and directions after an expression. -/
def takeSuffixes : Expr → List Lexeme → Expr × List Lexeme
  | e, .word "AS" :: t :: ts =>
    match t.name? with
    | some name => takeSuffixes (.named e name) ts
    | none => (e, .word "AS" :: t :: ts)
  | e, .word "ASC" :: ts => takeSuffixes (.sort e .asc) ts
  | e, .word "DESC" :: ts => takeSuffixes (.sort e .desc) ts
  | e, ts => (e, ts)

/-- Takes an expression whose parentheses nest less than so many levels deep. -/
def take? : Nat → List Lexeme → Option (Expr × List Lexeme)
  | 0, _ => none
  | levels + 1, ts => (takePrimary? (take? levels) ts).map fun (e, ts) => takeSuffixes e ts

/-! ### Expressions that can be read back -/

/-- No column has the name of a truth value, and the types of conversions are bare names in upper
case. -/
def Legible : Expr → Prop
  | column name => name ≠ "true" ∧ name ≠ "false"
  | literal _ => True
  | binary left _ right => left.Legible ∧ right.Legible
  | nullTest operand _ | named operand _ | sort operand _ | aggregate _ operand => operand.Legible
  | range operand _ lower upper => operand.Legible ∧ lower.Legible ∧ upper.Legible
  | cast operand dataType =>
    operand.Legible ∧ Text.isBareName dataType.toList = true ∧ Text.upper dataType = dataType

/-- How many levels deep the parentheses of an expression nest. -/
def nesting : Expr → Nat
  | column _ | literal _ => 0
  | binary left _ right => max left.nesting right.nesting + 1
  | nullTest operand _ | cast operand _ | aggregate _ operand => operand.nesting + 1
  | range operand _ lower upper => max operand.nesting (max lower.nesting upper.nesting) + 1
  | named operand _ | sort operand _ => operand.nesting

/-- The lexemes of an expression. -/
def lexemes (e : Expr) : List Lexeme :=
  e.pieces.map Piece.lexeme

end Expr

/-! ### Names, numbers and operators -/

/-- An expression may start with the lexeme. -/
def Lexeme.StartsExpr : Lexeme → Prop
  | mark c => c = '(' ∨ c = '*' ∨ c = '-'
  | _ => True

/-- An expression does not go on with the lexeme. -/
def Lexeme.isStop : Lexeme → Bool
  | mark c => c != '(' && c != ':'
  | word w => w != "AS" && w != "ASC" && w != "DESC"
  | _ => false

/-- Neither arguments nor a type follow. -/
structure Lexeme.Ended (rest : List Lexeme) : Prop where
  /-- No arguments of a call follow. -/
  opening : rest.head? ≠ some (.mark '(')
  /-- No type of a constant follows. -/
  colon : rest.head? ≠ some (.mark ':')

/-- The lexeme of a name stands for the name. -/
theorem Piece.name?_lexeme (n : String) : (lexeme (.name n)).name? = some n := by
  simp only [lexeme]
  split
  · next hstar => rw [hstar]; rfl
  · split <;> rfl

/-- The lexemes of a number are its numeral without the sign, and perhaps a minus sign in front. -/
theorem Piece.lexeme_number {n : Numeral} {text : String} (hn : n.Writes text.toList) :
    (number text).map lexeme =
      (if n.negative then [.mark '-'] else []) ++ [.number { n with negative := false }] := by
  have hscan := Numeral.scan_append hn Lexeme.boundary_nil.apart
  rw [List.append_nil] at hscan
  rw [number, hscan]
  cases hsign : n.negative <;> simp [hsign, lexeme]

/-- An operator is taken, whatever operand follows. -/
theorem BinaryOp.take?_append (op : BinaryOp) {t : Lexeme} (ht : t.StartsExpr) (ts : List Lexeme) :
    take? (op.pieces.map Piece.lexeme ++ t :: ts) = some (op, t :: ts) := by
  cases op with
  | lt | gt =>
    -- A mark that makes the operator another one does not start an operand.
    cases t with
    | mark c => rcases ht with rfl | rfl | rfl <;> rfl
    | _ => rfl
  | _ => rfl

/-- The constant with the numeral of a number is what its lexemes stand for, with perhaps a sign in
front of the number. -/
theorem Literal.takePrimary?_number {n : Numeral} {text : String} (hn : n.Writes text.toList)
    {value : Literal} (hvalue : ofNumeral? n = some value)
    (inner : List Lexeme → Option (Expr × List Lexeme)) (rest : List Lexeme) :
    Expr.takePrimary? inner ((Piece.number text).map Piece.lexeme ++ rest) =
      some (.literal value, rest) := by
  rw [Piece.lexeme_number hn]
  obtain ⟨negative, whole, fraction, exponent⟩ := n
  cases negative <;> simp [Expr.takePrimary?, hvalue]

/-- A constant is taken, unless what follows makes it another one. -/
theorem Literal.takePrimary?_append (value : Literal)
    (inner : List Lexeme → Option (Expr × List Lexeme)) {rest : List Lexeme}
    (hrest : Lexeme.Ended rest) :
    Expr.takePrimary? inner (value.pieces.map Piece.lexeme ++ rest) =
      some (.literal value, rest) := by
  cases value with
  | text s => exact if_neg hrest.colon
  | integer i =>
    have hvalue := Numeral.toInt64?_ofInt i.minValue_le_toInt i.toInt_le
    rw [Int64.ofInt_toInt] at hvalue
    refine takePrimary?_number (Numeral.writes_toString i.toInt) ?_ inner rest
    rw [ofNumeral?, hvalue]
    rfl
  | float x =>
    cases x with
    | nan => rfl
    | infinite negative => cases negative <;> rfl
    | finite negative rank =>
      obtain ⟨n, hn, hinteger, hdouble⟩ := Double.writes_text negative rank
      refine takePrimary?_number hn ?_ inner rest
      rw [ofNumeral?, hinteger, hdouble]
      rfl
  | boolean b => cases b <;> exact if_neg hrest.opening

namespace Expr

/-- A column is taken, unless what follows makes it a call. -/
theorem takePrimary?_column {name : String} (h : name ≠ "true" ∧ name ≠ "false")
    (inner : List Lexeme → Option (Expr × List Lexeme)) {rest : List Lexeme}
    (hrest : Lexeme.Ended rest) :
    takePrimary? inner (Piece.lexeme (.name name) :: rest) = some (.column name, rest) := by
  simp only [Piece.lexeme]
  split
  · next hstar => rw [hstar]; rfl
  · split
    · simp [takePrimary?, hrest.opening, ofWord, h]
    · rfl

/-! ### Expressions -/

/-- An operator stands between its operands. -/
theorem lexemes_binary (left : Expr) (op : BinaryOp) (right : Expr) :
    (binary left op right).lexemes = .mark '(' ::
      (left.lexemes ++ (op.pieces.map Piece.lexeme ++ (right.lexemes ++ [.mark ')']))) := by
  simp [lexemes, pieces, Piece.parenthesized, Piece.lexeme]

/-- A test for a missing value comes after its operand. -/
theorem lexemes_nullTest (operand : Expr) (test : NullTest) :
    (nullTest operand test).lexemes = .mark '(' ::
      (operand.lexemes ++ (test.pieces.map Piece.lexeme ++ [.mark ')'])) := by
  simp [lexemes, pieces, Piece.parenthesized, Piece.lexeme]

/-- A test against bounds comes after its operand and before the bounds. -/
theorem lexemes_range (operand : Expr) (test : RangeTest) (lower upper : Expr) :
    (range operand test lower upper).lexemes = .mark '(' ::
      (operand.lexemes ++ (test.pieces.map Piece.lexeme ++
        (lower.lexemes ++ .word "AND" :: (upper.lexemes ++ [.mark ')'])))) := by
  simp [lexemes, pieces, Piece.parenthesized, Piece.words, Piece.lexeme]

/-- The type of a conversion comes after what is converted. -/
theorem lexemes_cast (operand : Expr) (dataType : String) :
    (cast operand dataType).lexemes = .word "TRY_CAST" :: .mark '(' ::
      (operand.lexemes ++ [.word "AS", .word (Text.upper dataType), .mark ')']) := by
  simp [lexemes, pieces, Piece.parenthesized, Piece.words, Piece.lexeme]

/-- A function comes before what it is applied to. -/
theorem lexemes_aggregate (function : Aggregate) (operand : Expr) :
    (aggregate function operand).lexemes =
      .word function.sql :: .mark '(' :: (operand.lexemes ++ [.mark ')']) := by
  simp [lexemes, pieces, Piece.parenthesized, Piece.words, Piece.lexeme]

/-- An alias comes after what it names. -/
theorem lexemes_named (operand : Expr) (name : String) :
    (named operand name).lexemes =
      operand.lexemes ++ [.word "AS", Piece.lexeme (.name name)] := by
  simp [lexemes, pieces, Piece.words, Piece.lexeme]

/-- A direction comes after what is sorted by. -/
theorem lexemes_sort (operand : Expr) (direction : SortDirection) :
    (sort operand direction).lexemes = operand.lexemes ++ [.word direction.sql] := by
  simp [lexemes, pieces, Piece.words, Piece.lexeme]

/-- The SQL of an expression starts as expressions do. -/
theorem exists_lexemes_eq (e : Expr) : ∃ t ts, e.lexemes = t :: ts ∧ t.StartsExpr := by
  induction e with
  | column name =>
    refine ⟨_, _, rfl, ?_⟩
    simp only [Piece.lexeme]
    split
    · exact .inr (.inl rfl)
    · split <;> trivial
  | literal value =>
    have hnumber {n : Numeral} {text : String} (hn : n.Writes text.toList) :
        ∃ t ts, (Piece.number text).map Piece.lexeme = t :: ts ∧ t.StartsExpr := by
      rw [Piece.lexeme_number hn]
      cases n.negative with
      | false => exact ⟨_, _, rfl, trivial⟩
      | true => exact ⟨_, _, rfl, .inr (.inr rfl)⟩
    cases value with
    | text s => exact ⟨_, _, rfl, trivial⟩
    | integer i => exact hnumber (Numeral.writes_toString i.toInt)
    | float x =>
      cases x with
      | finite negative rank =>
        obtain ⟨n, hn, -, -⟩ := Double.writes_text negative rank
        exact hnumber hn
      | _ => exact ⟨_, _, rfl, trivial⟩
    | boolean b => cases b <;> exact ⟨_, _, rfl, trivial⟩
  | binary | nullTest | range => exact ⟨_, _, rfl, .inl rfl⟩
  | cast | aggregate => exact ⟨_, _, rfl, trivial⟩
  | named operand name ih =>
    obtain ⟨t, ts, heq, ht⟩ := ih
    exact ⟨t, ts ++ [.word "AS", Piece.lexeme (.name name)], by rw [lexemes_named, heq]; rfl, ht⟩
  | sort operand direction ih =>
    obtain ⟨t, ts, heq, ht⟩ := ih
    exact ⟨t, ts ++ [.word direction.sql], by rw [lexemes_sort, heq]; rfl, ht⟩

/-- An expression ends before the lexemes: they are none of its aliases and directions, and make it
no other one. -/
structure Stops (rest : List Lexeme) : Prop extends Lexeme.Ended rest where
  /-- No alias and no direction follows. -/
  suffixes : ∀ e, takeSuffixes e rest = (e, rest)

/-- An expression ends before a mark that opens neither arguments nor a type, and before a word that
is no suffix. -/
theorem stops_cons {t : Lexeme} (h : t.isStop = true) (ts : List Lexeme) : Stops (t :: ts) := by
  refine ⟨⟨?_, ?_⟩, fun e => ?_⟩
  · rintro ⟨⟩
    cases h
  · rintro ⟨⟩
    cases h
  · cases t with
    | mark => rfl
    | word w =>
      simp only [Lexeme.isStop, Bool.and_eq_true, bne_iff_ne] at h
      simp [takeSuffixes, h]
    | _ => cases h

/-- An expression ends before a closing parenthesis. -/
theorem stops_closing (rest : List Lexeme) : Stops (.mark ')' :: rest) :=
  stops_cons (by decide) rest

/-- An expression ends before an operator. -/
theorem stops_binaryOp (op : BinaryOp) (rest : List Lexeme) :
    Stops (op.pieces.map Piece.lexeme ++ rest) := by
  cases op <;> exact stops_cons (by decide) _

/-- An expression ends before a test for a missing value. -/
theorem stops_nullTest (test : NullTest) (rest : List Lexeme) :
    Stops (test.pieces.map Piece.lexeme ++ rest) := by
  cases test <;> exact stops_cons (by decide) _

/-- An expression ends before a test against bounds. -/
theorem stops_rangeTest (test : RangeTest) (rest : List Lexeme) :
    Stops (test.pieces.map Piece.lexeme ++ rest) := by
  cases test <;> exact stops_cons (by decide) _

/-- What an operator does to its operand is taken, if the other operand is. -/
theorem takeOperation?_binaryOp {inner : List Lexeme → Option (Expr × List Lexeme)}
    (operand : Expr) (op : BinaryOp) {right : Expr} {rest : List Lexeme}
    (hright : inner (right.lexemes ++ .mark ')' :: rest) = some (right, .mark ')' :: rest)) :
    takeOperation? inner operand
        (op.pieces.map Piece.lexeme ++ (right.lexemes ++ .mark ')' :: rest)) =
      some (.binary operand op right, rest) := by
  obtain ⟨t, ts, heq, ht⟩ := right.exists_lexemes_eq
  rw [heq] at hright ⊢
  have hop := op.take?_append ht (ts ++ .mark ')' :: rest)
  have hdefault : takeOperation? inner operand
      (op.pieces.map Piece.lexeme ++ (t :: ts ++ .mark ')' :: rest)) = (do
        let (op, after) ← BinaryOp.take?
          (op.pieces.map Piece.lexeme ++ (t :: ts ++ .mark ')' :: rest))
        let (right, after) ← inner after
        return (.binary operand op right, ← takeClosing? after)) := by
    cases op <;> rfl
  rw [hdefault, List.cons_append, hop]
  simp only [List.cons_append] at hright
  simp [hright, takeClosing?]

/-- What a test against bounds does to its operand is taken, if the bounds are. -/
theorem takeOperation?_rangeTest {inner : List Lexeme → Option (Expr × List Lexeme)}
    (operand : Expr) (test : RangeTest) {lower upper : Expr} {more rest : List Lexeme}
    (hlower : inner more = some (lower, .word "AND" :: (upper.lexemes ++ .mark ')' :: rest)))
    (hupper : inner (upper.lexemes ++ .mark ')' :: rest) = some (upper, .mark ')' :: rest)) :
    takeOperation? inner operand (test.pieces.map Piece.lexeme ++ more) =
      some (.range operand test lower upper, rest) := by
  have hbounds : takeOperation? inner operand (test.pieces.map Piece.lexeme ++ more) =
      takeBounds? inner operand test more := by
    cases test <;> rfl
  rw [hbounds, takeBounds?, hlower]
  simp [hupper, takeClosing?]

/-- A primary expression is taken with the aliases and directions that follow it. -/
theorem take?_succ {levels : Nat} {ts rest : List Lexeme} {e : Expr}
    (h : takePrimary? (take? levels) ts = some (e, rest)) :
    take? (levels + 1) ts = some (takeSuffixes e rest) := by
  rw [take?, h]
  rfl

/-- The lexemes of a legible expression are taken back to the expression, with the aliases and
directions that follow it. -/
theorem take?_append (e : Expr) (h : e.Legible) {levels : Nat} (hlevels : e.nesting < levels)
    {rest : List Lexeme} (hrest : Lexeme.Ended rest) :
    take? levels (e.lexemes ++ rest) = some (takeSuffixes e rest) := by
  -- An operand that ends before what follows it is taken alone.
  have hstops {operand : Expr} (levels : Nat) {after : List Lexeme} (hafter : Stops after)
      (hoperand : take? levels (operand.lexemes ++ after) = some (takeSuffixes operand after)) :
      take? levels (operand.lexemes ++ after) = some (operand, after) :=
    hoperand.trans (congrArg _ (hafter.suffixes operand))
  induction e generalizing levels rest with
  | column name =>
    obtain _ | levels := levels
    · cases hlevels
    · exact take?_succ (takePrimary?_column h _ hrest)
  | literal value =>
    obtain _ | levels := levels
    · cases hlevels
    · exact take?_succ (value.takePrimary?_append _ hrest)
  | binary left op right ihleft ihright =>
    obtain _ | levels := levels
    · cases hlevels
    rw [nesting] at hlevels
    have hop := stops_binaryOp op (right.lexemes ++ .mark ')' :: rest)
    have hclosing := stops_closing rest
    have hleft := hstops levels hop (ihleft h.1 (by omega) hop.toEnded)
    have hright := hstops levels hclosing (ihright h.2 (by omega) hclosing.toEnded)
    simp only [lexemes_binary, List.cons_append, List.append_assoc, List.nil_append]
    refine take?_succ ?_
    rw [takePrimary?, hleft]
    exact takeOperation?_binaryOp left op hright
  | nullTest operand test ih =>
    obtain _ | levels := levels
    · cases hlevels
    rw [nesting] at hlevels
    have htest := stops_nullTest test (.mark ')' :: rest)
    have hoperand := hstops levels htest (ih h (by omega) htest.toEnded)
    simp only [lexemes_nullTest, List.cons_append, List.append_assoc, List.nil_append]
    refine take?_succ ?_
    rw [takePrimary?, hoperand]
    cases test <;> rfl
  | range operand test lower upper ih ihlower ihupper =>
    obtain _ | levels := levels
    · cases hlevels
    rw [nesting] at hlevels
    have htest := stops_rangeTest test
      (lower.lexemes ++ .word "AND" :: (upper.lexemes ++ .mark ')' :: rest))
    have hand := stops_binaryOp .and (upper.lexemes ++ .mark ')' :: rest)
    have hclosing := stops_closing rest
    have hoperand := hstops levels htest (ih h.1 (by omega) htest.toEnded)
    have hlower := hstops levels hand (ihlower h.2.1 (by omega) hand.toEnded)
    have hupper := hstops levels hclosing (ihupper h.2.2 (by omega) hclosing.toEnded)
    simp only [lexemes_range, List.cons_append, List.append_assoc, List.nil_append]
    refine take?_succ ?_
    rw [takePrimary?, hoperand]
    exact takeOperation?_rangeTest operand test hlower hupper
  | cast operand dataType ih =>
    obtain _ | levels := levels
    · cases hlevels
    rw [nesting] at hlevels
    have has : Lexeme.Ended (.word "AS" :: .word dataType :: .mark ')' :: rest) :=
      ⟨by simp, by simp⟩
    simp only [lexemes_cast, h.2.2, List.cons_append, List.append_assoc, List.nil_append]
    refine take?_succ ?_
    rw [takePrimary?, List.head?_cons, if_pos rfl, List.tail_cons, ih h.1 (by omega) has]
    rfl
  | named operand name ih =>
    rw [lexemes_named, List.append_assoc, ih h hlevels ⟨by simp, by simp⟩]
    simp [takeSuffixes, Piece.name?_lexeme]
  | sort operand direction ih =>
    rw [lexemes_sort, List.append_assoc, ih h hlevels ⟨by simp, by simp⟩]
    cases direction <;> rfl
  | aggregate function operand ih =>
    obtain _ | levels := levels
    · cases hlevels
    rw [nesting] at hlevels
    have hclosing := stops_closing rest
    have hoperand := hstops levels hclosing (ih h (by omega) hclosing.toEnded)
    simp only [lexemes_aggregate, List.cons_append, List.append_assoc, List.nil_append]
    refine take?_succ ?_
    rw [takePrimary?, List.head?_cons, if_pos rfl, List.tail_cons, hoperand]
    cases function <;> rfl

/-- The types of conversions in a legible expression are bare names. -/
theorem Legible.castsBare {e : Expr} (h : e.Legible) : e.CastsBare := by
  induction e with
  | column | literal => trivial
  | binary _ _ _ ihleft ihright => exact ⟨ihleft h.1, ihright h.2⟩
  | range _ _ _ _ ih ihlower ihupper => exact ⟨ih h.1, ihlower h.2.1, ihupper h.2.2⟩
  | cast _ _ ih => exact ⟨ih h.1, h.2.1⟩
  | nullTest _ _ ih | named _ _ ih | sort _ _ ih | aggregate _ _ ih => exact ih h

/-- Different expressions have different SQL, if no column is named as a truth value and all types
of conversions are bare names in upper case. -/
theorem toSql_inj {e f : Expr} (he : e.Legible) (hf : f.Legible) :
    e.toSql = f.toSql ↔ e = f := by
  refine ⟨fun h => ?_, congrArg toSql⟩
  have hlex := (e.areRead he.castsBare).lex_eq
  rw [h, (f.areRead hf.castsBare).lex_eq] at hlex
  have hlexemes : e.lexemes ++ [] = f.lexemes ++ [] :=
    congrArg (· ++ []) (Option.some.inj hlex).symm
  have hend : Lexeme.Ended [] := ⟨by simp, by simp⟩
  obtain ⟨levels, helevels, hflevels⟩ : ∃ levels, e.nesting < levels ∧ f.nesting < levels :=
    ⟨max e.nesting f.nesting + 1, by omega, by omega⟩
  have htaken := e.take?_append he helevels hend
  rw [hlexemes, f.take?_append hf hflevels hend] at htaken
  exact (Prod.mk.inj (Option.some.inj htaken)).1.symm

/-- An alias of the first operand is not one of both, also where all names are keywords. -/
theorem toSql_inj_keywords :
    let e := Expr.binary (.named (.column "AND") "IS") .and (.cast (.column "AS") "BETWEEN")
    let f := Expr.named (.binary (.column "AND") .and (.cast (.column "AS") "BETWEEN")) "IS"
    e.Legible ∧ f.Legible ∧ e.toSql ≠ f.toSql := by
  intro e f
  have hcolumns : ("AND" ≠ "true" ∧ "AND" ≠ "false") ∧ ("AS" ≠ "true" ∧ "AS" ≠ "false") := by decide
  have hcast : Text.isBareName "BETWEEN".toList = true ∧ Text.upper "BETWEEN" = "BETWEEN" := by
    decide +kernel
  have he : e.Legible := ⟨hcolumns.1, hcolumns.2, hcast⟩
  have hf : f.Legible := ⟨hcolumns.1, hcolumns.2, hcast⟩
  exact ⟨he, hf, (toSql_inj he hf).not.mpr (by decide)⟩

end Expr

end FluentSql
