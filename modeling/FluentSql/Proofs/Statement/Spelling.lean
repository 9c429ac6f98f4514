import FluentSql.Proofs.Statement.Token
import FluentSql.Query.Sql

/-!
# Spellings of statements

The two forms of a statement, on one line and on many lines, spell the same tokens. They differ in
blanks between tokens and in nothing else.
-/

namespace FluentSql

namespace Spells

variable {before between after : Bool} {ts us : List Token} {x y : String}

/-- A token that stands alone, where anything may follow. -/
theorem only (t : Token) : Spells false [t] true t.text :=
  (single t).weaken_after

/-- A mark spells itself, also right after a word. -/
theorem mark {t : Token} (h : t.isWord = false) : Spells before [t] after t.text := by
  have hspells : Spells before [t] after (t.text ++ "") :=
    .token (fun _ => h) (.nil fun hword => by simp [h] at hword)
  rwa [String.append_empty] at hspells

/-- A keyword with a space after it. -/
theorem leading (word : String) (h : Spells false ts after x) :
    Spells false (.keyword word :: ts) after (word ++ " " ++ x) :=
  ((single (.keyword word)).append space).append h

/-- Expressions with a separator between every two of them. -/
theorem separated {separator : List Token} {text : String}
    (hseparator : Spells true separator false text) (items : List Expr) :
    Spells false (Token.separated separator items) true
      (text.intercalate (items.map Expr.toSql)) := by
  refine intercalate ?_ hseparator
  rw [List.forall₂_map_left_iff, List.forall₂_map_right_iff]
  exact List.forall₂_same.mpr fun e _ => only (.expr e)

/-- A comma with a space after it separates. -/
theorem comma : Spells true [.comma] false ", " := by
  have hmark : Spells true [.comma] false "," := mark rfl
  exact hmark.append space

/-- The words between a nested statement and its alias. -/
theorem closingAs : Spells before [.closing, .keyword "AS"] false ") AS " := by
  have hmark : Spells before [.closing] false ")" := mark rfl
  exact hmark.append (spaced "AS")

/-- The condition of a join. -/
theorem condition (on : Expr) :
    Spells true [.keyword "ON", .expr on] true (" ON " ++ on.toSql) := by
  have hword : Spells true [.keyword "ON"] false " ON " := spaced "ON"
  exact hword.append (only (.expr on))

/-- The words in front of a joined table. -/
theorem joining (kind : JoinKind) :
    Spells false [.keyword kind.sql, .keyword "JOIN"] false (kind.sql ++ " JOIN ") :=
  (single (.keyword kind.sql)).append (spaced "JOIN")

/-- Expressions in parentheses. -/
theorem parenthesized (items : List Expr) :
    Spells false (.opening :: Token.separated [.comma] items ++ [.closing]) true
      ("(" ++ Expr.listSql items ++ ")") :=
  ((single .opening).append (separated comma items)).append (mark rfl)

end Spells

/-- The words for rows left out spell their tokens. -/
theorem Distinct.spells (d : Distinct) : Spells false d.tokens true d.toSql := by
  cases d with
  | all => exact .only (.keyword "DISTINCT")
  | on subset =>
    have h := ((Spells.parenthesized subset).leading "ON").leading "DISTINCT"
    simpa [Distinct.tokens, Distinct.toSql, ← String.append_assoc] using h

/-- Each item of a projection spells its tokens. -/
theorem Projection.spells (p : Projection) :
    List.Forall₂ (Spells false · true ·) p.itemTokens p.itemsSql := by
  cases p with
  | wildcard => exact .cons (.only (.keyword "*")) .nil
  | items columns =>
    simp only [itemTokens, itemsSql]
    rw [List.forall₂_map_left_iff, List.forall₂_map_right_iff]
    exact List.forall₂_same.mpr fun e _ => .only (.expr e)
  | replace columns =>
    cases columns with
    | nil => exact .cons (.only (.keyword "*")) .nil
    | cons e es =>
      have h := ((Spells.parenthesized (e :: es)).leading "REPLACE").leading "*"
      refine .cons ?_ .nil
      simpa [← String.append_assoc] using h

/-- The texts spell the tokens one after the other, each text some of them. -/
inductive SpellsLines : List Token → List String → Prop
  | nil : SpellsLines [] []
  | cons {ts us : List Token} {line : String} {lines : List String}
      (hline : Spells false ts true line)
      (h : SpellsLines us lines) : SpellsLines (ts ++ us) (line :: lines)

namespace SpellsLines

variable {ts us : List Token} {xs ys : List String}

/-- One text that spells all tokens. -/
theorem single {x : String} (h : Spells false ts true x) : SpellsLines ts [x] := by
  rw [← List.append_nil ts]
  exact .cons h .nil

/-- Texts that follow each other spell what follows each other. -/
theorem append (h : SpellsLines ts xs) (h' : SpellsLines us ys) :
    SpellsLines (ts ++ us) (xs ++ ys) := by
  induction h with
  | nil => exact h'
  | cons hline _ ih =>
    rw [List.append_assoc]
    exact .cons hline ih

/-- The texts with blanks between them spell all tokens. -/
theorem intercalate {separator : String} (h : SpellsLines ts xs)
    (hseparator : Spells true [] false separator) :
    Spells false ts true (separator.intercalate xs) := by
  induction h with
  | nil => exact .nil nofun
  | @cons ts us line lines hline hrest ih =>
    cases hrest with
    | nil => simpa using hline
    | cons hnext hrest =>
      rw [String.intercalate_cons_cons]
      have h := (hline.append hseparator).append ih
      rwa [List.append_nil] at h

end SpellsLines

/-! ### On one line -/

namespace Clauses

/-- The `SELECT` clause spells its tokens. -/
theorem selectClause_spells (c : Clauses) : Spells false c.selectTokens true c.selectClause := by
  have hitems := Spells.intercalate c.projection.spells Spells.comma
  have hword := (Spells.single (.keyword "SELECT")).append Spells.space
  unfold selectTokens selectClause
  cases c.distinct with
  | none => exact (hword.append (.nil id)).append hitems
  | some d =>
    have hdistinct := d.spells.append Spells.space
    rw [List.append_nil] at hdistinct
    exact (hword.append hdistinct).append hitems

/-- A clause that lists expressions spells its tokens. -/
theorem listClause_spells {keyword text : String} {keywords separator : List Token}
    (hkeyword : Spells false keywords true keyword) (hseparator : Spells true separator false text)
    (items : List Expr) :
    SpellsLines (listTokens keywords separator items) (listClause keyword text items) := by
  unfold listTokens listClause
  split
  · exact .nil
  · have h := (hkeyword.append Spells.space).append (Spells.separated hseparator items)
    rw [List.append_nil] at h
    exact .single h

/-- A clause with a number spells its tokens. -/
theorem countClause_spells (keyword : String) (count : Option UInt64) :
    SpellsLines (countTokens keyword count) (countClause keyword count) := by
  cases count with
  | none => exact .nil
  | some n => exact .single ((Spells.only (.number n)).leading keyword)

/-- The clauses that follow the tables spell their tokens. -/
theorem tailClauses_spells (c : Clauses) : SpellsLines c.tailTokens c.tailClauses := by
  have hand : Spells true [.keyword "AND"] false " AND " := Spells.spaced "AND"
  have hwhere := listClause_spells (.only (.keyword "WHERE")) hand c.filters
  have hgroup := listClause_spells ((Spells.only (.keyword "BY")).leading "GROUP") .comma c.groupBy
  have horder := listClause_spells ((Spells.only (.keyword "BY")).leading "ORDER") .comma c.orderBy
  have hlimit := countClause_spells "LIMIT" c.limit
  have hoffset := countClause_spells "OFFSET" c.offset
  exact (((hwhere.append hgroup).append horder).append hlimit).append hoffset

/-- All clauses on one line spell their tokens. -/
theorem line_spells (c : Clauses) {tokens : List Token} {tables : List String}
    (htables : SpellsLines tokens tables) :
    Spells false (c.tokens tokens) true (c.line tables) :=
  (((SpellsLines.single c.selectClause_spells).append htables).append
    c.tailClauses_spells).intercalate .space

end Clauses

mutual

/-- A table on one line spells its tokens. -/
theorem TableRef.compact_spells (t : TableRef) : Spells false t.tokens true t.compact := by
  cases t with
  | table name => exact .only (.table name)
  | subquery tables clauses name =>
    have hinner := (Spells.single .opening).append
      (clauses.line_spells tables.compactClauses_spells)
    have h := (hinner.append Spells.closingAs).append (.only (.label name))
    simpa [TableRef.tokens, TableRef.compact, Token.text] using h

/-- The tables on one line spell their tokens. -/
theorem Tables.compactClauses_spells (t : Tables) : SpellsLines t.tokens t.compactClauses := by
  cases t with
  | none => exact .nil
  | source table => exact .single (table.compact_spells.leading "FROM")
  | join left kind table on =>
    have hjoin := ((Spells.joining kind).append table.compact_spells).append (.condition on)
    have h := left.compactClauses_spells.append (.single hjoin)
    simpa [Tables.tokens, Tables.compactClauses, String.append_assoc] using h

end

/-! ### On many lines -/

/-- Items on lines of their own spell their tokens with commas between them. -/
theorem itemLines_spell {tss : List (List Token)} {items : List String}
    (h : List.Forall₂ (Spells false · true ·) tss items) (indent depth : Nat) :
    SpellsLines ([Token.comma].intercalate tss) (itemLines (margin indent depth) items) := by
  induction h with
  | nil => exact .nil
  | @cons ts item tss items hitem hrest ih =>
    cases hrest with
    | nil => simpa [itemLines] using SpellsLines.single (hitem.indented indent depth)
    | cons hnext hrest =>
      have hmark : Spells true [.comma] true "," := .mark rfl
      have hline := (hitem.append hmark).indented indent depth
      rw [List.intercalate_cons_cons]
      simpa [itemLines, String.append_assoc] using SpellsLines.cons hline ih

namespace Clauses

/-- The lines of the `SELECT` clause spell its tokens. -/
theorem selectLines_spell (c : Clauses) (indent depth inner : Nat) :
    SpellsLines c.selectTokens (c.selectLines (margin indent depth) (margin indent inner)) := by
  have hitems := itemLines_spell c.projection.spells indent inner
  unfold selectTokens selectLines
  cases c.distinct with
  | none =>
    have hline := (Spells.only (.keyword "SELECT")).indented indent depth
    simpa [Token.text] using SpellsLines.cons hline hitems
  | some d =>
    have hword := Spells.only (.keyword "SELECT")
    have hline := (hword.append (Spells.space.append d.spells)).indented indent depth
    simpa [Token.text, String.append_assoc] using SpellsLines.cons hline hitems

/-- The lines of the `WHERE` clause spell its tokens. -/
theorem filterLines_spell (c : Clauses) (indent depth inner : Nat) :
    SpellsLines (listTokens [.keyword "WHERE"] [.keyword "AND"] c.filters)
      (c.filterLines (margin indent depth) (margin indent inner)) := by
  unfold filterLines
  cases c.filters with
  | nil => exact .nil
  | cons first rest =>
    have hword := (Spells.only (.keyword "WHERE")).indented indent depth
    have hfirst := (Spells.only (.expr first)).indented indent inner
    have hrest : SpellsLines (rest.flatMap fun e => [.keyword "AND"] ++ [.expr e])
        (rest.map fun e => margin indent inner ++ "AND " ++ e.toSql) := by
      induction rest with
      | nil => exact .nil
      | cons e rest ih =>
        have hline := ((Spells.only (.expr e)).leading "AND").indented indent inner
        simpa [Token.text, String.append_assoc] using SpellsLines.cons hline ih
    simpa [listTokens, Token.separated_cons, Token.text] using
      SpellsLines.cons hword (SpellsLines.cons hfirst hrest)

/-- The lines of a clause that lists expressions spell its tokens. -/
theorem listLines_spell {keyword : String} {keywords : List Token}
    (hkeyword : Spells false keywords true keyword) (indent depth inner : Nat) (items : List Expr) :
    SpellsLines (listTokens keywords [.comma] items)
      (listLines keyword (margin indent depth) (margin indent inner) items) := by
  unfold listTokens listLines
  split
  · exact .nil
  · refine .cons (hkeyword.indented indent depth) (itemLines_spell ?_ indent inner)
    rw [List.forall₂_map_left_iff, List.forall₂_map_right_iff]
    exact List.forall₂_same.mpr fun e _ => .only (.expr e)

/-- The lines of a clause with a number spell its tokens. -/
theorem countLines_spell (keyword : String) (indent depth inner : Nat) (count : Option UInt64) :
    SpellsLines (countTokens keyword count)
      (countLines keyword (margin indent depth) (margin indent inner) count) := by
  cases count with
  | none => exact .nil
  | some n =>
    have hword := (Spells.only (.keyword keyword)).indented indent depth
    have hnumber := (Spells.only (.number n)).indented indent inner
    exact .cons hword (.single hnumber)

/-- The lines of the clauses that follow the tables spell their tokens. -/
theorem tailLines_spell (c : Clauses) (indent depth inner : Nat) :
    SpellsLines c.tailTokens (c.tailLines (margin indent depth) (margin indent inner)) := by
  have hby (word : String) :
      Spells false [.keyword word, .keyword "BY"] true (word ++ " " ++ "BY") :=
    (Spells.only (.keyword "BY")).leading word
  have hwhere := c.filterLines_spell indent depth inner
  have hgroup := listLines_spell (hby "GROUP") indent depth inner c.groupBy
  have horder := listLines_spell (hby "ORDER") indent depth inner c.orderBy
  have hlimit := countLines_spell "LIMIT" indent depth inner c.limit
  have hoffset := countLines_spell "OFFSET" indent depth inner c.offset
  exact (((hwhere.append hgroup).append horder).append hlimit).append hoffset

/-- All lines of the clauses spell their tokens. -/
theorem lines_spell (c : Clauses) (indent depth : Nat) {tokens : List Token} {tables : List String}
    (htables : SpellsLines tokens tables) :
    SpellsLines (c.tokens tokens) (c.lines indent depth tables) :=
  ((c.selectLines_spell indent depth (depth + 1)).append htables).append
    (c.tailLines_spell indent depth (depth + 1))

end Clauses

mutual

/-- The lines of a table spell its tokens, between those of the rest of its first and last line. -/
theorem TableRef.lines_spell (t : TableRef) (indent depth : Nat) {ts us : List Token}
    {before after : String} (hbefore : Spells false ts false before)
    (hafter : Spells true us true after) :
    SpellsLines (ts ++ t.tokens ++ us) (t.lines indent depth before after) := by
  cases t with
  | table name =>
    have h := ((hbefore.append (.only (.table name))).append hafter).indented indent (depth + 1)
    simpa [TableRef.tokens, TableRef.lines, Token.text, String.append_assoc]
      using SpellsLines.single h
  | subquery tables clauses name =>
    have hopening := (hbefore.append (.only .opening)).indented indent (depth + 1)
    have hinner := clauses.lines_spell indent (depth + 2) (tables.lines_spell indent (depth + 2))
    have hclosing := ((Spells.closingAs.append (.only (.label name))).append hafter).indented
      indent (depth + 1)
    have h := (SpellsLines.cons hopening hinner).append (.single hclosing)
    simpa [TableRef.tokens, TableRef.lines, Token.text, String.append_assoc] using h

/-- The lines of the tables spell their tokens. -/
theorem Tables.lines_spell (t : Tables) (indent depth : Nat) :
    SpellsLines t.tokens (t.lines indent depth) := by
  cases t with
  | none => exact .nil
  | source table =>
    have hword := (Spells.only (.keyword "FROM")).indented indent depth
    have htable := table.lines_spell indent depth (.nil id) (.nil id)
    simpa [Tables.tokens, Tables.lines, Token.text] using SpellsLines.cons hword htable
  | join left kind table on =>
    have htable := table.lines_spell indent depth (.joining kind) (.condition on)
    have h := (left.lines_spell indent depth).append htable
    simpa [Tables.tokens, Tables.lines] using h

end

/-- Both forms of a statement spell its tokens. -/
theorem Statement.spells_tokens (s : Statement) (indent : Nat) :
    Spells false s.tokens true s.compact ∧ Spells false s.tokens true (s.pretty indent) := by
  have htables := s.tables.lines_spell indent 0
  have hlines := s.clauses.lines_spell indent 0 htables
  exact ⟨s.clauses.line_spells s.tables.compactClauses_spells, hlines.intercalate .newline⟩

/-- Both forms of a statement, and so both forms of a query, spell the same tokens, with any number
of spaces a level. -/
theorem Statement.forms_spell_tokens (indent : Nat) :
    (∀ s : Statement,
      Spells false s.tokens true s.compact ∧ Spells false s.tokens true (s.pretty indent)) ∧
    ∀ q : Query,
      Spells false q.statement.tokens true q.toCompactSql ∧
        Spells false q.statement.tokens true (q.toSql indent) :=
  ⟨fun s => s.spells_tokens indent, fun q => q.statement.spells_tokens indent⟩

end FluentSql
