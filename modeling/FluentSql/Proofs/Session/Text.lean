import FluentSql.Proofs.Query.RoundTrip
import FluentSql.Proofs.Script.Sound
import FluentSql.Session

/-!
# Texts of sessions

A session keeps an edited text as it is, and writes the script of its query after an action. The
text stands for the query in every state of a run, but for the scripts of queries that nest deeper
than scripts are read, which actions can make.
-/

namespace FluentSql

open Script

/-- An action keeps a query expressible. -/
theorem Action.apply_expressible {q : Query} (h : q.Expressible) (action : Action) :
    (action.apply q).Expressible := by
  cases action with
  | valueCounts columns => exact h.valueCounts _
  | select columns => exact h.select _
  | cast column dataType => exact h.withCast column dataType
  | sort column direction => exact h.sortBy column direction

namespace Session

/-! ### Runs -/

/-- One thing done in a session leads from the first state to the second one. -/
inductive Follows : Session → Session → Prop
  | edit (s : Session) (now : Timestamp) (text : String) : Follows s (s.edit now text).1
  | showTable (s : Session) (now : Timestamp) (table : String) : Follows s (s.showTable now table)
  | perform (s : Session) (now : Timestamp) (action : Action) : Follows s (s.perform now action)
  | previous (s : Session) : Follows s s.previous.1
  | next (s : Session) : Follows s s.next.1
  | clearCursor (s : Session) : Follows s s.clearCursor
  | reopen {s t : Session} (h : s.reopen? = some t) : Follows s t

/-- Some run of a session that edits builder scripts reaches the state. -/
inductive Reached : Session → Prop
  | start {config : Config} {storage : Storage} {s : Session} (h : start? config storage = some s) :
      Reached s
  | follow {s t : Session} (h : Reached s) (hfollows : Follows s t) : Reached t

/-- The query is expressible, and the text was accepted for it or is its script. -/
structure Tracks (s : Session) : Prop where
  /-- Texts are builder scripts. -/
  language_eq : s.language = .script
  /-- Builder calls make the query, and a script can write its numbers of rows. -/
  expressible : ∀ q ∈ s.query, q.Expressible
  /-- The text stands for the query, or it is the script of the query. -/
  text_eq : ∀ q ∈ s.query, Query.ofScript s.text = .ok q ∨ s.text = q.toScript s.config.indent

/-- A new session has no query. -/
theorem Tracks.start {config : Config} {storage : Storage} {s : Session}
    (h : start? config storage = some s) : s.Tracks := by
  obtain ⟨history, -, rfl⟩ := Option.map_eq_some_iff.mp h
  exact ⟨rfl, by simp, by simp⟩

/-- A query is taken with a text that stands for it or with its script. -/
theorem Tracks.record {s : Session} (h : s.Tracks) (now : Timestamp) {text : String} {q : Query}
    (hq : q.Expressible) (htext : Query.ofScript text = .ok q ∨ text = q.toScript s.config.indent) :
    (s.record now text q).Tracks := by
  refine ⟨h.language_eq, ?_, ?_⟩ <;> rintro _ ⟨⟩
  · exact hq
  · exact htext

/-- A query whose script is written is tracked. -/
theorem Tracks.recordQuery {s : Session} (h : s.Tracks) (now : Timestamp) {q : Query}
    (hq : q.Expressible) : (s.recordQuery now q).Tracks :=
  h.record now hq (.inr rfl)

/-- A text that is rejected changes nothing about the query, and one that is accepted stands for
the query. -/
theorem Tracks.edit {s : Session} (h : s.Tracks) (now : Timestamp) (text : String) :
    (s.edit now text).1.Tracks := by
  unfold Session.edit
  cases hcompile : s.language.compile text with
  | ok q =>
    rw [h.language_eq] at hcompile
    exact h.record now (Query.expressible_of_ofScript hcompile) (.inl hcompile)
  | error e => exact ⟨h.language_eq, h.expressible, h.text_eq⟩

/-- An action writes the script of the query that it makes. -/
theorem Tracks.perform {s : Session} (h : s.Tracks) (now : Timestamp) (action : Action) :
    (s.perform now action).Tracks := by
  unfold Session.perform
  cases hquery : s.query with
  | none => exact h
  | some q => exact h.recordQuery now (Action.apply_expressible (h.expressible q hquery) action)

/-- Whatever is done in a session, its text stays that of its query. -/
theorem Tracks.follow {s t : Session} (h : s.Tracks) (hfollows : Follows s t) : t.Tracks := by
  cases hfollows with
  | edit now text => exact h.edit now text
  | showTable now table => exact h.recordQuery now (.table table)
  | perform now action => exact h.perform now action
  | previous | next | clearCursor => exact ⟨h.language_eq, h.expressible, h.text_eq⟩
  | reopen h => exact .start h

/-- In every state of a run the text is that of the query. -/
theorem Reached.tracks {s : Session} (h : s.Reached) : s.Tracks := by
  induction h with
  | start h => exact .start h
  | follow _ hfollows ih => exact ih.follow hfollows

/-! ### Texts that nest too deep -/

/-- The text of a session is the script of its query, and that nests too deep to be read. -/
def TooDeep (s : Session) (q : Query) : Prop :=
  s.text = q.toScript s.config.indent ∧ maxDepth < q.tree.depth

/-- The query is one segment of projections and sorts, with so many of the latter. -/
structure Alternates (q : Query) (sorts : Nat) : Prop where
  /-- There is a source. -/
  source_ne : q.source ≠ none
  /-- Nothing but projections and sorts is in the segment. -/
  kinds_subset : q.kinds ⊆ [.select, .orderBy]
  /-- The number of sorts. -/
  countP_eq : q.operations.countP (fun next => next.columns?.isNone) = sorts

/-- A projection and a sort after it stay in a segment of projections and sorts. -/
theorem Alternates.succ {q : Query} {sorts : Nat} (h : Alternates q sorts) (columns : List Expr)
    (column : String) (direction : SortDirection) :
    Alternates ((q.select columns).sortBy column direction) (sorts + 1) := by
  have hfree : q.conflictsWith .select = false := by
    rw [Query.conflictsWith_eq_false]
    intro kind hkind
    have hkind := h.kinds_subset hkind
    revert hkind
    cases kind <;> decide
  obtain ⟨items, hselect⟩ : ∃ items, q.select columns = .step q (.select items) :=
    ⟨_, Query.apply_eq_append hfree⟩
  have hsort : (q.select columns).sortBy column direction =
      .step (.step q (.select items)) (.orderBy [.sort (.column column) direction]) := by
    rw [hselect]
    exact Query.apply_eq_append (Query.conflictsWith_eq_false.mpr fun _ _ => List.not_mem_nil)
  rw [hsort]
  refine ⟨h.source_ne, ?_, ?_⟩
  · rw [Query.kinds_step, Query.kinds_step, List.append_subset, List.append_subset]
    exact ⟨⟨h.kinds_subset, by simp [Step.kind]⟩, by simp [Step.kind]⟩
  · rw [Query.operations, Query.operations, List.countP_append, List.countP_append, h.countP_eq]
    rfl

/-- The session after so many rounds of projecting and sorting, from a table on. -/
def rounds (s : Session) (now : Timestamp) : Nat → Session
  | 0 => s.showTable now "t"
  | n + 1 => ((s.rounds now n).perform now (.select ["a"])).perform now (.sort "a" .asc)

/-- Rounds are part of a run. -/
theorem Reached.rounds {s : Session} (h : s.Reached) (now : Timestamp) (n : Nat) :
    (s.rounds now n).Reached := by
  induction n with
  | zero => exact h.follow (.showTable s now "t")
  | succ n ih => exact (ih.follow (.perform _ now _)).follow (.perform _ now _)

/-- Every round adds a sort to the query, and the text is its script. -/
theorem exists_query_rounds (s : Session) (now : Timestamp) (n : Nat) :
    ∃ q, (s.rounds now n).query = some q ∧ Alternates q n ∧
      (s.rounds now n).text = q.toScript (s.rounds now n).config.indent := by
  induction n with
  | zero =>
    refine ⟨.table "t", rfl, ⟨?_, ?_, rfl⟩, rfl⟩
    · simp [Query.source]
    · simp [Query.kinds, Query.operations]
  | succ n ih =>
    obtain ⟨q, hq, halternates, -⟩ := ih
    have hselect : ((s.rounds now n).perform now (.select ["a"])).query =
        some (q.select [.column "a"]) := by
      rw [perform, hq]
      rfl
    refine ⟨(q.select [.column "a"]).sortBy "a" .asc, ?_, halternates.succ _ _ _, ?_⟩
    · rw [rounds, perform, hselect]
      rfl
    · rw [rounds, perform, hselect]
      rfl

/-- As many rounds as scripts may nest make a text that nests too deep. -/
theorem exists_tooDeep_rounds (s : Session) (now : Timestamp) {n : Nat} (hn : maxDepth ≤ n) :
    ∃ q, (s.rounds now n).query = some q ∧ (s.rounds now n).TooDeep q := by
  obtain ⟨q, hq, halternates, htext⟩ := exists_query_rounds s now n
  have hdepth := Query.countP_lt_depth_tree halternates.source_ne
  rw [halternates.countP_eq] at hdepth
  exact ⟨q, hq, htext, Nat.lt_of_le_of_lt hn hdepth⟩

/-! ### Texts read back -/

/-- In every state of a run the text is read to a query with the SQL of the query of the session,
unless the text is the script of the query and nests too deep: then it is rejected. -/
theorem ofScript_text_of_reached {s : Session} (h : s.Reached) {q : Query} (hq : s.query = some q) :
    ((∃ r, Query.ofScript s.text = .ok r ∧ r.toCompactSql = q.toCompactSql) ↔ ¬ s.TooDeep q) ∧
      (s.TooDeep q → ∃ position,
        Query.ofScript s.text = .error (.parse position (.tooDeep maxDepth))) := by
  have hexpressible := h.tracks.expressible q hq
  obtain ⟨hshallow, hdeep⟩ := hexpressible.built.wellFormed.ofScript_eq hexpressible.inRange
    s.config.indent
  have hrejected : s.TooDeep q → ∃ position,
      Query.ofScript s.text = .error (.parse position (.tooDeep maxDepth)) := by
    rintro ⟨htext, hdepth⟩
    rw [htext]
    exact hdeep hdepth
  refine ⟨⟨?_, ?_⟩, hrejected⟩
  · rintro ⟨r, hr, -⟩ hdeep
    obtain ⟨position, herror⟩ := hrejected hdeep
    rw [herror] at hr
    cases hr
  · intro hread
    rcases h.tracks.text_eq q hq with haccepted | htext
    · exact ⟨q, haccepted, rfl⟩
    · have hdepth : q.tree.depth ≤ maxDepth := Nat.not_lt.mp fun hdepth => hread ⟨htext, hdepth⟩
      refine ⟨q.pruned, by rw [htext, hshallow hdepth], ?_⟩
      rw [Query.toCompactSql, Query.statement_pruned, Query.toCompactSql]

/-- A session that projects and sorts in turn ends up with a text that it would reject. -/
theorem ofScript_text_of_reached_rounds :
    let now : Timestamp := ⟨2024, 1, 2, 3, 4, 5, 0⟩
    let s : Session := ⟨{}, .script, "", none, none, .empty 500, .memory⟩
    (s.rounds now 256).Reached ∧ ∃ position,
      Query.ofScript (s.rounds now 256).text = .error (.parse position (.tooDeep maxDepth)) := by
  intro now s
  have hstart : s.Reached := .start (rfl : start? {} .memory = some s)
  have hreached := hstart.rounds now 256
  obtain ⟨q, hq, hdeep⟩ := s.exists_tooDeep_rounds now (Nat.le_refl 256)
  exact ⟨hreached, (ofScript_text_of_reached hreached hq).2 hdeep⟩

end Session

end FluentSql
