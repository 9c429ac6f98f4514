import FluentSql.Proofs.History.Adding
import FluentSql.Proofs.History.File
import FluentSql.Proofs.Query.Presented
import FluentSql.Proofs.Session.Text
import Mathlib.Logic.Relation

/-!
# Histories of sessions

After every accepted text and every action the newest entry of the history describes the query of
the session. This does not follow from adding entries alone, since an entry that repeats the newest
one is not added: its text may have other blanks around it, but then the queries of both texts have
the same SQL.
-/

namespace FluentSql

open Script

/-! ### Genuine entries -/

namespace HistoryEntry

/-- The SQL of the entry is that of a query that its text presents. -/
def Genuine (e : HistoryEntry) : Prop :=
  ∃ q : Query, Query.Presents e.text q ∧ e.sql = q.toCompactSql

/-- The time of an entry does not matter. -/
theorem Genuine.of_content {e e' : HistoryEntry} (he : e.Genuine) (h : e'.content = e.content) :
    e'.Genuine := by
  obtain ⟨q, hpresents, hsql⟩ := he
  obtain ⟨htext, hsql'⟩ := Prod.mk.inj h
  exact ⟨q, htext ▸ hpresents, hsql'.trans hsql⟩

end HistoryEntry

namespace Storage

/-- A history that is loaded keeps one entry at least. -/
theorem maxEntries_pos_of_load? {s : Storage} {n : Nat} {h : History} (hload : s.load? n = some h) :
    0 < h.maxEntries := by
  have hpos : 0 < max n 1 := Nat.lt_of_lt_of_le Nat.zero_lt_one (Nat.le_max_right n 1)
  match s with
  | memory | file none =>
    cases hload
    exact hpos
  | file (some text) =>
    obtain ⟨j, -, hload⟩ := Option.bind_eq_some_iff.mp hload
    obtain ⟨entries, -, hload⟩ := Option.bind_eq_some_iff.mp hload
    cases hload
    exact hpos

/-- What is loaded after a history is written was accepted in the history. -/
theorem exists_content_of_load?_save {s : Storage} {h h' : History} {n : Nat}
    (hload : (s.save h).load? n = some h') :
    ∀ e' ∈ h'.entries, ∃ e ∈ h.entries, e'.content = e.content := by
  intro e' he'
  match s with
  | memory =>
    cases hload
    cases he'
  | file content =>
    have hmem : e'.content ∈ h'.entries.map HistoryEntry.content := List.mem_map_of_mem he'
    rw [History.content_of_ofFile?_toFile hload] at hmem
    obtain ⟨e, he, hcontent⟩ := List.mem_map.mp (List.mem_of_mem_drop hmem)
    exact ⟨e, he, hcontent.symm⟩

end Storage

namespace Session

/-! ### Accepted steps -/

/-- A text or an action that is accepted, or a table, leads from the first state to the second
one. -/
inductive Accepts : Session → Session → Prop
  | edit {s : Session} {text : String} {q : Query} (h : s.language.compile text = .ok q)
      (now : Timestamp) : Accepts s (s.edit now text).1
  | showTable (s : Session) (now : Timestamp) (table : String) : Accepts s (s.showTable now table)
  | perform {s : Session} {q : Query} (h : s.query = some q) (now : Timestamp) (action : Action) :
      Accepts s (s.perform now action)

/-- An accepted step takes a query with a text that presents it. -/
theorem Tracks.exists_record {s t : Session} (hs : s.Tracks) (h : Accepts s t) :
    ∃ now text q, Query.Presents text q ∧ t = s.record now text q := by
  cases h with
  | @edit text q h now =>
    have haccepted : Query.ofScript text = .ok q := by
      rw [hs.language_eq] at h
      exact h
    refine ⟨now, text, q, ⟨Query.expressible_of_ofScript haccepted, .inl haccepted⟩, ?_⟩
    rw [Session.edit, h]
  | showTable now table =>
    exact ⟨now, _, .table table, ⟨.table table, .inr ⟨s.config.indent, rfl⟩⟩, rfl⟩
  | @perform q h now action =>
    have hexpressible := Action.apply_expressible (hs.expressible q h) action
    refine ⟨now, _, action.apply q, ⟨hexpressible, .inr ⟨s.config.indent, rfl⟩⟩, ?_⟩
    rw [Session.perform, h]
    rfl

/-- What is done in a session is accepted, or leaves entries and storage as they are, or opens the
session anew. -/
theorem Follows.accepts_or {s t : Session} (h : Follows s t) :
    Accepts s t ∨ (t.config = s.config ∧ t.storage = s.storage ∧
      t.history.entries = s.history.entries ∧ t.history.maxEntries = s.history.maxEntries) ∨
        s.reopen? = some t := by
  cases h with
  | edit now text =>
    cases hcompile : s.language.compile text with
    | ok q => exact .inl (.edit hcompile now)
    | error e =>
      rw [Session.edit, hcompile]
      exact .inr (.inl ⟨rfl, rfl, rfl, rfl⟩)
  | showTable now table => exact .inl (.showTable s now table)
  | perform now action =>
    cases hquery : s.query with
    | some q => exact .inl (.perform hquery now action)
    | none =>
      rw [Session.perform, hquery]
      exact .inr (.inl ⟨rfl, rfl, rfl, rfl⟩)
  | previous =>
    refine .inr (.inl ⟨rfl, rfl, ?_⟩)
    rw [Session.previous, History.previous]
    cases s.history.previousIndex <;> exact ⟨rfl, rfl⟩
  | next =>
    refine .inr (.inl ⟨rfl, rfl, ?_⟩)
    rw [Session.next, History.next]
    cases s.history.nextIndex <;> exact ⟨rfl, rfl⟩
  | clearCursor => exact .inr (.inl ⟨rfl, rfl, rfl, rfl⟩)
  | reopen h => exact .inr (.inr h)

/-! ### Genuine histories -/

/-- The entries of the history and those in its storage are genuine. -/
structure Records (s : Session) : Prop where
  /-- The text of the session presents its query. -/
  tracks : s.Tracks
  /-- One entry is kept at least. -/
  maxEntries_pos : 0 < s.history.maxEntries
  /-- The entries of the history are genuine. -/
  genuine : ∀ e ∈ s.history.entries, e.Genuine
  /-- So are those that the session would have if it were opened anew. -/
  genuine_stored : ∀ h, s.storage.load? s.config.maxEntries = some h → ∀ e ∈ h.entries, e.Genuine

/-- A new session has the entries of its storage. -/
theorem Records.start {config : Config} {storage : Storage} {s : Session}
    (h : start? config storage = some s)
    (hgenuine : ∀ h, storage.load? config.maxEntries = some h → ∀ e ∈ h.entries, e.Genuine) :
    s.Records := by
  have htracks := Tracks.start h
  obtain ⟨history, hload, rfl⟩ := Option.map_eq_some_iff.mp h
  exact ⟨htracks, Storage.maxEntries_pos_of_load? hload, hgenuine history hload, hgenuine⟩

/-- A query is taken with a genuine entry. -/
theorem Records.record {s : Session} (h : s.Records) {now : Timestamp} {text : String} {q : Query}
    (hpresents : Query.Presents text q) (htracks : (s.record now text q).Tracks) :
    (s.record now text q).Records := by
  have hgenuine : ∀ e ∈ (s.record now text q).history.entries, e.Genuine := by
    intro e he
    rcases History.mem_entries_add he with rfl | he
    · exact ⟨q, hpresents, rfl⟩
    · exact h.genuine e he
  refine ⟨htracks, ?_, hgenuine, ?_⟩
  · exact (History.maxEntries_add _ _).symm ▸ h.maxEntries_pos
  · intro history hload e' he'
    obtain ⟨e, he, hcontent⟩ := Storage.exists_content_of_load?_save hload e' he'
    exact (hgenuine e he).of_content hcontent

/-- Whatever is done in a session, its entries stay genuine. -/
theorem Records.follow {s t : Session} (h : s.Records) (hfollows : Follows s t) : t.Records := by
  have htracks := h.tracks.follow hfollows
  rcases hfollows.accepts_or with haccepts | ⟨hconfig, hstorage, hentries, hmax⟩ | hreopen
  · obtain ⟨now, text, q, hpresents, rfl⟩ := h.tracks.exists_record haccepts
    exact h.record hpresents htracks
  · refine ⟨htracks, hmax ▸ h.maxEntries_pos, hentries ▸ h.genuine, ?_⟩
    rw [hconfig, hstorage]
    exact h.genuine_stored
  · exact .start hreopen h.genuine_stored

/-- Entries stay genuine over a run. -/
theorem Records.run {first s : Session} (h : first.Records)
    (hrun : Relation.ReflTransGen Follows first s) : s.Records := by
  induction hrun with
  | refl => exact h
  | tail _ hfollows ih => exact ih.follow hfollows

/-- After a query is taken, the newest entry has its text up to blanks around it, and its SQL. -/
theorem Records.exists_newest_record {s : Session} (h : s.Records) (now : Timestamp)
    {text : String} {q : Query} (hpresents : Query.Presents text q) :
    ∃ e, (s.record now text q).history.entries.getLast? = some e ∧
      Text.trim e.text = Text.trim text ∧ e.sql = q.toCompactSql := by
  obtain ⟨e, hnewest, htrim, hadded | hbefore⟩ :=
    History.exists_newest_add h.maxEntries_pos ⟨text, q.toCompactSql, now⟩
  · exact ⟨e, hnewest, htrim, by rw [hadded]⟩
  · obtain ⟨p, hp, hsql⟩ := h.genuine e hbefore
    refine ⟨e, hnewest, htrim, ?_⟩
    rw [hsql, Query.toCompactSql, hp.statement_eq hpresents htrim, Query.toCompactSql]

/-! ### Newest entries -/

/-- A table that is shown again is not taken into the history again. -/
theorem history_showTable_again {s : Session} (hkept : 0 < s.history.maxEntries)
    (now later : Timestamp) (table : String) :
    ((s.showTable now table).showTable later table).history = (s.showTable now table).history :=
  History.add_add hkept rfl

/-- In a run from a session without history, the newest entry after an accepted step has the text
of the session up to blanks around it, and the SQL of its query. Searching is no step of a run: it
changes nothing. -/
theorem exists_newest_of_accepts {config : Config} {storage : Storage} {first s t : Session}
    (hstart : start? config storage = some first) (hempty : first.history.entries = [])
    (hrun : Relation.ReflTransGen Follows first s) (haccepts : Accepts s t) :
    ∃ q e, t.query = some q ∧ t.history.entries.getLast? = some e ∧
      Text.trim e.text = Text.trim t.text ∧ e.sql = q.toCompactSql := by
  have hfirst : first.Records := by
    refine .start hstart fun history hload e he => ?_
    obtain ⟨history', hload', rfl⟩ := Option.map_eq_some_iff.mp hstart
    rw [hload] at hload'
    cases hload'
    rw [hempty] at he
    cases he
  have hs := hfirst.run hrun
  obtain ⟨now, text, q, hpresents, rfl⟩ := hs.tracks.exists_record haccepts
  obtain ⟨e, hnewest, htrim, hsql⟩ := hs.exists_newest_record now hpresents
  exact ⟨q, e, rfl, hnewest, htrim, hsql⟩

/-- A table that is shown again is not added to the history, and still the newest entry describes
it. -/
theorem exists_newest_of_accepts_again :
    let now : Timestamp := ⟨2024, 1, 2, 3, 4, 5, 0⟩
    let first : Session := ⟨{}, .script, "", none, none, .empty 500, .file none⟩
    let s := first.showTable now "t"
    let t := s.showTable now "t"
    (start? {} (.file none) = some first ∧ first.history.entries = [] ∧
      Relation.ReflTransGen Follows first s ∧ Accepts s t) ∧
    t.history = s.history ∧
    ∃ q e, t.query = some q ∧ t.history.entries.getLast? = some e ∧
      Text.trim e.text = Text.trim t.text ∧ e.sql = q.toCompactSql := by
  intro now first s t
  have hrun : Relation.ReflTransGen Follows first s := .single (.showTable first now "t")
  have haccepts : Accepts s t := .showTable s now "t"
  have hagain : t.history = s.history := history_showTable_again (by decide) now now "t"
  exact ⟨⟨rfl, rfl, hrun, haccepts⟩, hagain,
    exists_newest_of_accepts (rfl : start? {} (.file none) = some first) rfl hrun haccepts⟩

end Session

end FluentSql
