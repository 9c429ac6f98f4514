import FluentSql.Proofs.History.Reload
import FluentSql.Session

/-!
# Sessions that are opened anew

A session that keeps its history in a file can be opened anew at any time, and its history does not
show it. The file may differ from the history until a query is accepted, since loading forgets the
oldest entries of a long file, but then it is loaded with the entries of the history all the same.
-/

namespace FluentSql

/-! ### What was accepted -/

namespace History

/-- What was accepted: the texts and their SQL, the oldest first. -/
def contents (h : History) : List (String × String) :=
  h.entries.map HistoryEntry.content

/-- Whether an entry repeats the newest one is seen in what was accepted. -/
theorem repeats_eq (h : History) (entry : HistoryEntry) :
    h.repeats entry = h.contents.getLast?.any fun newest =>
      Text.trim newest.1 == Text.trim entry.text := by
  rw [repeats, contents, List.getLast?_map]
  cases h.entries.getLast? <;> rfl

/-- What was accepted after an addition depends on what was accepted before, not on times. -/
theorem contents_add (h : History) (entry : HistoryEntry) :
    (h.add entry).contents =
      if h.contents.getLast?.any fun newest => Text.trim newest.1 == Text.trim entry.text then
        h.contents
      else lastOf h.maxEntries (h.contents ++ [entry.content]) := by
  rw [← repeats_eq, add]
  split_ifs
  · rfl
  · simp [contents, map_lastOf]

end History

namespace Storage

/-- The entries in the file; none if it is missing or cannot be read. -/
def entries? : Storage → Option (List HistoryEntry)
  | memory => none
  | file content => content.bind fun text => (Json.ofText? text).bind History.entriesOfJson?

/-- What was accepted, as the file has it. -/
def contents? (s : Storage) : Option (List (String × String)) :=
  s.entries?.map (·.map HistoryEntry.content)

end Storage

/-! ### Runs with reopenings -/

/-- A point in time that can be written and read. -/
def Instant := { t : Timestamp // t.isValid = true }

/-- What makes a query without an earlier one. -/
inductive Input
  /-- An edited text. -/
  | edit (text : String)
  /-- A table. -/
  | showTable (table : String)

/-- What is done with a session. -/
inductive SessionUse
  /-- An input is taken, at a time. -/
  | take (now : Instant) (input : Input)
  /-- The session is opened anew. -/
  | reopen

/-- The second list takes the inputs of the first one, with reopenings anywhere between them and at
any times. -/
inductive WithReopenings : List SessionUse → List SessionUse → Prop
  | nil : WithReopenings [] []
  | take {uses uses' : List SessionUse} (now now' : Instant) (input : Input)
      (h : WithReopenings uses uses') :
      WithReopenings (.take now input :: uses) (.take now' input :: uses')
  | reopen {uses uses' : List SessionUse} (h : WithReopenings uses uses') :
      WithReopenings uses (.reopen :: uses')

/-- The text and the query that an input stands for. -/
def Input.compile (language : Language) (indent : Nat) : Input → Except Error (String × Query)
  | edit text => (language.compile text).map fun q => (text, q)
  | showTable table => .ok ((Query.table table).toScript indent, .table table)

namespace Session

/-- The session after an input, and the query with its SQL, or the error. -/
def take (s : Session) (now : Instant) (input : Input) :
    Session × Except Error (Query × Option String) :=
  let (t, answer) : Session × Except Error Query :=
    match input with
    | .edit text => s.edit now.val text
    | .showTable table => (s.showTable now.val table, .ok (.table table))
  (t, answer.map fun q => (q, t.sql))

/-- The session after all that is done with it, and the answers to the inputs; none if it cannot be
opened anew. -/
def run? (s : Session) :
    List SessionUse → Option (Session × List (Except Error (Query × Option String)))
  | [] => some (s, [])
  | .take now input :: uses =>
    ((s.take now input).1.run? uses).map fun (t, answers) => (t, (s.take now input).2 :: answers)
  | .reopen :: uses => s.reopen?.bind fun t => t.run? uses

/-- An input is taken with the text and the query that it stands for. -/
theorem take_eq (s : Session) (now : Instant) (input : Input) :
    s.take now input =
      match input.compile s.language s.config.indent with
      | .ok (text, q) => (s.record now.val text q, .ok (q, (s.record now.val text q).sql))
      | .error e => ({ s with error := some e }, .error e) := by
  cases input with
  | showTable table => rfl
  | edit text =>
    simp only [take, Session.edit, Input.compile]
    cases s.language.compile text <;> rfl

/-! ### One step -/

/-- The session keeps its history in a file, and would be opened anew with that history. -/
structure Reopens (s : Session) : Prop where
  /-- Texts are scripts. -/
  language_eq : s.language = .script
  /-- The history can be written and read back. -/
  sound : s.history.Sound s.config.maxEntries
  /-- There is a file. -/
  file : ∃ content, s.storage = .file content
  /-- The file is loaded with the history. -/
  load?_eq : s.storage.load? s.config.maxEntries = some s.history.clearCursor

/-- Two sessions with the same settings whose histories and files hold the same texts and SQL. -/
structure Alike (s t : Session) : Prop where
  /-- The first one can be opened anew. -/
  left : s.Reopens
  /-- The second one can be opened anew. -/
  right : t.Reopens
  /-- The settings are the same. -/
  config_eq : t.config = s.config
  /-- The histories hold the same. -/
  contents_eq : t.history.contents = s.history.contents
  /-- The files hold the same. -/
  stored_eq : t.storage.contents? = s.storage.contents?

variable {config : Config} {s t : Session}

/-- A session that is opened with a file can be opened anew. -/
theorem Reopens.start {content : Option String} (hstart : start? config (.file content) = some s) :
    s.Reopens := by
  obtain ⟨history, hload, rfl⟩ := Option.map_eq_some_iff.mp hstart
  refine ⟨rfl, History.sound_of_load? hload, ⟨content, rfl⟩, ?_⟩
  exact hload.trans (congrArg some (History.clearCursor_of_load? hload).symm)

/-- After a query is taken the file holds the history. -/
theorem Reopens.storage_record (h : s.Reopens) (now : Timestamp) (text : String) (q : Query) :
    (s.record now text q).storage = .file (some (s.record now text q).history.toFile) := by
  obtain ⟨content, hfile⟩ := h.file
  rw [record, hfile]
  rfl

/-- After a query is taken the entries in the file are those of the history. -/
theorem Reopens.entries?_record (h : s.Reopens) (hsize : s.config.maxEntries < UInt64.size)
    (now : Instant) (text : String) (q : Query) :
    (s.record now.val text q).storage.entries? =
      some (s.record now.val text q).history.entries := by
  have hsound : (s.record now.val text q).history.Sound s.config.maxEntries :=
    h.sound.add now.property
  rw [h.storage_record, Storage.entries?, Option.bind_some, History.toFile,
    Json.ofText?_toText (History.plain_toJson _), Option.bind_some,
    hsound.entriesOfJson?_toJson hsize]

/-- After a query is taken the session can be opened anew. -/
theorem Reopens.record (h : s.Reopens) (hsize : s.config.maxEntries < UInt64.size)
    (now : Instant) (text : String) (q : Query) : (s.record now.val text q).Reopens := by
  have hsound : (s.record now.val text q).history.Sound s.config.maxEntries :=
    h.sound.add now.property
  have hfile := h.storage_record now.val text q
  exact ⟨h.language_eq, hsound, ⟨_, hfile⟩, hfile ▸ hsound.load?_toFile hsize⟩

/-- A session that reports an error can be opened anew as before. -/
theorem Reopens.reject (h : s.Reopens) (e : Error) :
    Reopens { s with error := some e } :=
  ⟨h.language_eq, h.sound, h.file, h.load?_eq⟩

/-- The session that is opened anew. -/
theorem Reopens.reopen?_eq (h : s.Reopens) :
    s.reopen? = some { s with
      text := "", query := none, error := none, history := s.history.clearCursor } := by
  rw [reopen?, start?, h.load?_eq, ← h.language_eq]
  rfl

/-- A session that was opened anew can be opened anew. -/
theorem Reopens.reopen (h : s.Reopens) (ht : s.reopen? = some t) : t.Reopens := by
  obtain ⟨content, hfile⟩ := h.file
  rw [reopen?, hfile] at ht
  exact .start ht

/-- A session can be opened anew, and is alike to any that it was alike to. -/
theorem Alike.reopen (h : Alike s t) : ∃ t', t.reopen? = some t' ∧ Alike s t' := by
  have hreopen := h.right.reopen?_eq
  exact ⟨_, hreopen, h.left, h.right.reopen hreopen, h.config_eq, h.contents_eq, h.stored_eq⟩

/-- The SQL after a query is taken depends on the query and on the settings alone. -/
theorem sql_record (s : Session) (now : Timestamp) (text : String) (q : Query) :
    (s.record now text q).sql =
      some (if s.config.pretty then q.toSql s.config.indent else q.toCompactSql) :=
  rfl

/-- What was accepted after a query is taken does not depend on when the session was opened. -/
theorem Alike.contents_record (h : Alike s t) (now now' : Instant) (text : String) (q : Query) :
    (t.record now'.val text q).history.contents = (s.record now.val text q).history.contents := by
  have hmax : t.history.maxEntries = s.history.maxEntries := by
    rw [h.right.sound.maxEntries_eq, h.left.sound.maxEntries_eq, h.config_eq]
  rw [record, record]
  simp only
  rw [History.contents_add, History.contents_add, h.contents_eq, hmax]
  rfl

/-- Sessions that are alike take the same input alike. -/
theorem Alike.take (h : Alike s t) (hsize : s.config.maxEntries < UInt64.size)
    (now now' : Instant) (input : Input) :
    Alike (s.take now input).1 (t.take now' input).1 ∧
      (t.take now' input).2 = (s.take now input).2 := by
  have hsize' : t.config.maxEntries < UInt64.size := h.config_eq ▸ hsize
  have hcompile : input.compile t.language t.config.indent =
      input.compile s.language s.config.indent := by
    rw [h.left.language_eq, h.right.language_eq, h.config_eq]
  rw [take_eq, take_eq, hcompile]
  rcases input.compile s.language s.config.indent with e | ⟨text, q⟩
  · exact ⟨⟨h.left.reject e, h.right.reject e, h.config_eq, h.contents_eq, h.stored_eq⟩, rfl⟩
  · have hcontents := h.contents_record now now' text q
    refine ⟨⟨h.left.record hsize now text q, h.right.record hsize' now' text q, h.config_eq,
      hcontents, ?_⟩, ?_⟩
    · simp only [Storage.contents?, h.left.entries?_record hsize, h.right.entries?_record hsize']
      exact congrArg some hcontents
    · simp only [sql_record, h.config_eq]

/-- After an input is accepted the entries in the file are those of the history. -/
theorem Reopens.entries?_take (h : s.Reopens) (hsize : s.config.maxEntries < UInt64.size)
    (now : Instant) (input : Input) {answer : Query × Option String}
    (hanswer : (s.take now input).2 = .ok answer) :
    (s.take now input).1.storage.entries? = some (s.take now input).1.history.entries := by
  rw [take_eq] at hanswer ⊢
  split at hanswer
  · exact h.entries?_record hsize now _ _
  · cases hanswer

/-! ### Runs -/

/-- An input does not change the settings. -/
theorem config_take (s : Session) (now : Instant) (input : Input) :
    (s.take now input).1.config = s.config := by
  rw [take_eq]
  split <;> rfl

/-- Runs of sessions that are alike, one of them with reopenings, end alike and have the same
answers. -/
theorem Alike.run? {uses uses' : List SessionUse} (huses : WithReopenings uses uses')
    (h : Alike s t) (hsize : s.config.maxEntries < UInt64.size) :
    ∃ s' t' answers, s.run? uses = some (s', answers) ∧ t.run? uses' = some (t', answers) ∧
      Alike s' t' ∧ s'.config = s.config := by
  induction huses generalizing s t with
  | nil => exact ⟨s, t, [], rfl, rfl, h, rfl⟩
  | take now now' input _ ih =>
    obtain ⟨htake, hanswer⟩ := h.take hsize now now' input
    have hconfig := config_take s now input
    obtain ⟨s', t', answers, hs', ht', halike, hconfig'⟩ := ih htake (hconfig ▸ hsize)
    refine ⟨s', t', (s.take now input).2 :: answers, ?_, ?_, halike, hconfig'.trans hconfig⟩
    · rw [Session.run?, hs', Option.map_some]
    · rw [Session.run?, ht', Option.map_some, hanswer]
  | reopen _ ih =>
    obtain ⟨t', hreopen, halike⟩ := h.reopen
    obtain ⟨s', t'', answers, hs', ht'', hend⟩ := ih halike hsize
    refine ⟨s', t'', answers, hs', ?_, hend⟩
    rw [Session.run?, hreopen, Option.bind_some, ht'']

/-- A session with a file can be opened anew anywhere in a run, at no cost: all inputs are answered
as they would have been, with the same queries, SQL and errors, and in the end history and file hold
the same texts and SQL. Whenever an input is accepted, the entries in the file are those of the
history. -/
theorem run?_withReopenings {content : Option String} {first : Session}
    (hstart : start? config (.file content) = some first)
    (hsize : config.maxEntries < UInt64.size) {uses uses' : List SessionUse}
    (huses : WithReopenings uses uses') :
    ∃ s t answers, first.run? uses = some (s, answers) ∧ first.run? uses' = some (t, answers) ∧
      t.history.contents = s.history.contents ∧ t.storage.contents? = s.storage.contents? ∧
      ∀ now input answer, (t.take now input).2 = .ok answer →
        (t.take now input).1.storage.entries? = some (t.take now input).1.history.entries := by
  have hfirst : first.Reopens := .start hstart
  have hconfig : first.config = config := by
    obtain ⟨history, -, rfl⟩ := Option.map_eq_some_iff.mp hstart
    rfl
  subst hconfig
  obtain ⟨s, t, answers, hs, ht, halike, hconfig⟩ :=
    Alike.run? huses ⟨hfirst, hfirst, rfl, rfl, rfl⟩ hsize
  refine ⟨s, t, answers, hs, ht, halike.contents_eq, halike.stored_eq, fun now input answer => ?_⟩
  refine halike.right.entries?_take ?_ now input
  rw [halike.config_eq, hconfig]
  exact hsize

/-- Of two entries in a file, a session that keeps one loads the newest, and forgets it for a table,
whether it is opened anew or not. -/
theorem run?_withReopenings_two :
    let now : Instant := ⟨⟨2024, 1, 2, 3, 4, 5, 0⟩, rfl⟩
    let entry (text : String) : HistoryEntry := ⟨text, "SELECT 1", now.val⟩
    let file := Storage.file (some (History.toFile ⟨[entry "a", entry "b"], none, 2⟩))
    let kept : History := ⟨[entry "b"], none, 1⟩
    let first : Session := ⟨{ maxEntries := 1 }, .script, "", none, none, kept, file⟩
    let uses : List SessionUse := [.take now (.showTable "t")]
    let uses' : List SessionUse := [.reopen, .take now (.showTable "t"), .reopen]
    (start? { maxEntries := 1 } file = some first ∧ 1 < UInt64.size ∧ WithReopenings uses uses') ∧
      ∃ s t answers, first.run? uses = some (s, answers) ∧ first.run? uses' = some (t, answers) ∧
        s.history.contents = [("XQL.from(\"t\")", "SELECT * FROM t")] ∧
        t.history.contents = s.history.contents ∧ t.storage.contents? = s.storage.contents? := by
  intro now entry file kept first uses uses'
  have hsound : History.Sound ⟨[entry "a", entry "b"], none, 2⟩ 2 :=
    ⟨rfl, by decide, by decide⟩
  have hstart : start? { maxEntries := 1 } file = some first := by
    rw [start?, Storage.load?, History.load?, History.ofFile?_toFile, if_pos (by decide),
      HistoryEntry.mapM_reread?_of_isValid hsound.valid]
    rfl
  have hsize : 1 < UInt64.size := by decide
  have huses : WithReopenings uses uses' := .reopen (.take now now _ (.reopen .nil))
  obtain ⟨s, t, answers, hs, ht, hcontents, hstored, -⟩ := run?_withReopenings hstart hsize huses
  refine ⟨⟨hstart, hsize, huses⟩, s, t, answers, hs, ht, ?_, hcontents, hstored⟩
  cases hs
  decide +kernel

end Session

end FluentSql
