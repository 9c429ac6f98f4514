import FluentSql.Config
import FluentSql.History.File
import FluentSql.Language
import FluentSql.Query.Script
import FluentSql.Query.Sql

/-!
# Editing sessions

A session holds the text that is being edited and the last query that a text stood for. A text that
is rejected leaves everything as it was, apart from the error that is reported.
-/

namespace FluentSql

/-- What the user of a table view adds to the current query. -/
inductive Action
  /-- Counts how often each combination of values occurs. -/
  | valueCounts (columns : List String)
  /-- Projects columns; without any, all columns. -/
  | select (columns : List String)
  /-- Converts a column in place. -/
  | cast (column dataType : String)
  /-- Sorts by a column. -/
  | sort (column : String) (direction : SortDirection)
deriving DecidableEq

/-- The query with an action added. -/
def Action.apply (q : Query) : Action → Query
  | valueCounts columns => q.valueCounts (columns.map .column)
  | select columns => q.select (columns.map .column)
  | cast column dataType => q.withCast column dataType
  | sort column direction => q.sortBy column direction

/-- Where the history of a session is kept. -/
inductive Storage
  /-- In memory alone. -/
  | memory
  /-- In a file with the given text, or one that is missing. -/
  | file (content : Option String)
deriving DecidableEq

namespace Storage

/-- A file with the given text if the settings ask for one. -/
def ofConfig (config : Config) (content : Option String) : Storage :=
  if config.persist then .file content else .memory

/-- The history that is stored; none if it cannot be read. -/
def load? (s : Storage) (maxEntries : Nat) : Option History :=
  match s with
  | memory => some (.empty maxEntries)
  | file content => History.load? content maxEntries

/-- The storage after a history is written to it. -/
def save (s : Storage) (h : History) : Storage :=
  match s with
  | memory => .memory
  | file _ => .file (some h.toFile)

end Storage

/-- An editing session. -/
structure Session where
  /-- The settings. -/
  config : Config
  /-- The language in which texts are edited. -/
  language : Language
  /-- The text of the last query. -/
  text : String
  /-- The last query. -/
  query : Option Query
  /-- Why the latest text was rejected, if it was. -/
  error : Option Error
  /-- The accepted texts. -/
  history : History
  /-- Where the history is kept. -/
  storage : Storage

namespace Session

/-- A new session; there is none if the history cannot be read. -/
def start? (config : Config) (storage : Storage) : Option Session :=
  (storage.load? config.maxEntries).map fun history =>
    { config, language := .script, text := "", query := none, error := none, history, storage }

/-- A new session with the settings and the storage of this one. -/
def reopen? (s : Session) : Option Session :=
  start? s.config s.storage

/-- The session with texts in another language. -/
def withLanguage (s : Session) (language : Language) : Session :=
  { s with language }

/-- The SQL of the current query, as the settings ask for it. -/
def sql (s : Session) : Option String :=
  s.query.map fun q => if s.config.pretty then q.toSql s.config.indent else q.toCompactSql

/-- Takes a query with its text, at a time. -/
def record (s : Session) (now : Timestamp) (text : String) (q : Query) : Session :=
  let history := s.history.add ⟨text, q.toCompactSql, now⟩
  { s with text, query := some q, error := none, history, storage := s.storage.save history }

/-- Takes an edited text, or keeps the last query and reports the error. -/
def edit (s : Session) (now : Timestamp) (text : String) : Session × Except Error Query :=
  match s.language.compile text with
  | .ok q => (s.record now text q, .ok q)
  | .error e => ({ s with error := some e }, .error e)

/-- Takes a query and writes its text. -/
def recordQuery (s : Session) (now : Timestamp) (q : Query) : Session :=
  s.record now (q.toScript s.config.indent) q

/-- Starts over with a table. -/
def showTable (s : Session) (now : Timestamp) (table : String) : Session :=
  s.recordQuery now (.table table)

/-- Adds an action to the current query; without one nothing happens. -/
def perform (s : Session) (now : Timestamp) (action : Action) : Session :=
  match s.query with
  | none => s
  | some q => s.recordQuery now (action.apply q)

/-- Goes back in the history. -/
def previous (s : Session) : Session × Option HistoryEntry :=
  let (history, entry) := s.history.previous
  ({ s with history }, entry)

/-- Goes forth in the history. -/
def next (s : Session) : Session × Option HistoryEntry :=
  let (history, entry) := s.history.next
  ({ s with history }, entry)

/-- Forgets which entry of the history was shown last. -/
def clearCursor (s : Session) : Session :=
  { s with history := s.history.clearCursor }

/-- The entries of the history whose text contains a needle, in any letter case. -/
def search (s : Session) (needle : String) : List HistoryEntry :=
  s.history.search needle

end Session

end FluentSql
