import FluentSql.History.Basic
import FluentSql.Json.Reader
import FluentSql.Json.Writer

/-!
# History files

A history file is a JSON record of the entries and of the number of entries kept. On loading, the
number asked for replaces the one in the file.
-/

namespace FluentSql

namespace HistoryEntry

/-- The entry as a JSON record. -/
def toJson (e : HistoryEntry) : Json :=
  .object [("text", .string e.text), ("sql", .string e.sql),
    ("timestamp", .string e.timestamp.toText)]

/-- The entry that a JSON record describes. -/
def ofJson? (j : Json) : Option HistoryEntry := do
  match ← j.fields? ["text", "sql", "timestamp"] with
  | [text, sql, timestamp] =>
    return ⟨← text.string?, ← sql.string?, ← Timestamp.ofText? (← timestamp.string?)⟩
  | _ => none

end HistoryEntry

namespace History

/-- The history as a JSON record. -/
def toJson (h : History) : Json :=
  .object [("entries", .array (h.entries.map HistoryEntry.toJson)),
    ("max_entries", .natural h.maxEntries)]

/-- The text of the history's file. -/
def toFile (h : History) : String :=
  h.toJson.toText

/-- The entries that a JSON record of a history holds. -/
def entriesOfJson? (j : Json) : Option (List HistoryEntry) := do
  match ← j.fields? ["entries", "max_entries"] with
  | [entries, maxEntries] =>
    let _ ← maxEntries.size?
    (← entries.array?).mapM HistoryEntry.ofJson?
  | _ => none

/-- The history that a file of this text holds, cut to a number of entries. -/
def ofFile? (text : String) (maxEntries : Nat) : Option History := do
  let entries ← entriesOfJson? (← Json.ofText? text)
  return ⟨lastOf (max maxEntries 1) entries, none, max maxEntries 1⟩

/-- The history of a file, which is empty if the file is missing; none if it cannot be read. -/
def load? (content : Option String) (maxEntries : Nat) : Option History :=
  match content with
  | none => some (empty maxEntries)
  | some text => ofFile? text maxEntries

end History

end FluentSql
