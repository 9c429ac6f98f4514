import FluentSql.History.File
import FluentSql.Proofs.Json.Written

/-!
# History files are read back

The file of a history gives back the texts and the SQL of the latest entries. It can be read unless
a time of an entry cannot, or the number of entries kept does not fit into 64 bits.
-/

namespace FluentSql

namespace HistoryEntry

/-- The entry with its time read back from the text of it. -/
def reread? (e : HistoryEntry) : Option HistoryEntry :=
  (Timestamp.ofText? e.timestamp.toText).map fun timestamp => { e with timestamp }

/-- What was accepted: the text and its SQL. -/
def content (e : HistoryEntry) : String × String :=
  (e.text, e.sql)

/-- Reading an entry back keeps what was accepted. -/
theorem content_of_reread? {e e' : HistoryEntry} (h : e.reread? = some e') :
    e'.content = e.content := by
  obtain ⟨timestamp, -, rfl⟩ := Option.map_eq_some_iff.mp h
  rfl

/-- Reading entries back keeps what was accepted. -/
theorem map_content_of_mapM_reread? {entries entries' : List HistoryEntry}
    (h : entries.mapM reread? = some entries') :
    entries'.map content = entries.map content := by
  induction entries generalizing entries' with
  | nil =>
    rw [List.mapM_nil] at h
    cases h
    rfl
  | cons e entries ih =>
    rw [List.mapM_cons] at h
    obtain ⟨e', he, h⟩ := Option.bind_eq_some_iff.mp h
    obtain ⟨rest, hrest, h⟩ := Option.bind_eq_some_iff.mp h
    cases h
    rw [List.map_cons, List.map_cons, content_of_reread? he, ih hrest]

/-- The record of an entry is read back. -/
theorem ofJson?_toJson (e : HistoryEntry) : ofJson? e.toJson = e.reread? := by
  have hfields : e.toJson.fields? ["text", "sql", "timestamp"] =
      some [.string e.text, .string e.sql, .string e.timestamp.toText] := rfl
  rw [ofJson?, hfields]
  simp only [Option.bind_eq_bind, Option.bind_some, Json.string?]
  rw [reread?, Option.map_eq_bind]
  rfl

end HistoryEntry

namespace History

/-- The record of a history holds strings and one natural number alone. -/
theorem plain_toJson (h : History) : h.toJson.Plain := by
  have hentries (entries : List HistoryEntry) :
      Json.ListPlain (entries.map HistoryEntry.toJson) := by
    induction entries with
    | nil => trivial
    | cons e entries ih => exact ⟨⟨trivial, trivial, trivial, trivial⟩, ih⟩
  exact ⟨hentries h.entries, trivial, trivial⟩

/-- The record of a history is read back to its entries if the number of entries kept fits. -/
theorem entriesOfJson?_toJson (h : History) :
    entriesOfJson? h.toJson =
      if h.maxEntries < UInt64.size then h.entries.mapM HistoryEntry.reread? else none := by
  have hfields : h.toJson.fields? ["entries", "max_entries"] =
      some [.array (h.entries.map HistoryEntry.toJson), .natural h.maxEntries] := rfl
  have hentries : (h.entries.map HistoryEntry.toJson).mapM HistoryEntry.ofJson? =
      h.entries.mapM HistoryEntry.reread? := by
    rw [List.mapM_map]
    exact congrArg (List.mapM · h.entries) (funext HistoryEntry.ofJson?_toJson)
  rw [entriesOfJson?, hfields]
  split_ifs with hsize
  · simp [Json.size?, Json.array?, hsize, hentries]
  · simp [Json.size?, hsize]

/-- The file of a history is read back to the latest entries, with their times read back. -/
theorem ofFile?_toFile (h : History) (maxEntries : Nat) :
    ofFile? h.toFile maxEntries =
      if h.maxEntries < UInt64.size then
        (h.entries.mapM HistoryEntry.reread?).map fun entries =>
          ⟨lastOf (max maxEntries 1) entries, none, max maxEntries 1⟩
      else none := by
  rw [ofFile?, toFile, Json.ofText?_toText h.plain_toJson]
  simp only [Option.bind_eq_bind, Option.bind_some]
  rw [entriesOfJson?_toJson]
  split_ifs
  · cases h.entries.mapM HistoryEntry.reread? <;> rfl
  · rfl

/-- A file that is read keeps what was accepted in the latest entries. -/
theorem content_of_ofFile?_toFile {h h' : History} {maxEntries : Nat}
    (hload : ofFile? h.toFile maxEntries = some h') :
    h'.entries.map HistoryEntry.content =
      lastOf (max maxEntries 1) (h.entries.map HistoryEntry.content) := by
  rw [ofFile?_toFile] at hload
  split_ifs at hload
  obtain ⟨entries, hentries, rfl⟩ := Option.map_eq_some_iff.mp hload
  rw [map_lastOf, HistoryEntry.map_content_of_mapM_reread? hentries]

end History

end FluentSql
