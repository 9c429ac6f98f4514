import FluentSql.Proofs.History.Adding
import FluentSql.Proofs.History.File
import FluentSql.Proofs.History.Timestamp

/-!
# Histories are reloaded as they were

A history whose times are valid and that holds no more entries than it keeps is read back from its
file with the same entries. All histories are of this sort: empty ones, those read from any file,
and those that come of them.
-/

namespace FluentSql

namespace HistoryEntry

/-- An entry with a valid time is read back as it is. -/
theorem reread?_of_isValid {e : HistoryEntry} (h : e.timestamp.isValid = true) :
    e.reread? = some e := by
  rw [reread?, Timestamp.ofText?_toText h, Option.map_some]

/-- Entries with valid times are read back as they are. -/
theorem mapM_reread?_of_isValid {entries : List HistoryEntry}
    (h : ∀ e ∈ entries, e.timestamp.isValid = true) : entries.mapM reread? = some entries := by
  induction entries with
  | nil => rfl
  | cons e entries ih =>
    obtain ⟨he, hentries⟩ := List.forall_mem_cons.mp h
    rw [List.mapM_cons, reread?_of_isValid he, ih hentries]
    rfl

/-- An entry that is read has a valid time. -/
theorem isValid_of_ofJson? {j : Json} {e : HistoryEntry} (h : ofJson? j = some e) :
    e.timestamp.isValid = true := by
  obtain ⟨fields, -, h⟩ := Option.bind_eq_some_iff.mp h
  split at h
  · next text sql timestamp =>
    obtain ⟨text, -, h⟩ := Option.bind_eq_some_iff.mp h
    obtain ⟨sql, -, h⟩ := Option.bind_eq_some_iff.mp h
    obtain ⟨written, -, h⟩ := Option.bind_eq_some_iff.mp h
    obtain ⟨read, hread, h⟩ := Option.bind_eq_some_iff.mp h
    cases h
    exact Timestamp.isValid_of_ofText? hread
  · cases h

/-- Entries that are read have valid times. -/
theorem isValid_of_mapM_ofJson? {items : List Json} {entries : List HistoryEntry}
    (h : items.mapM ofJson? = some entries) : ∀ e ∈ entries, e.timestamp.isValid = true := by
  induction items generalizing entries with
  | nil =>
    rw [List.mapM_nil] at h
    cases h
    simp
  | cons j items ih =>
    rw [List.mapM_cons] at h
    obtain ⟨e, he, h⟩ := Option.bind_eq_some_iff.mp h
    obtain ⟨rest, hrest, h⟩ := Option.bind_eq_some_iff.mp h
    cases h
    exact List.forall_mem_cons.mpr ⟨isValid_of_ofJson? he, ih hrest⟩

end HistoryEntry

namespace History

/-- The history keeps the number of entries that is asked for, and times that can be written. -/
structure Sound (h : History) (maxEntries : Nat) : Prop where
  /-- One entry at least is kept. -/
  maxEntries_eq : h.maxEntries = max maxEntries 1
  /-- There are no more entries than are kept. -/
  length_le : h.entries.length ≤ max maxEntries 1
  /-- The times of the entries are valid. -/
  valid : ∀ e ∈ h.entries, e.timestamp.isValid = true

variable {h h' : History} {maxEntries : Nat}

/-- An empty history is sound. -/
theorem sound_empty (maxEntries : Nat) : (empty maxEntries).Sound maxEntries :=
  ⟨rfl, Nat.zero_le _, by simp [empty]⟩

/-- The cursor does not matter. -/
theorem Sound.of_entries_eq (hsound : h.Sound maxEntries) (hentries : h'.entries = h.entries)
    (hmax : h'.maxEntries = h.maxEntries) : h'.Sound maxEntries :=
  ⟨hmax.trans hsound.maxEntries_eq, hentries ▸ hsound.length_le, hentries ▸ hsound.valid⟩

/-- Adding an entry keeps a history sound. -/
theorem Sound.add (hsound : h.Sound maxEntries) {entry : HistoryEntry}
    (hentry : entry.timestamp.isValid = true) : (h.add entry).Sound maxEntries := by
  refine ⟨(maxEntries_add h entry).trans hsound.maxEntries_eq, ?_, fun e he => ?_⟩
  · unfold History.add
    split_ifs
    · exact hsound.length_le
    · rw [length_lastOf, hsound.maxEntries_eq]
      exact Nat.min_le_left _ _
  · rcases mem_entries_add he with rfl | he
    · exact hentry
    · exact hsound.valid e he

/-- A history that is loaded has the last of some entries with valid times, and no cursor. -/
theorem exists_entries_of_load? {content : Option String}
    (hload : load? content maxEntries = some h) :
    ∃ entries, h = ⟨lastOf (max maxEntries 1) entries, none, max maxEntries 1⟩ ∧
      ∀ e ∈ entries, e.timestamp.isValid = true := by
  cases content with
  | none =>
    cases hload
    exact ⟨[], by simp [empty, lastOf], by simp⟩
  | some text =>
    obtain ⟨j, -, hload⟩ := Option.bind_eq_some_iff.mp hload
    obtain ⟨entries, hentries, hload⟩ := Option.bind_eq_some_iff.mp hload
    cases hload
    refine ⟨entries, rfl, ?_⟩
    obtain ⟨fields, -, hentries⟩ := Option.bind_eq_some_iff.mp hentries
    split at hentries
    · obtain ⟨-, -, hentries⟩ := Option.bind_eq_some_iff.mp hentries
      obtain ⟨items, -, hentries⟩ := Option.bind_eq_some_iff.mp hentries
      exact HistoryEntry.isValid_of_mapM_ofJson? hentries
    · cases hentries

/-- Every history that is loaded is sound. -/
theorem sound_of_load? {content : Option String} (hload : load? content maxEntries = some h) :
    h.Sound maxEntries := by
  obtain ⟨entries, rfl, hvalid⟩ := exists_entries_of_load? hload
  refine ⟨rfl, ?_, fun e he => hvalid e (List.mem_of_mem_drop he)⟩
  rw [length_lastOf]
  exact Nat.min_le_left _ _

/-- A history that is loaded has no cursor. -/
theorem clearCursor_of_load? {content : Option String}
    (hload : load? content maxEntries = some h) : h.clearCursor = h := by
  obtain ⟨entries, rfl, -⟩ := exists_entries_of_load? hload
  rfl

/-- The file of a sound history holds its entries. -/
theorem Sound.entriesOfJson?_toJson (hsound : h.Sound maxEntries)
    (hsize : maxEntries < UInt64.size) : entriesOfJson? h.toJson = some h.entries := by
  have hmax : h.maxEntries < UInt64.size := by
    rw [hsound.maxEntries_eq]
    exact Nat.max_lt.mpr ⟨hsize, by decide⟩
  rw [History.entriesOfJson?_toJson, if_pos hmax,
    HistoryEntry.mapM_reread?_of_isValid hsound.valid]

/-- A sound history is read back from its file as it is, but for the cursor. -/
theorem Sound.load?_toFile (hsound : h.Sound maxEntries) (hsize : maxEntries < UInt64.size) :
    load? (some h.toFile) maxEntries = some h.clearCursor := by
  rw [load?, ofFile?, toFile, Json.ofText?_toText h.plain_toJson]
  simp only [Option.bind_eq_bind, Option.bind_some]
  rw [hsound.entriesOfJson?_toJson hsize, clearCursor, hsound.maxEntries_eq]
  simp [lastOf_eq_self hsound.length_le]

end History

end FluentSql
