import FluentSql.Proofs.History.Reload

/-!
# Histories are saved and loaded

The file of a history gives back its latest entries, as many as are asked for, with their texts,
their SQL and their times. Nothing of the file is lost for a history that keeps the number asked
for and holds no more: saved again, it has the same file.
-/

namespace FluentSql

namespace HistoryEntry

/-- Entries with times that are read back from their texts are read back as they are. -/
theorem mapM_reread?_of_ofText? {entries : List HistoryEntry}
    (h : ∀ e ∈ entries, Timestamp.ofText? e.timestamp.toText = some e.timestamp) :
    entries.mapM reread? = some entries :=
  mapM_reread?_of_isValid fun e he => Timestamp.isValid_of_ofText? (h e he)

end HistoryEntry

namespace History

variable {h h' : History}

/-- Histories with the same file have the same record. -/
theorem toJson_eq_of_toFile (hfile : h.toFile = h'.toFile) : h.toJson = h'.toJson := by
  have hread := Json.ofText?_toText h.plain_toJson
  have hread' := Json.ofText?_toText h'.plain_toJson
  rw [toFile, toFile] at hfile
  rw [hfile, hread'] at hread
  exact (Option.some.inj hread).symm

/-- Histories with the same file keep the same number of entries and hold equally many. -/
theorem sizes_eq_of_toFile (hfile : h.toFile = h'.toFile) :
    h.maxEntries = h'.maxEntries ∧ h.entries.length = h'.entries.length := by
  have hrecord := toJson_eq_of_toFile hfile
  simp only [toJson, Json.object.injEq, List.cons.injEq, Prod.mk.injEq, Json.array.injEq,
    Json.natural.injEq, true_and, and_true] at hrecord
  obtain ⟨hentries, hmax⟩ := hrecord
  have hlength := congrArg List.length hentries
  rw [List.length_map, List.length_map] at hlength
  exact ⟨hmax, hlength⟩

/-- The cursor is not written. -/
theorem toFile_eq_of_entries_eq (hentries : h.entries = h'.entries)
    (hmax : h.maxEntries = h'.maxEntries) : h.toFile = h'.toFile := by
  rw [toFile, toFile, toJson, toJson, hentries, hmax]

/-- A history that keeps a machine word of entries, with times that are read back from their texts,
is loaded from its file with its latest entries as they are: as many as are asked for, and one at
least. It has no cursor then. Its own file is the same as before exactly if the number asked for is
the one that the history keeps and there are no more entries. -/
theorem saved_entries_are_loaded (maxEntries : Nat) (hsize : h.maxEntries < UInt64.size)
    (htimes : ∀ e ∈ h.entries, Timestamp.ofText? e.timestamp.toText = some e.timestamp) :
    ∃ loaded, load? (some h.toFile) maxEntries = some loaded ∧
      loaded.entries = lastOf (max maxEntries 1) h.entries ∧
      loaded.maxEntries = max maxEntries 1 ∧
      loaded.cursor = none ∧
      (loaded.toFile = h.toFile ↔
        h.maxEntries = max maxEntries 1 ∧ h.entries.length ≤ h.maxEntries) := by
  refine ⟨⟨lastOf (max maxEntries 1) h.entries, none, max maxEntries 1⟩, ?_, rfl, rfl, rfl, ?_⟩
  · rw [load?, ofFile?_toFile, if_pos hsize, HistoryEntry.mapM_reread?_of_ofText? htimes,
      Option.map_some]
  · constructor
    · intro hfile
      obtain ⟨hmax, hlength⟩ := sizes_eq_of_toFile hfile
      have hmin : min (max maxEntries 1) h.entries.length = h.entries.length :=
        (length_lastOf _ _).symm.trans hlength
      rw [← hmax]
      exact ⟨rfl, min_eq_right_iff.mp hmin⟩
    · rintro ⟨hmax, hlength⟩
      rw [hmax] at hlength
      exact toFile_eq_of_entries_eq (lastOf_eq_self hlength) hmax.symm

/-- A history with marked and wide characters, fractions and a leap second loses its oldest entry
where two are asked for, and nothing where three are. -/
theorem saved_entries_are_loaded_three :
    let first : HistoryEntry :=
      ⟨"XQL.from(\"a\\b\")", "SELECT * FROM a\\b", ⟨2024, 2, 29, 23, 59, 60, 1⟩⟩
    let second : HistoryEntry := ⟨" \t\r\n\x01\x7f", "\"é\" 'ß' 😀", ⟨-5, 1, 2, 3, 4, 5, 120000000⟩⟩
    let third : HistoryEntry := ⟨"", "", ⟨12345, 12, 31, 0, 0, 0, 0⟩⟩
    let h : History := ⟨[first, second, third], some 1, 3⟩
    h.maxEntries < UInt64.size ∧
      (∀ e ∈ h.entries, Timestamp.ofText? e.timestamp.toText = some e.timestamp) ∧
      (load? (some h.toFile) 2).map History.entries = some [second, third] ∧
      ∃ loaded, load? (some h.toFile) 3 = some loaded ∧ loaded.entries = h.entries ∧
        loaded.toFile = h.toFile := by
  intro first second third h
  have hsize : h.maxEntries < UInt64.size := by decide
  have htimes : ∀ e ∈ h.entries, Timestamp.ofText? e.timestamp.toText = some e.timestamp := by
    have hvalid : ∀ e ∈ h.entries, e.timestamp.isValid = true := by decide
    exact fun e he => Timestamp.ofText?_toText (hvalid e he)
  obtain ⟨two, htwo, hentries, -⟩ := saved_entries_are_loaded 2 hsize htimes
  obtain ⟨three, hthree, hall, -, -, hfile⟩ := saved_entries_are_loaded 3 hsize htimes
  refine ⟨hsize, htimes, ?_, three, hthree, hall, hfile.mpr ⟨rfl, Nat.le_refl 3⟩⟩
  rw [htwo, Option.map_some, hentries]
  rfl

end History

end FluentSql
