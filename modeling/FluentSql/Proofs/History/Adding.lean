import FluentSql.History.Basic
import Mathlib.Tactic.SplitIfs

/-!
# Adding to histories

The newest entry after an addition has the text that was added, up to blanks around it.
-/

namespace FluentSql

namespace History

/-- An entry repeats the newest one if the texts are the same up to blanks around them. -/
theorem repeats_iff {h : History} {entry : HistoryEntry} :
    h.repeats entry = true ↔
      ∃ newest, h.entries.getLast? = some newest ∧
        Text.trim newest.text = Text.trim entry.text := by
  simp [repeats, Option.any_eq_true]

/-- An entry with the text of the newest one, up to blanks around it, is not added. -/
theorem add_of_newest {h : History} {newest entry : HistoryEntry}
    (hnewest : h.entries.getLast? = some newest)
    (htrim : Text.trim newest.text = Text.trim entry.text) : h.add entry = h :=
  if_pos (repeats_iff.mpr ⟨newest, hnewest, htrim⟩)

/-- After an entry is added, the newest one has its text up to blanks around it: it is this entry,
or one from before that it repeats. -/
theorem exists_newest_add {h : History} (hkept : 0 < h.maxEntries) (entry : HistoryEntry) :
    ∃ newest, (h.add entry).entries.getLast? = some newest ∧
      Text.trim newest.text = Text.trim entry.text ∧ (newest = entry ∨ newest ∈ h.entries) := by
  unfold add
  split_ifs with hrepeats
  · obtain ⟨newest, hnewest, htrim⟩ := repeats_iff.mp hrepeats
    exact ⟨newest, hnewest, htrim, .inr (List.mem_of_getLast? hnewest)⟩
  · refine ⟨entry, ?_, rfl, .inl rfl⟩
    have hdrop : (h.entries ++ [entry]).length - h.maxEntries ≤ h.entries.length := by
      rw [List.length_append, List.length_singleton]
      omega
    rw [lastOf, List.drop_append_of_le_length hdrop, List.getLast?_concat]

/-- An entry is not added again, whatever blanks are around its text. -/
theorem add_add {h : History} (hkept : 0 < h.maxEntries) {entry again : HistoryEntry}
    (htrim : Text.trim entry.text = Text.trim again.text) :
    (h.add entry).add again = h.add entry := by
  obtain ⟨newest, hnewest, heq, -⟩ := exists_newest_add hkept entry
  exact add_of_newest hnewest (heq.trans htrim)

/-- An entry of the history after an addition is the added one or one from before. -/
theorem mem_entries_add {h : History} {entry e : HistoryEntry} (he : e ∈ (h.add entry).entries) :
    e = entry ∨ e ∈ h.entries := by
  unfold add at he
  split_ifs at he
  · exact .inr he
  · have hmem := List.mem_of_mem_drop he
    rw [List.mem_append, List.mem_singleton] at hmem
    exact hmem.symm

/-- Adding an entry does not change how many are kept. -/
@[simp] theorem maxEntries_add (h : History) (entry : HistoryEntry) :
    (h.add entry).maxEntries = h.maxEntries := by
  unfold add
  split_ifs <;> rfl

end History

end FluentSql
