import FluentSql.History.Basic
import FluentSql.Proofs.Text.LowerCase

/-!
# Searching a history

A search leaves letter case out of account by making texts and needle small, each on its own. So it
may miss a text that contains the needle as it stands: one where a capital sigma of the needle has
another small form. Needles whose sigmas are settled are the ones that are never missed.
-/

namespace FluentSql

namespace History

/-- A search for a needle with settled sigmas finds every entry whose text contains the needle as it
stands, in the order of the history. -/
theorem sublist_search {needle : String} (h : Text.settlesSigmas [] needle.toList = true)
    (history : History) :
    (history.entries.filter fun e => Text.occursIn needle.toList e.text.toList).Sublist
      (history.search needle) := by
  refine List.monotone_filter_right _ fun e he => ?_
  exact Text.containsIgnoringCase_of_infix h (Text.occursIn_iff.mp he)

/-- In all histories a search finds every entry whose text contains the needle as it stands, in the
order of the history, exactly if the needle settles the small forms of its capital sigmas. So it
does for needles without capital sigmas. -/
theorem sublist_search_iff (needle : String) :
    ((∀ h : History, (h.entries.filter fun e =>
        Text.occursIn needle.toList e.text.toList).Sublist (h.search needle)) ↔
      Text.settlesSigmas [] needle.toList = true) ∧
    ('Σ' ∉ needle.toList → ∀ h : History, (h.entries.filter fun e =>
        Text.occursIn needle.toList e.text.toList).Sublist (h.search needle)) := by
  refine ⟨⟨fun hfinds => ?_, sublist_search⟩,
    fun hnone => sublist_search (Text.settlesSigmas_of_notMem hnone)⟩
  by_contra hloose
  obtain ⟨text, hwithin, hlost⟩ :=
    Text.exists_containsIgnoringCase_eq_false (Bool.eq_false_iff.mpr hloose)
  let entry : HistoryEntry := ⟨text, "", ⟨2024, 1, 2, 3, 4, 5, 0⟩⟩
  have hfound : ([entry].filter fun e => Text.occursIn needle.toList e.text.toList).Sublist
      ([entry].filter fun e => Text.containsIgnoringCase e.text needle) :=
    hfinds ⟨[entry], none, 1⟩
  have hcontains : Text.occursIn needle.toList entry.text.toList = true :=
    Text.occursIn_iff.mpr hwithin
  rw [List.filter_singleton, List.filter_singleton, hcontains, hlost] at hfound
  exact absurd hfound.length_le (by simp)

/-- A capital sigma is final at the end of the needle, and is not in the middle of the word. -/
example :
    let entry : HistoryEntry := ⟨"ΜΕΣΑ", "SELECT 1", ⟨2024, 1, 2, 3, 4, 5, 0⟩⟩
    ((empty 10).add entry).search "ΜΕΣ" = [] ∧
      ((empty 10).add entry).search "ΕΣΑ" = [entry] := by
  decide +kernel

end History

end FluentSql
