import Mathlib.Data.List.Destutter
import Mathlib.Data.List.DropRight
import FluentSql.Proofs.History.Reload

/-!
# Histories are the end of a log

The log of a history is everything that was ever added to it. Without the entries that repeat the
one before them, the end of the log is what the history holds: forgetting the oldest entries does
not change which entries repeat the newest one.
-/

namespace FluentSql

/-- The texts of two entries differ in more than their blank margins. -/
def HistoryEntry.Differs (earlier later : HistoryEntry) : Prop :=
  Text.trim earlier.text ≠ Text.trim later.text

instance : DecidableRel HistoryEntry.Differs :=
  fun earlier later => inferInstanceAs (Decidable (Text.trim earlier.text ≠ Text.trim later.text))

/-! ### Lists without repetitions -/

section Destutter

variable {α : Type} {R : α → α → Prop} [DecidableRel R]

/-- One more item is kept behind a first one and others if it differs from the last one kept. -/
theorem destutter'_concat (first item : α) (items : List α) :
    ∃ last, (items.destutter' R first).getLast? = some last ∧
      (items ++ [item]).destutter' R first =
        if R last item then items.destutter' R first ++ [item] else items.destutter' R first := by
  induction items generalizing first with
  | nil => exact ⟨first, rfl, by by_cases h : R first item <;> simp [h]⟩
  | cons second items ih =>
    by_cases h : R first second
    · obtain ⟨last, hlast, hconcat⟩ := ih second
      refine ⟨last, ?_, ?_⟩
      · rw [List.destutter'_cons_pos _ h, List.getLast?_cons, hlast]
        rfl
      · rw [List.cons_append, List.destutter'_cons_pos _ h, List.destutter'_cons_pos _ h, hconcat]
        split_ifs <;> rfl
    · rw [List.cons_append, List.destutter'_cons_neg _ h, List.destutter'_cons_neg _ h]
      exact ih first

/-- One more item is kept if it differs from the last one kept. -/
theorem destutter_concat (items : List α) (item : α) :
    (items ++ [item]).destutter R =
      if ∀ last ∈ (items.destutter R).getLast?, R last item then items.destutter R ++ [item]
      else items.destutter R := by
  cases items with
  | nil => simp
  | cons first items =>
    obtain ⟨last, hlast, hconcat⟩ := destutter'_concat (R := R) first item items
    rw [List.cons_append, List.destutter_cons', List.destutter_cons', hconcat, hlast]
    simp

end Destutter

/-! ### The last items of a list -/

namespace History

/-- The last item stays when others are left out. -/
theorem getLast?_lastOf {α : Type} {n : Nat} (hn : 0 < n) (items : List α) :
    (lastOf n items).getLast? = items.getLast? := by
  rw [lastOf, List.getLast?_drop]
  split_ifs with hlength
  · rw [List.length_eq_zero_iff.mp (by omega : items.length = 0)]
    rfl
  · rfl

/-- Of the last items and one more, the last ones are those of all items and one more. -/
theorem lastOf_lastOf_concat {α : Type} {n : Nat} (hn : 0 < n) (items : List α) (item : α) :
    lastOf n (lastOf n items ++ [item]) = lastOf n (items ++ [item]) := by
  obtain ⟨k, rfl⟩ := Nat.exists_eq_succ_of_ne_zero (Nat.ne_of_gt hn)
  -- Mathlib has the last items as `rtake`, which is the same by definition.
  change ((items.rtake (k + 1)) ++ [item]).rtake (k + 1) = (items ++ [item]).rtake (k + 1)
  rw [List.rtake_concat_succ, List.rtake_concat_succ, List.rtake_eq_reverse_take_reverse,
    List.rtake_eq_reverse_take_reverse, List.rtake_eq_reverse_take_reverse, List.reverse_reverse,
    List.take_take, Nat.min_eq_left (Nat.le_succ k)]

end History

/-! ### Runs -/

/-- What is done with a history. -/
inductive HistoryUse
  /-- An entry is added. -/
  | add (entry : HistoryEntry)
  /-- The entry before the one shown last is shown. -/
  | previous
  /-- The entry after the one shown last is shown. -/
  | next
  /-- Which entry was shown last is forgotten. -/
  | clearCursor
  /-- Entries with a text are looked for. -/
  | search (needle : String)
  /-- The history is written to a file and loaded from it. -/
  | reload

/-- The entry that is added. -/
def HistoryUse.added? : HistoryUse → Option HistoryEntry
  | add entry => some entry
  | previous | next | clearCursor | search _ | reload => none

namespace History

/-- The history after something is done with it; one that cannot be loaded stays as it is. -/
def use (maxEntries : Nat) (h : History) : HistoryUse → History
  | .add entry => h.add entry
  | .previous => h.previous.1
  | .next => h.next.1
  | .clearCursor => h.clearCursor
  | .search _ => h
  | .reload => (load? (some h.toFile) maxEntries).getD h

/-- An empty history after all that is done with it. -/
def run (maxEntries : Nat) (uses : List HistoryUse) : History :=
  uses.foldl (use maxEntries) (.empty maxEntries)

/-- All that is added, in order. -/
def log (uses : List HistoryUse) : List HistoryEntry :=
  uses.filterMap HistoryUse.added?

/-- The history holds the end of a log without repetitions. -/
structure Ends (h : History) (maxEntries : Nat) (log : List HistoryEntry) : Prop where
  /-- The history is sound. -/
  sound : h.Sound maxEntries
  /-- The entries are the last ones. -/
  entries_eq : h.entries = lastOf (max maxEntries 1) (log.destutter HistoryEntry.Differs)

variable {h h' : History} {maxEntries : Nat} {log : List HistoryEntry}

/-- One entry is kept at least. -/
theorem max_one_pos (maxEntries : Nat) : 0 < max maxEntries 1 :=
  Nat.lt_of_lt_of_le Nat.zero_lt_one (Nat.le_max_right maxEntries 1)

/-- The newest entry is the last one of the log without repetitions. -/
theorem Ends.getLast?_eq (hends : h.Ends maxEntries log) :
    h.entries.getLast? = (log.destutter HistoryEntry.Differs).getLast? := by
  rw [hends.entries_eq, getLast?_lastOf (max_one_pos maxEntries)]

/-- An entry that is added comes to the end of the log. -/
theorem Ends.add (hends : h.Ends maxEntries log) {entry : HistoryEntry}
    (hentry : entry.timestamp.isValid = true) : (h.add entry).Ends maxEntries (log ++ [entry]) := by
  refine ⟨hends.sound.add hentry, ?_⟩
  rw [destutter_concat, ← hends.getLast?_eq]
  unfold History.add
  by_cases hrepeats : h.repeats entry = true
  · obtain ⟨newest, hnewest, htrim⟩ := repeats_iff.mp hrepeats
    have hsame : ¬ ∀ last ∈ h.entries.getLast?, last.Differs entry := fun hall =>
      hall newest hnewest htrim
    rw [if_pos hrepeats, if_neg hsame]
    exact hends.entries_eq
  · have hdiffers : ∀ last ∈ h.entries.getLast?, last.Differs entry := by
      intro last hlast htrim
      exact hrepeats (repeats_iff.mpr ⟨last, hlast, htrim⟩)
    rw [if_neg hrepeats, if_pos hdiffers, hends.sound.maxEntries_eq, hends.entries_eq]
    exact lastOf_lastOf_concat (max_one_pos maxEntries) _ entry

/-- What changes the cursor alone leaves the end of the log as it is. -/
theorem Ends.of_entries_eq (hends : h.Ends maxEntries log) (hentries : h'.entries = h.entries)
    (hmax : h'.maxEntries = h.maxEntries) : h'.Ends maxEntries log :=
  ⟨hends.sound.of_entries_eq hentries hmax, hentries.trans hends.entries_eq⟩

/-- A history that is reloaded has the same entries, also if the number kept is too large for a
file. -/
theorem Ends.reload (hends : h.Ends maxEntries log) :
    ((load? (some h.toFile) maxEntries).getD h).Ends maxEntries log := by
  by_cases hsize : maxEntries < UInt64.size
  · rw [hends.sound.load?_toFile hsize]
    exact hends.of_entries_eq rfl rfl
  · have hmax : ¬ h.maxEntries < UInt64.size := by
      rw [hends.sound.maxEntries_eq]
      omega
    rw [load?, ofFile?_toFile, if_neg hmax]
    exact hends

/-- Whatever is done with a history, it holds the end of its log. -/
theorem Ends.use (hends : h.Ends maxEntries log) {step : HistoryUse}
    (hvalid : ∀ e ∈ step.added?, e.timestamp.isValid = true) :
    (h.use maxEntries step).Ends maxEntries (log ++ step.added?.toList) := by
  cases step with
  | add entry => exact hends.add (hvalid entry rfl)
  | previous | next =>
    rw [HistoryUse.added?, Option.toList_none, List.append_nil]
    exact hends.of_entries_eq (entries_moveTo h _) (maxEntries_moveTo h _)
  | clearCursor =>
    rw [HistoryUse.added?, Option.toList_none, List.append_nil]
    exact hends.of_entries_eq rfl rfl
  | search =>
    rw [HistoryUse.added?, Option.toList_none, List.append_nil]
    exact hends
  | reload =>
    rw [HistoryUse.added?, Option.toList_none, List.append_nil]
    exact hends.reload

/-- The log of what is done in turn. -/
theorem log_concat (uses : List HistoryUse) (step : HistoryUse) :
    History.log (uses ++ [step]) = History.log uses ++ step.added?.toList := by
  rw [History.log, List.filterMap_append]
  cases step <;> rfl

/-- After every run the history holds the end of its log. -/
theorem ends_run {uses : List HistoryUse}
    (hvalid : ∀ e ∈ History.log uses, e.timestamp.isValid = true) :
    (run maxEntries uses).Ends maxEntries (History.log uses) := by
  induction uses using List.reverseRecOn with
  | nil => exact ⟨sound_empty maxEntries, by simp [run, empty, lastOf, History.log]⟩
  | append_singleton uses step ih =>
    rw [log_concat, List.forall_mem_append] at hvalid
    rw [log_concat, run, List.foldl_concat]
    exact (ih hvalid.1).use fun e he => hvalid.2 e (Option.mem_toList.mpr he)

/-- After every run the entries of a history are the last ones of its log, without the entries that
repeat the one kept before them: at most as many as it keeps, in the order in which
they were added, no two neighbours with the same text, and the newest one among them. The history is
reloaded from its file with the same entries. -/
theorem entries_run (maxEntries : Nat) {uses : List HistoryUse}
    (hvalid : ∀ e ∈ History.log uses, e.timestamp.isValid = true) :
    let h := run maxEntries uses
    let kept := (History.log uses).destutter HistoryEntry.Differs
    h.entries = lastOf (max maxEntries 1) kept ∧
      h.entries.length ≤ max maxEntries 1 ∧
      h.entries.IsChain HistoryEntry.Differs ∧
      h.entries.getLast? = kept.getLast? ∧
      h.entries.Sublist (History.log uses) ∧
      (maxEntries < UInt64.size → load? (some h.toFile) maxEntries = some h.clearCursor) := by
  intro h kept
  have hends : h.Ends maxEntries (History.log uses) := ends_run hvalid
  have hsuffix : h.entries <:+ kept := by
    rw [hends.entries_eq]
    exact List.drop_suffix _ _
  refine ⟨hends.entries_eq, hends.sound.length_le, ?_, hends.getLast?_eq, ?_,
    hends.sound.load?_toFile⟩
  · exact (List.isChain_destutter _ _).suffix hsuffix
  · exact hsuffix.sublist.trans (List.destutter_sublist _ _)

/-- A history of two entries takes a text only once in a row, whatever comes between. -/
theorem entries_run_two :
    let now : Timestamp := ⟨2024, 1, 2, 3, 4, 5, 0⟩
    let entry (text : String) : HistoryEntry := ⟨text, "SELECT 1", now⟩
    let uses := [.add (entry "a"), .add (entry "b"), .previous, .reload, .add (entry " b\n"),
      .add (entry "c"), .search "b", .add (entry "a"), .next, .add (entry "a ")]
    (∀ e ∈ History.log uses, e.timestamp.isValid = true) ∧
      (run 2 uses).entries = [entry "c", entry "a"] := by
  intro now entry uses
  have hvalid : ∀ e ∈ History.log uses, e.timestamp.isValid = true := by decide
  have hkept : lastOf 2 ((History.log uses).destutter HistoryEntry.Differs) =
      [entry "c", entry "a"] := by decide +kernel
  exact ⟨hvalid, (entries_run 2 hvalid).1.trans hkept⟩

end History

end FluentSql
