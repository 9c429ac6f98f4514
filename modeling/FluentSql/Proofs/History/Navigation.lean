import FluentSql.Proofs.History.Reload
import Mathlib.Data.Nat.PSub

/-!
# Going back and forth

The cursor of a history is always at one of its entries, so going back shows an entry unless there
is none, and going forth takes back a step that went back. An entry that is added is the next one to
be shown by going back, except where it repeats the newest one: then the cursor stays where it was.
-/

namespace FluentSql

namespace History

/-! ### Runs -/

/-- One thing done with a history leads from the first state to the second one. -/
inductive Follows : History → History → Prop
  | add (h : History) (entry : HistoryEntry) : Follows h (h.add entry)
  | previous (h : History) : Follows h h.previous.1
  | next (h : History) : Follows h h.next.1
  | clearCursor (h : History) : Follows h h.clearCursor
  | search (h : History) (needle : String) : Follows h h
  | load {h loaded : History} {content : Option String} {maxEntries : Nat}
      (hload : load? content maxEntries = some loaded) : Follows h loaded

/-- Some run leads from a new history to the state. -/
inductive Reached : History → Prop
  | empty (maxEntries : Nat) : Reached (empty maxEntries)
  | follow {h h' : History} (hreached : Reached h) (hfollows : Follows h h') : Reached h'

/-- Each step of going back or forth comes to an entry, and one entry is kept at least. -/
structure Navigable (h : History) : Prop where
  /-- One entry is kept at least. -/
  maxEntries_pos : 0 < h.maxEntries
  /-- The cursor is at an entry. -/
  cursor_lt : ∀ i ∈ h.cursor, i < h.entries.length

variable {h : History}

/-- Where a history is not empty, there is an entry. -/
theorem length_pos (hfilled : ¬ h.entries.isEmpty = true) : 0 < h.entries.length :=
  List.length_pos_iff.mpr fun hnil => hfilled (List.isEmpty_iff.mpr hnil)

namespace Navigable

/-- A new history is navigable. -/
theorem empty (maxEntries : Nat) : (History.empty maxEntries).Navigable :=
  ⟨Nat.lt_of_lt_of_le Nat.zero_lt_one (Nat.le_max_right maxEntries 1), nofun⟩

/-- A history is navigable after it is loaded. -/
theorem of_load? {content : Option String} {maxEntries : Nat}
    (hload : load? content maxEntries = some h) : h.Navigable := by
  obtain ⟨entries, rfl, -⟩ := exists_entries_of_load? hload
  exact ⟨Nat.lt_of_lt_of_le Nat.zero_lt_one (Nat.le_max_right maxEntries 1), nofun⟩

/-- Adding an entry keeps the cursor and all entries, or there is no cursor afterwards. -/
theorem add (hnav : h.Navigable) (entry : HistoryEntry) : (h.add entry).Navigable := by
  refine ⟨maxEntries_add h entry ▸ hnav.maxEntries_pos, ?_⟩
  unfold History.add
  split_ifs
  · exact hnav.cursor_lt
  · nofun

/-- Moving the cursor to an entry keeps a history navigable. -/
theorem moveTo (hnav : h.Navigable) {place : Option Nat}
    (hplace : ∀ i ∈ place, i < h.entries.length) : (h.moveTo place).1.Navigable := by
  cases place with
  | none => exact hnav
  | some i =>
    refine ⟨hnav.maxEntries_pos, ?_⟩
    rintro _ ⟨⟩
    exact hplace i rfl

/-- Going back comes to an entry. -/
theorem previousIndex_lt (hnav : h.Navigable) {i : Nat} (hi : h.previousIndex = some i) :
    i < h.entries.length := by
  unfold previousIndex at hi
  split_ifs at hi with hempty
  have hpos := length_pos hempty
  rw [← Option.some.inj hi]
  cases hcursor : h.cursor with
  | none => exact Nat.sub_lt hpos Nat.zero_lt_one
  | some j => exact Nat.lt_of_le_of_lt (Nat.sub_le j 1) (hnav.cursor_lt j hcursor)

/-- Going forth comes to an entry. -/
theorem nextIndex_lt (hnav : h.Navigable) {i : Nat} (hi : h.nextIndex = some i) :
    i < h.entries.length := by
  unfold nextIndex at hi
  split_ifs at hi
  obtain ⟨j, hcursor, rfl⟩ := Option.map_eq_some_iff.mp hi
  have hj := hnav.cursor_lt j hcursor
  split_ifs <;> omega

/-- Whatever is done with a history, it stays navigable. -/
theorem follow {h' : History} (hnav : h.Navigable) (hfollows : Follows h h') : h'.Navigable := by
  cases hfollows with
  | add entry => exact hnav.add entry
  | previous => exact hnav.moveTo fun _ => hnav.previousIndex_lt
  | next => exact hnav.moveTo fun _ => hnav.nextIndex_lt
  | clearCursor => exact ⟨hnav.maxEntries_pos, nofun⟩
  | search => exact hnav
  | load hload => exact .of_load? hload

end Navigable

/-- Every history that a run leads to is navigable. -/
theorem Reached.navigable {h : History} (hreached : h.Reached) : h.Navigable := by
  induction hreached with
  | empty maxEntries => exact .empty maxEntries
  | follow _ hfollows ih => exact ih.follow hfollows

/-! ### Steps back and forth -/

/-- The place that going back comes to, by differences that have no value below zero; there is no
result if one of them has no value. -/
def previousIndex? (h : History) : Option (Option Nat) :=
  if h.entries.isEmpty then some none
  else
    match h.cursor with
    | some i => if 0 < i then i.ppred.map some else some (some i)
    | none => h.entries.length.ppred.map some

/-- The place that going forth comes to, by differences that have no value below zero; there is no
result if one of them has no value. -/
def nextIndex? (h : History) : Option (Option Nat) :=
  if h.entries.isEmpty then some none
  else
    match h.cursor with
    | some i => h.entries.length.ppred.map fun last => some (if i < last then i + 1 else i)
    | none => some none

/-- No difference that is taken for going back is below zero. -/
theorem previousIndex?_eq (h : History) : h.previousIndex? = some h.previousIndex := by
  unfold previousIndex? previousIndex
  split_ifs with hempty
  · rfl
  cases h.cursor with
  | none => rw [Nat.ppred_eq_pred (length_pos hempty)]; rfl
  | some i =>
    cases i with
    | zero => rfl
    | succ i => rfl

/-- No difference that is taken for going forth is below zero. -/
theorem nextIndex?_eq (h : History) : h.nextIndex? = some h.nextIndex := by
  unfold nextIndex? nextIndex
  split_ifs with hempty
  · rfl
  cases h.cursor with
  | none => rfl
  | some i => rw [Nat.ppred_eq_pred (length_pos hempty)]; rfl

/-- Going to the place of an entry shows the entry. -/
theorem moveTo_eq {i : Nat} {entry : HistoryEntry} (hentry : h.entries[i]? = some entry) :
    h.moveTo (some i) = ({ h with cursor := some i }, some entry) := by
  rw [moveTo, hentry]

namespace Navigable

/-- Going to a place shows an entry if the place is one of an entry. -/
theorem isSome_moveTo {place : Option Nat} (hplace : ∀ i, place = some i → i < h.entries.length) :
    (h.moveTo place).2.isSome = place.isSome := by
  cases place with
  | none => rfl
  | some i => rw [moveTo_eq (List.getElem?_eq_getElem (hplace i rfl))]; rfl

/-- Going back shows an entry exactly if there is one. -/
theorem isSome_previous_iff (hnav : h.Navigable) : h.previous.2.isSome ↔ h.entries ≠ [] := by
  rw [previous, isSome_moveTo fun _ => hnav.previousIndex_lt, previousIndex]
  split_ifs with hempty
  · exact iff_of_false Bool.false_ne_true fun hne => hne (List.isEmpty_iff.mp hempty)
  · exact iff_of_true rfl fun hnil => hempty (List.isEmpty_iff.mpr hnil)

/-- Going forth shows an entry exactly if there is a cursor. -/
theorem isSome_next_iff (hnav : h.Navigable) : h.next.2.isSome ↔ h.cursor.isSome := by
  rw [next, isSome_moveTo fun _ => hnav.nextIndex_lt, nextIndex]
  split_ifs with hempty
  · refine iff_of_false Bool.false_ne_true fun hsome => ?_
    obtain ⟨i, hi⟩ := Option.isSome_iff_exists.mp hsome
    have hlt := hnav.cursor_lt i hi
    rw [List.isEmpty_iff.mp hempty] at hlt
    exact Nat.not_lt_zero i hlt
  · rw [Option.isSome_map]

/-- Going back from behind the oldest entry comes to the entry before, and going forth after that
takes the step back. -/
theorem next_previous (hnav : h.Navigable) {i : Nat} (hi : h.cursor = some i) (hpos : 0 < i) :
    ∃ earlier entry, h.entries[i - 1]? = some earlier ∧ h.entries[i]? = some entry ∧
      h.previous = ({ h with cursor := some (i - 1) }, some earlier) ∧
      h.previous.1.next = (h, some entry) := by
  have hlt := hnav.cursor_lt i hi
  have hlt' : i - 1 < h.entries.length := by omega
  have hentry := List.getElem?_eq_getElem hlt
  have hearlier := List.getElem?_eq_getElem hlt'
  have hempty : h.entries.isEmpty = false :=
    List.isEmpty_eq_false_iff.mpr (List.length_pos_iff.mp (Nat.zero_lt_of_lt hlt))
  have hprevious : h.previous = ({ h with cursor := some (i - 1) }, some h.entries[i - 1]) := by
    rw [previous, previousIndex, hempty, if_neg Bool.false_ne_true, hi]
    exact moveTo_eq hearlier
  have hbefore : i - 1 < h.entries.length - 1 := by omega
  have hnext : ({ h with cursor := some (i - 1) } : History).next = (h, some h.entries[i]) := by
    rw [next, nextIndex, hempty, if_neg Bool.false_ne_true, Option.map_some, if_pos hbefore,
      Nat.sub_add_cancel hpos]
    refine (moveTo_eq hentry).trans ?_
    rw [← hi]
  exact ⟨_, _, hearlier, hentry, hprevious, by rw [hprevious]; exact hnext⟩

end Navigable

/-- In every history that a run leads to, the cursor is at an entry if there is one. So going back
shows an entry unless there is none, going forth shows one wherever there is a cursor, no difference
that either of them takes is below zero, and going forth takes back each step that went back. -/
theorem Reached.stays_navigable (hreached : h.Reached) :
    (∀ i ∈ h.cursor, i < h.entries.length) ∧
      (h.previous.2.isSome ↔ h.entries ≠ []) ∧
      (h.next.2.isSome ↔ h.cursor.isSome) ∧
      h.previousIndex? = some h.previousIndex ∧
      h.nextIndex? = some h.nextIndex ∧
      ∀ i, h.cursor = some i → 0 < i →
        ∃ earlier entry, h.entries[i - 1]? = some earlier ∧ h.entries[i]? = some entry ∧
          h.previous = ({ h with cursor := some (i - 1) }, some earlier) ∧
          h.previous.1.next = (h, some entry) := by
  have hnav := hreached.navigable
  exact ⟨hnav.cursor_lt, hnav.isSome_previous_iff, hnav.isSome_next_iff, previousIndex?_eq h,
    nextIndex?_eq h, fun _ => hnav.next_previous⟩

/-- Two of three entries are kept: going back twice shows both, and going forth then shows the
newest one again. -/
theorem stays_navigable_two :
    let entry (text : String) : HistoryEntry := ⟨text, "SELECT 1", ⟨2024, 1, 2, 3, 4, 5, 0⟩⟩
    let full := (((empty 2).add (entry "a")).add (entry "b")).add (entry "c")
    let h := full.previous.1
    h.Reached ∧ h.cursor = some 1 ∧ h.previous.2 = some (entry "b") ∧
      h.previous.1.next = (h, some (entry "c")) := by
  intro entry full h
  have hfull : full.Reached :=
    (((Reached.empty 2).follow (.add _ (entry "a"))).follow (.add _ (entry "b"))).follow
      (.add _ (entry "c"))
  have hreached : h.Reached := hfull.follow (.previous full)
  have hentries : h.entries = [entry "b", entry "c"] := by decide +kernel
  have hcursor : h.cursor = some 1 := by decide +kernel
  obtain ⟨-, -, -, -, -, hsteps⟩ := hreached.stays_navigable
  obtain ⟨earlier, later, hearlier, hlater, hprevious, hnext⟩ := hsteps 1 hcursor Nat.zero_lt_one
  rw [hentries] at hearlier hlater
  obtain rfl := Option.some.inj hearlier
  obtain rfl := Option.some.inj hlater
  exact ⟨hreached, hcursor, congrArg Prod.snd hprevious, hnext⟩

/-! ### Back to what was added -/

/-- Going back shows the newest entry, and the cursor is at it then. -/
def ShowsNewest (h : History) : Prop :=
  ∃ newest, h.entries.getLast? = some newest ∧
    h.previous = ({ h with cursor := some (h.entries.length - 1) }, some newest)

/-- Going back shows the newest entry if there is no cursor, and where there is no other entry. -/
theorem Navigable.showsNewest_iff (hnav : h.Navigable) :
    h.ShowsNewest ↔ h.entries ≠ [] ∧ (h.cursor = none ∨ h.entries.length = 1) := by
  by_cases hnil : h.entries = []
  · refine iff_of_false ?_ fun hne => hne.1 hnil
    rintro ⟨newest, hnewest, -⟩
    rw [hnil] at hnewest
    cases hnewest
  have hempty : h.entries.isEmpty = false := List.isEmpty_eq_false_iff.mpr hnil
  have hpos : 0 < h.entries.length := List.length_pos_iff.mpr hnil
  have hnewest : h.entries[h.entries.length - 1]? = some (h.entries.getLast hnil) := by
    rw [← List.getLast?_eq_getElem?, List.getLast?_eq_some_getLast hnil]
  rw [and_iff_right hnil]
  constructor
  · rintro ⟨newest, -, hprevious⟩
    have hplace : h.previous.1.cursor = some (h.entries.length - 1) := by rw [hprevious]
    rw [previous, previousIndex, hempty, if_neg Bool.false_ne_true] at hplace
    cases hcursor : h.cursor with
    | none => exact .inl rfl
    | some i =>
      rw [hcursor] at hplace
      have heq : i - 1 = h.entries.length - 1 := Option.some.inj hplace
      have hlt := hnav.cursor_lt i hcursor
      exact .inr (by omega)
  · intro hplace
    have hindex : h.previousIndex = some (h.entries.length - 1) := by
      rw [previousIndex, hempty, if_neg Bool.false_ne_true]
      cases hcursor : h.cursor with
      | none => rfl
      | some i =>
        have hlt := hnav.cursor_lt i hcursor
        have hone := hplace.resolve_left (by simp [hcursor])
        rw [Option.elim_some]
        congr 1
        omega
    exact ⟨_, List.getLast?_eq_some_getLast hnil, by rw [previous, hindex, moveTo_eq hnewest]⟩

/-- After an addition the newest entry has the added text, up to blanks around it, and going back
shows it exactly if the addition did not repeat the newest entry while the cursor was somewhere
among several ones. There the cursor stays, and going back goes on from it to an older entry. Once
the cursor is cleared, going back shows the newest entry in any case. -/
theorem Reached.showsNewest_add_iff (hreached : h.Reached) (entry : HistoryEntry) :
    (∃ newest, (h.add entry).entries.getLast? = some newest ∧
        Text.trim newest.text = Text.trim entry.text) ∧
      ((h.add entry).ShowsNewest ↔
        (h.repeats entry = true → h.cursor = none ∨ h.entries.length = 1)) ∧
      (¬ (h.add entry).ShowsNewest → ∃ i, h.cursor = some i ∧ i - 1 < h.entries.length - 1 ∧
        (h.add entry).previous = ({ h with cursor := some (i - 1) }, h.entries[i - 1]?)) ∧
      (h.add entry).clearCursor.ShowsNewest := by
  have hadded := hreached.navigable.add entry
  obtain ⟨newest, hnewest, htrim, -⟩ := exists_newest_add hreached.navigable.maxEntries_pos entry
  have hne : (h.add entry).entries ≠ [] := List.ne_nil_of_mem (List.mem_of_getLast? hnewest)
  have hcleared : (h.add entry).clearCursor.Navigable := ⟨hadded.maxEntries_pos, nofun⟩
  have hiff := hadded.showsNewest_iff
  rw [and_iff_right hne] at hiff
  refine ⟨⟨newest, hnewest, htrim⟩, ?_, fun hnot => ?_,
    hcleared.showsNewest_iff.mpr ⟨hne, .inl rfl⟩⟩
  · by_cases hrepeats : h.repeats entry = true
    · rw [hiff, add, if_pos hrepeats, forall_prop_of_true hrepeats]
    · refine iff_of_true (hiff.mpr ?_) fun h => absurd h hrepeats
      rw [add, if_neg hrepeats]
      exact .inl rfl
  · have hrepeats : h.repeats entry = true := by
      by_contra hnew
      exact hnot (hiff.mpr (by rw [add, if_neg hnew]; exact .inl rfl))
    have hsame : h.add entry = h := if_pos hrepeats
    rw [hsame] at hiff hne hnot ⊢
    obtain ⟨hcursor, hmany⟩ := not_or.mp (mt hiff.mpr hnot)
    obtain ⟨i, hi⟩ := Option.ne_none_iff_exists'.mp hcursor
    have hlt := hreached.navigable.cursor_lt i hi
    refine ⟨i, hi, by omega, ?_⟩
    rw [previous, previousIndex, if_neg (by simpa using hne), hi]
    rfl

/-- With the cursor at the second of three entries, going back shows the first one after the third
is repeated, and the newest one after another text is added. -/
theorem showsNewest_add_iff_again :
    let entry (text : String) : HistoryEntry := ⟨text, "SELECT 1", ⟨2024, 1, 2, 3, 4, 5, 0⟩⟩
    let full := (((empty 10).add (entry "a")).add (entry "b")).add (entry "c")
    let h := full.previous.1.previous.1
    h.Reached ∧ h.cursor = some 1 ∧ ¬ (h.add (entry " c\n")).ShowsNewest ∧
      (h.add (entry " c\n")).previous.2 = some (entry "a") ∧ (h.add (entry "d")).ShowsNewest := by
  intro entry full h
  have hfull : full.Reached :=
    (((Reached.empty 10).follow (.add _ (entry "a"))).follow (.add _ (entry "b"))).follow
      (.add _ (entry "c"))
  have hreached : h.Reached := (hfull.follow (.previous full)).follow (.previous full.previous.1)
  have hentries : h.entries = [entry "a", entry "b", entry "c"] := by decide +kernel
  have hcursor : h.cursor = some 1 := by decide +kernel
  have hrepeats : h.repeats (entry " c\n") = true := by decide +kernel
  have hnew : ¬ h.repeats (entry "d") = true := by decide +kernel
  obtain ⟨-, hiff, hstays, -⟩ := hreached.showsNewest_add_iff (entry " c\n")
  obtain ⟨-, hiffNew, -, -⟩ := hreached.showsNewest_add_iff (entry "d")
  have hnot : ¬ (h.add (entry " c\n")).ShowsNewest := by
    rw [hiff, forall_prop_of_true hrepeats, hcursor, hentries]
    decide
  obtain ⟨i, hi, -, hprevious⟩ := hstays hnot
  obtain rfl := Option.some.inj (hcursor.symm.trans hi)
  refine ⟨hreached, hcursor, hnot, ?_, hiffNew.mpr fun h => absurd h hnew⟩
  rw [hprevious, hentries]
  rfl

end History

end FluentSql
