import FluentSql.History.Timestamp
import FluentSql.Text.Case

/-!
# Histories

A history holds the latest accepted texts, up to a number of them, and a cursor for going back and
forth between them. A text that repeats the one before it, up to surrounding blanks, is not taken in
again.
-/

namespace FluentSql

/-- One accepted text. -/
structure HistoryEntry where
  /-- The text. -/
  text : String
  /-- The SQL that it stands for. -/
  sql : String
  /-- When it was accepted. -/
  timestamp : Timestamp
deriving DecidableEq

/-- Accepted texts, the oldest first. -/
structure History where
  /-- The entries. -/
  entries : List HistoryEntry
  /-- The place of the entry shown last while going back and forth. -/
  cursor : Option Nat
  /-- The number of entries kept. -/
  maxEntries : Nat
deriving DecidableEq

namespace History

/-- An empty history that keeps a number of entries, and one at least. -/
def empty (maxEntries : Nat) : History :=
  ⟨[], none, max maxEntries 1⟩

/-- The number of entries kept where nothing else is said. -/
def defaultMaxEntries : Nat := 500

/-- The last `n` of the items. -/
def lastOf {α : Type} (n : Nat) (items : List α) : List α :=
  items.drop (items.length - n)

/-- The last `n` items are `n`, or all if there are fewer. -/
@[simp] theorem length_lastOf {α : Type} (n : Nat) (items : List α) :
    (lastOf n items).length = min n items.length := by
  simp only [lastOf, List.length_drop]
  omega

/-- All items are the last ones if there are no more. -/
theorem lastOf_eq_self {α : Type} {n : Nat} {items : List α} (h : items.length ≤ n) :
    lastOf n items = items := by
  rw [lastOf, Nat.sub_eq_zero_of_le h, List.drop_zero]

/-- The last items are mapped to the last ones. -/
theorem map_lastOf {α β : Type} (f : α → β) (n : Nat) (items : List α) :
    (lastOf n items).map f = lastOf n (items.map f) := by
  rw [lastOf, lastOf, List.map_drop, List.length_map]

/-- The entry repeats the text of the newest one. -/
def repeats (h : History) (entry : HistoryEntry) : Bool :=
  h.entries.getLast?.any fun newest => Text.trim newest.text == Text.trim entry.text

/-- Takes in an entry unless it repeats the newest one. -/
def add (h : History) (entry : HistoryEntry) : History :=
  if h.repeats entry then h
  else { h with entries := lastOf h.maxEntries (h.entries ++ [entry]), cursor := none }

/-- The place of the entry before the one shown last, or of the newest. -/
def previousIndex (h : History) : Option Nat :=
  if h.entries.isEmpty then none
  else some (h.cursor.elim (h.entries.length - 1) fun i => i - 1)

/-- The place of the entry after the one shown last. -/
def nextIndex (h : History) : Option Nat :=
  if h.entries.isEmpty then none
  else h.cursor.map fun i => if i < h.entries.length - 1 then i + 1 else i

/-- Moves the cursor to a place, if there is one, and shows the entry there. -/
def moveTo (h : History) : Option Nat → History × Option HistoryEntry
  | none => (h, none)
  | some i => ({ h with cursor := some i }, h.entries[i]?)

/-- Moving the cursor leaves the entries as they are. -/
@[simp] theorem entries_moveTo (h : History) (place : Option Nat) :
    (h.moveTo place).1.entries = h.entries := by
  cases place <;> rfl

/-- Moving the cursor leaves the number of entries kept as it is. -/
@[simp] theorem maxEntries_moveTo (h : History) (place : Option Nat) :
    (h.moveTo place).1.maxEntries = h.maxEntries := by
  cases place <;> rfl

/-- Goes back by one entry, and stays at the oldest. -/
def previous (h : History) : History × Option HistoryEntry :=
  h.moveTo h.previousIndex

/-- Goes forth by one entry, and stays at the newest. -/
def next (h : History) : History × Option HistoryEntry :=
  h.moveTo h.nextIndex

/-- Forgets which entry was shown last. -/
def clearCursor (h : History) : History :=
  { h with cursor := none }

/-- The entries whose text contains a needle, in any letter case. -/
def search (h : History) (needle : String) : List HistoryEntry :=
  h.entries.filter fun entry => Text.containsIgnoringCase entry.text needle

end History

end FluentSql
