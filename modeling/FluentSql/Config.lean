import FluentSql.Toml.Reader

/-!
# Configuration

The settings of a user. Their file is a TOML document with the tables `format` and `history`; what
it leaves out keeps its default, and what is not a setting is ignored.
-/

namespace FluentSql

/-- The settings of a user. -/
structure Config where
  /-- Spaces for each level of SQL on many lines and of scripts. -/
  indent : Nat := 2
  /-- SQL is written on many lines. -/
  pretty : Bool := true
  /-- The number of history entries kept. -/
  maxEntries : Nat := 500
  /-- The history is kept in a file. -/
  persist : Bool := true
deriving DecidableEq

namespace Config

/-- A setting that is a number, or its default. -/
def number? (fallback : Nat) : Option Toml → Option Nat
  | none => some fallback
  | some (.integer n) => if 0 ≤ n then some n.toNat else none
  | some _ => none

/-- A setting that is a truth value, or its default. -/
def flag? (fallback : Bool) : Option Toml → Option Bool
  | none => some fallback
  | some (.boolean b) => some b
  | some _ => none

/-- The settings of a table by their names; in an array they stand in order, and a date has none. -/
def settings? (first second : String) : Option Toml → Option (Option Toml × Option Toml)
  | none | some .dateTime => some (none, none)
  | some (.table origin entries) =>
    let t : Toml := .table origin entries
    some (t.get? first, t.get? second)
  | some (.array items) => some (items[0]?, items[1]?)
  | some (.tables reversed) => some (reversed.getLast?, reversed.reverse[1]?)
  | some _ => none

/-- The settings in a document. -/
def ofToml? (document : Toml) : Option Config := do
  let (indent, pretty) ← settings? "indent" "pretty" (document.get? "format")
  let (maxEntries, persist) ← settings? "max_entries" "persist" (document.get? "history")
  let defaults : Config := {}
  return {
    indent := ← number? defaults.indent indent
    pretty := ← flag? defaults.pretty pretty
    maxEntries := ← number? defaults.maxEntries maxEntries
    persist := ← flag? defaults.persist persist }

/-- The settings of a file, which are the defaults if it is missing; none if it cannot be read. -/
def load? (content : Option String) : Option Config :=
  match content with
  | none => some {}
  | some text => (Toml.ofText? text).bind ofToml?

/-- A line of a file with a truth value. -/
def flagLine (name : String) (value : Bool) : String :=
  name ++ " = " ++ (if value then "true" else "false") ++ "\n"

/-- A line of a file with a number. -/
def numberLine (name : String) (value : Nat) : String :=
  name ++ " = " ++ toString value ++ "\n"

/-- The text of the settings' file; there is none if a number is too large for a signed 64-bit
integer. -/
def toFile? (c : Config) : Option String :=
  if max c.indent c.maxEntries ≤ Int64.maxValue.toInt then
    some ("[format]\n" ++ numberLine "indent" c.indent ++ flagLine "pretty" c.pretty ++ "\n" ++
      "[history]\n" ++ numberLine "max_entries" c.maxEntries ++ flagLine "persist" c.persist)
  else none

end Config

end FluentSql
