/-!
# TOML documents

Values, and the rules by which the lines of a document build up its tables: a key is given once, a
table is opened once, and tables made by dotted keys, by headers and inline do not mix.
-/

namespace FluentSql

/-- How a table came about, which decides what may be added to it. -/
inductive TableOrigin
  /-- By its own header; also the table of the document. -/
  | header
  /-- By the header of a table inside it. -/
  | implied
  /-- By a dotted key. -/
  | dotted
  /-- Inline, by a dotted key inside braces. -/
  | inlineDotted
  /-- Inline, by braces. -/
  | inline
deriving DecidableEq

/-- A value of a document. -/
inductive Toml
  /-- A string. -/
  | string (value : String)
  /-- An integer. -/
  | integer (value : Int)
  /-- A truth value. -/
  | boolean (value : Bool)
  /-- A number that is no integer. -/
  | float
  /-- A date, a time, or both. -/
  | dateTime
  /-- An array. -/
  | array (items : List Toml)
  /-- A table; its entries keep their order. -/
  | table (origin : TableOrigin) (entries : List (String × Toml))
  /-- An array of tables made by headers, the last one first. -/
  | tables (reversed : List Toml)

namespace Toml

/-- The entries of a table. -/
abbrev Entries := List (String × Toml)

/-- The entry of a name is changed, or made if there is none. -/
def update (name : String) (change : Option Toml → Option Toml) : Entries → Option Entries
  | [] => do return [(name, ← change none)]
  | (other, value) :: rest =>
    if other = name then do return (other, ← change (some value)) :: rest
    else do return (other, value) :: (← update name change rest)

/-- Changes the table at a path from the outermost table on. `enter` says for each table on the way
which origin it has afterwards, if it may be passed at all, and `missing` is the origin of tables
that have to be made. In an array of tables the last one is meant. -/
def updateAt (enter : TableOrigin → Bool) (missing : TableOrigin)
    (change : TableOrigin → Entries → Option Toml) :
    List String → TableOrigin → Entries → Option Toml
  | [], origin, entries => change origin entries
  | name :: path, origin, entries => do
    let inner : Option Toml → Option Toml
      | none => updateAt enter missing change path missing []
      | some (table innerOrigin innerEntries) =>
        if enter innerOrigin then updateAt enter missing change path innerOrigin innerEntries
        else none
      | some (tables (table innerOrigin innerEntries :: earlier)) => do
        let last ← updateAt enter missing change path innerOrigin innerEntries
        return tables (last :: earlier)
      | some _ => none
    return table origin (← update name inner entries)

/-- Adds an entry to a table; its name must be new. -/
def insertNew (name : String) (value : Toml) (entries : Entries) : Option Entries :=
  if entries.any (·.1 == name) then none else some (entries ++ [(name, value)])

/-- Adds an entry with a dotted key to a table. The key does not pass tables with a header of their
own or with braces, and a table that it adds to must have been made by dotted keys, unless it is the
one that the key starts from. -/
def insertDotted (made : TableOrigin) (path : List String) (name : String) (value : Toml)
    (origin : TableOrigin) (entries : Entries) : Option Toml :=
  updateAt (fun origin => origin == made || origin == .implied) made
    (fun origin entries => do
      if path.isEmpty || origin == made then
        return table origin (← insertNew name value entries)
      else none)
    path origin entries

/-- Opens the table of a header inside its parent. A table that was only implied by the header of a
table inside it may still be opened. -/
def openTable (name : String) (origin : TableOrigin) (entries : Entries) : Option Toml := do
  let opened : Option Toml → Option Toml
    | none => some (table .header [])
    | some (table .implied inner) => some (table .header inner)
    | some _ => none
  return table origin (← update name opened entries)

/-- Appends a table to an array of tables inside its parent. -/
def appendTable (name : String) (origin : TableOrigin) (entries : Entries) : Option Toml := do
  let appended : Option Toml → Option Toml
    | none => some (tables [table .header []])
    | some (tables earlier) => some (tables (table .header [] :: earlier))
    | some _ => none
  return table origin (← update name appended entries)

/-- Headers pass every table that is not inline. -/
def passable (origin : TableOrigin) : Bool :=
  origin != .inline && origin != .inlineDotted

/-- One line of a document that has content. -/
inductive Line
  /-- A key and its value. -/
  | entry (path : List String) (name : String) (value : Toml)
  /-- The header of a table. -/
  | header (path : List String) (name : String)
  /-- The header of one more table of an array. -/
  | arrayHeader (path : List String) (name : String)

/-- A document while it is read: its outermost table, and the path of the table that entries go
into. -/
structure Document where
  /-- The entries of the outermost table. -/
  root : Toml
  /-- The path of the current table. -/
  current : List String

/-- The document before its first line. -/
def Document.empty : Document :=
  ⟨table .header [], []⟩

/-- Changes the table at a path of the document. -/
def Document.updateAt (d : Document) (path : List String)
    (change : TableOrigin → Entries → Option Toml) : Option Toml :=
  match d.root with
  | table origin entries => Toml.updateAt passable .implied change path origin entries
  | _ => none

/-- Adds a line to a document. -/
def Document.add (d : Document) : Line → Option Document
  | .entry path name value => do
    return { d with root := ← d.updateAt d.current (insertDotted .dotted path name value) }
  | .header path name => do
    return ⟨← d.updateAt path (openTable name), path ++ [name]⟩
  | .arrayHeader path name => do
    return ⟨← d.updateAt path (appendTable name), path ++ [name]⟩

/-- The entry of a table with a name. -/
def get? (t : Toml) (name : String) : Option Toml :=
  match t with
  | table _ entries => entries.lookup name
  | _ => none

end Toml

end FluentSql
