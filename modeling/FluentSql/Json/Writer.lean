import FluentSql.Json.Basic

/-!
# Writing JSON

Arrays and objects have one item a line and two more spaces of margin for each level; empty ones
stay on their line.
-/

namespace FluentSql

namespace Json

/-- A character of a string in JSON: quotes, backslashes and control characters are marked. -/
def escapeChar (c : Char) : List Char :=
  if c = '"' then ['\\', '"']
  else if c = '\\' then ['\\', '\\']
  else if c = '\n' then ['\\', 'n']
  else if c = '\r' then ['\\', 'r']
  else if c = '\t' then ['\\', 't']
  else if c.toNat = 0x08 then ['\\', 'b']
  else if c.toNat = 0x0C then ['\\', 'f']
  else if c.toNat < 0x20 then
    ['\\', 'u', '0', '0', Nat.digitChar (c.toNat / 16), Nat.digitChar (c.toNat % 16)]
  else [c]

/-- A string in JSON. -/
def quoted (s : String) : String :=
  String.ofList ('"' :: s.toList.flatMap escapeChar ++ ['"'])

/-- The margin at a depth. -/
def margin (depth : Nat) : String :=
  String.ofList (List.replicate (2 * depth) ' ')

/-- Items between brackets, one a line. -/
def block (depth : Nat) (opening closing : String) (items : List String) : String :=
  if items.isEmpty then opening ++ closing
  else
    opening ++ "\n" ++ ",\n".intercalate (items.map (margin (depth + 1) ++ ·)) ++ "\n" ++
      margin depth ++ closing

mutual
/-- A value whose first line has the margin of a depth. -/
def write (depth : Nat) : Json → String
  | null => "null"
  | boolean b => if b then "true" else "false"
  | natural n => toString n
  | number text => text
  | string s => quoted s
  | broken text => text
  | array items => block depth "[" "]" (writeItems (depth + 1) items)
  | object members => block depth "\x7b" "\x7d" (writeMembers (depth + 1) members)

/-- The items of an array. -/
def writeItems (depth : Nat) : List Json → List String
  | [] => []
  | item :: items => write depth item :: writeItems depth items

/-- The members of an object. -/
def writeMembers (depth : Nat) : List (String × Json) → List String
  | [] => []
  | (name, value) :: members =>
    (quoted name ++ ": " ++ write depth value) :: writeMembers depth members
end

/-- The text of a value. -/
def toText (j : Json) : String :=
  j.write 0

end Json

end FluentSql
