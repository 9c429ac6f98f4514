/-!
# JSON values
-/

namespace FluentSql

/-- A JSON value. Numbers other than natural ones are kept as they are written. -/
inductive Json
  /-- The value `null`. -/
  | null
  /-- A truth value. -/
  | boolean (value : Bool)
  /-- A natural number, written without sign, fraction and exponent. -/
  | natural (value : Nat)
  /-- Any other number, as it is written. -/
  | number (text : String)
  /-- A string. -/
  | string (value : String)
  /-- A string with half of a surrogate pair, or an object with such a name, as it is written; it
  stands for no value. -/
  | broken (text : String)
  /-- An array. -/
  | array (items : List Json)
  /-- An object; its members keep their order. -/
  | object (members : List (String × Json))

namespace Json

/-- The fields of a record with the given names: the members of an object, where each name occurs
once and other members are ignored, or the items of an array with one item for each name. -/
def fields? (names : List String) : Json → Option (List Json)
  | object members =>
    names.mapM fun name =>
      match members.filter (·.1 == name) with
      | [(_, value)] => some value
      | _ => none
  | array items => if items.length = names.length then some items else none
  | _ => none

/-- The string that a value is. -/
def string? : Json → Option String
  | string s => some s
  | _ => none

/-- The items of the array that a value is. -/
def array? : Json → Option (List Json)
  | array items => some items
  | _ => none

/-- The natural number below `2 ^ 64` that a value is. -/
def size? : Json → Option Nat
  | natural n => if n < UInt64.size then some n else none
  | _ => none

end Json

end FluentSql
