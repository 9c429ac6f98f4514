import FluentSql.Json.Basic
import FluentSql.Number.Numeral
import FluentSql.Text.Blank

/-!
# Reading JSON

A text holds one value, with spaces around its tokens.
-/

namespace FluentSql

namespace Json

/-- Skips spaces. -/
def skip (cs : List Char) : List Char :=
  cs.dropWhile Text.isSpace

/-- The value of four hexadecimal digits. -/
def hexValue4? (a b c d : Char) : Option Nat := do
  return ((← Numeral.hexValue? a) * 16 + (← Numeral.hexValue? b)) * 256 +
    ((← Numeral.hexValue? c) * 16 + (← Numeral.hexValue? d))

/-- The character that a mark of one letter stands for. -/
def unescapeChar? : Char → Option Char
  | '"' => some '"'
  | '\\' => some '\\'
  | '/' => some '/'
  | 'b' => some (Char.ofNat 0x08)
  | 'f' => some (Char.ofNat 0x0C)
  | 'n' => some '\n'
  | 'r' => some '\r'
  | 't' => some '\t'
  | _ => none

/-- The code is the first half of a surrogate pair. -/
def isHighSurrogate (n : Nat) : Bool :=
  0xD800 ≤ n && n < 0xDC00

/-- The code is the second half of a surrogate pair. -/
def isLowSurrogate (n : Nat) : Bool :=
  0xDC00 ≤ n && n < 0xE000

/-- The character of a surrogate pair. -/
def pairChar (high low : Nat) : Char :=
  Char.ofNat (0x10000 + (high - 0xD800) * 0x400 + (low - 0xDC00))

/-- Reads the codes of a string up to its closing quote. Control characters have to be marked. -/
def unquote : List Char → Option (List Nat × List Char)
  | [] => none
  | '"' :: rest => some ([], rest)
  | '\\' :: 'u' :: a :: b :: c :: d :: rest => do
    let code ← hexValue4? a b c d
    let (codes, rest) ← unquote rest
    return (code :: codes, rest)
  | '\\' :: c :: rest => do
    let c ← unescapeChar? c
    let (codes, rest) ← unquote rest
    return (c.toNat :: codes, rest)
  | c :: rest => do
    if c.toNat < 0x20 ∨ c = '\\' then none
    else
      let (codes, rest) ← unquote rest
      return (c.toNat :: codes, rest)

/-- The characters with the given codes. Surrogates have to come in pairs, each of which is one
character. -/
def ofCodes : List Nat → Option (List Char)
  | [] => some []
  | [code] =>
    if isHighSurrogate code || isLowSurrogate code then none else some [Char.ofNat code]
  | code :: next :: codes =>
    if isHighSurrogate code then
      if isLowSurrogate next then (ofCodes codes).map (pairChar code next :: ·) else none
    else if isLowSurrogate code then none
    else (ofCodes (next :: codes)).map (Char.ofNat code :: ·)

/-- Reads a string; it has no text if half of a surrogate pair is in it. -/
def readString : List Char → Option (Option String × List Char)
  | '"' :: rest => do
    let (codes, rest) ← unquote rest
    return ((ofCodes codes).map String.ofList, rest)
  | _ => none

/-- Reads a run of one or more digits. -/
def readDigits (cs : List Char) : Option (List Char × List Char) :=
  match cs.takeWhile Char.isDigit with
  | [] => none
  | digits => some (digits, cs.dropWhile Char.isDigit)

/-- Reads the digits before the point; only zero itself starts with a zero. -/
def readWhole : List Char → Option (List Char × List Char)
  | '0' :: rest => some (['0'], rest)
  | cs => readDigits cs

/-- Skips a fraction, if one begins here. -/
def skipFraction : List Char → Option (List Char)
  | '.' :: rest => (readDigits rest).map (·.2)
  | cs => some cs

/-- Skips a sign, if there is one. -/
def skipSign : List Char → List Char
  | '+' :: rest => rest
  | '-' :: rest => rest
  | cs => cs

/-- Skips an exponent, if one begins here. -/
def skipExponent : List Char → Option (List Char)
  | 'e' :: rest => (readDigits (skipSign rest)).map (·.2)
  | 'E' :: rest => (readDigits (skipSign rest)).map (·.2)
  | cs => some cs

/-- The text of the characters in front of the rest of them. -/
def textBefore (rest cs : List Char) : String :=
  String.ofList (cs.take (cs.length - rest.length))

/-- The string with a text, if it has one. The string is written before `rest` in `cs`. -/
def ofString (rest cs : List Char) : Option String → Json
  | some text => string text
  | none => broken (textBefore rest cs)

/-- The object with the given members, if their names have texts. The object is written before
`rest` in `cs`. -/
def ofMembers (rest cs : List Char) (members : List (Option String × Json)) : Json :=
  match members.mapM fun (name, value) => name.map (·, value) with
  | some members => object members
  | none => broken (textBefore rest cs)

/-- The characters go on with a fraction or an exponent. -/
def startsFraction (cs : List Char) : Bool :=
  cs.head?.any fun c => c == '.' || c == 'e' || c == 'E'

/-- Reads a number. It is a natural number if it has neither sign nor fraction nor exponent. -/
def readNumber (cs : List Char) : Option (Json × List Char) := do
  let (negative, unsigned) := match cs with
    | '-' :: rest => (true, rest)
    | _ => (false, cs)
  let (digits, rest) ← readWhole unsigned
  if negative || startsFraction rest then
    let rest ← skipExponent (← skipFraction rest)
    return (number (textBefore rest cs), rest)
  else return (natural (Nat.ofDigitChars 10 digits 0), rest)

mutual
/-- Reads a value. The bound on the depth of calls is never reached if it exceeds the number of
characters. -/
def readValue (bound : Nat) (cs : List Char) : Option (Json × List Char) :=
  match bound, cs with
  | 0, _ => none
  | bound + 1, '[' :: rest =>
    match skip rest with
    | ']' :: rest => some (array [], rest)
    | rest => (readItems bound rest).map fun (items, rest) => (array items, rest)
  | bound + 1, '{' :: rest =>
    match skip rest with
    | '}' :: rest => some (object [], rest)
    | rest =>
      (readMembers bound rest).map fun (members, rest) =>
        (ofMembers rest cs members, rest)
  | _ + 1, '"' :: _ =>
    (readString cs).map fun (text, rest) => (ofString rest cs text, rest)
  | _ + 1, 'n' :: 'u' :: 'l' :: 'l' :: rest => some (null, rest)
  | _ + 1, 't' :: 'r' :: 'u' :: 'e' :: rest => some (boolean true, rest)
  | _ + 1, 'f' :: 'a' :: 'l' :: 's' :: 'e' :: rest => some (boolean false, rest)
  | _ + 1, cs => readNumber cs
termination_by structural bound

/-- Reads the items of an array and the bracket after them. -/
def readItems (bound : Nat) (cs : List Char) : Option (List Json × List Char) :=
  match bound with
  | 0 => none
  | bound + 1 => do
    let (item, rest) ← readValue bound cs
    match skip rest with
    | ',' :: rest =>
      let (items, rest) ← readItems bound (skip rest)
      return (item :: items, rest)
    | ']' :: rest => return ([item], rest)
    | _ => none
termination_by structural bound

/-- Reads the members of an object and the bracket after them. -/
def readMembers (bound : Nat) (cs : List Char) :
    Option (List (Option String × Json) × List Char) :=
  match bound with
  | 0 => none
  | bound + 1 => do
    let (name, rest) ← readString cs
    match skip rest with
    | ':' :: rest =>
      let (value, rest) ← readValue bound (skip rest)
      match skip rest with
      | ',' :: rest =>
        let (members, rest) ← readMembers bound (skip rest)
        return ((name, value) :: members, rest)
      | '}' :: rest => return ([(name, value)], rest)
      | _ => none
    | _ => none
termination_by structural bound
end

/-- The value that a text holds. -/
def ofText? (text : String) : Option Json := do
  let cs := skip text.toList
  let (value, rest) ← readValue (cs.length + 1) cs
  if (skip rest).isEmpty then return value else none

end Json

end FluentSql
