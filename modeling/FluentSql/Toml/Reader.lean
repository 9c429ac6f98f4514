import FluentSql.Toml.Basic
import FluentSql.Toml.DateTime

/-!
# Reading TOML

A document is read line by line. The number of the parts of a key and the nesting of values are
limited.
-/

namespace FluentSql

namespace Toml

/-- A space or a tab. -/
def isSpace (c : Char) : Bool :=
  c == ' ' || c == '\t'

/-- Skips spaces. -/
def skip (cs : List Char) : List Char :=
  cs.dropWhile isSpace

/-- The end of a line. -/
def takeNewline : List Char → Option (List Char)
  | '\n' :: rest => some rest
  | '\r' :: '\n' :: rest => some rest
  | _ => none

/-- A character that comments and strings may hold as it stands. -/
def isPlain (c : Char) : Bool :=
  c == '\t' || (0x20 ≤ c.toNat && c.toNat != 0x7F)

/-- Skips a comment, if one begins here. -/
def skipComment : List Char → List Char
  | '#' :: rest => rest.dropWhile isPlain
  | cs => cs

/-- Skips spaces, comments and ends of lines, at most `bound` of the last. -/
def skipLines : Nat → List Char → List Char
  | 0, cs => cs
  | bound + 1, cs =>
    match takeNewline (skipComment (skip cs)) with
    | some rest => skipLines bound rest
    | none => skip cs

/-! ### Strings -/

/-- Takes the character with a code of `width` hexadecimal digits. -/
def takeCode (width : Nat) (cs : List Char) : Option (Char × List Char) := do
  let values ← (cs.take width).mapM Numeral.hexValue?
  let code := values.foldl (fun n v => 16 * n + v) 0
  if values.length = width ∧ code.isValidChar then return (Char.ofNat code, cs.drop width) else none

/-- Takes what follows a backslash. -/
def takeEscape : List Char → Option (Char × List Char)
  | 'b' :: rest => some (Char.ofNat 0x08, rest)
  | 't' :: rest => some ('\t', rest)
  | 'n' :: rest => some ('\n', rest)
  | 'f' :: rest => some (Char.ofNat 0x0C, rest)
  | 'r' :: rest => some ('\r', rest)
  | '"' :: rest => some ('"', rest)
  | '\\' :: rest => some ('\\', rest)
  | 'u' :: rest => takeCode 4 rest
  | 'U' :: rest => takeCode 8 rest
  | _ => none

/-- Takes the rest of a string on one line. Backslashes are marks if `marked`. -/
def takeLineString (quote : Char) (marked : Bool) : Nat → List Char → Option (String × List Char)
  | bound + 1, c :: rest => do
    if c = quote then return ("", rest)
    else
      let (c, rest) ← if marked && c == '\\' then takeEscape rest
        else if isPlain c then some (c, rest) else none
      let (text, rest) ← takeLineString quote marked bound rest
      return (String.ofList (c :: text.toList), rest)
  | _, _ => none

/-- Takes the quotes that end a string on many lines, which may hold two of them before its end. -/
def takeClosing (quote : Char) (cs : List Char) : Option (String × List Char) :=
  let quotes := (cs.take 5).takeWhile (· == quote)
  if 3 ≤ quotes.length then some (String.ofList (quotes.drop 3), cs.drop quotes.length) else none

/-- Skips spaces and ends of lines. -/
def skipSpaceLines : List Char → List Char
  | '\n' :: rest => skipSpaceLines rest
  | '\r' :: '\n' :: rest => skipSpaceLines rest
  | c :: rest => if isSpace c then skipSpaceLines rest else c :: rest
  | [] => []

/-- Skips the rest of a line of spaces and all space after it, following a backslash. -/
def skipContinuation (cs : List Char) : Option (List Char) :=
  (takeNewline (skip cs)).map skipSpaceLines

/-- Takes the rest of a string on many lines. -/
def takeBlockString (quote : Char) (marked : Bool) : Nat → List Char → Option (String × List Char)
  | bound + 1, c :: rest => do
    match takeClosing quote (c :: rest) with
    | some closing => return closing
    | none =>
      let (taken, rest) ←
        if marked && c == '\\' then
          match skipContinuation rest with
          | some rest => some ([], rest)
          | none => (takeEscape rest).map fun (c, rest) => ([c], rest)
        else
          match takeNewline (c :: rest) with
          | some rest => some (['\n'], rest)
          | none => if isPlain c then some ([c], rest) else none
      let (text, rest) ← takeBlockString quote marked bound rest
      return (String.ofList (taken ++ text.toList), rest)
  | _, _ => none

/-- Takes a string of any form. -/
def takeString (cs : List Char) : Option (String × List Char) :=
  match cs with
  | '"' :: '"' :: '"' :: rest =>
    takeBlockString '"' true cs.length ((takeNewline rest).getD rest)
  | '\'' :: '\'' :: '\'' :: rest =>
    takeBlockString '\'' false cs.length ((takeNewline rest).getD rest)
  | '"' :: rest => takeLineString '"' true cs.length rest
  | '\'' :: rest => takeLineString '\'' false cs.length rest
  | _ => none

/-! ### Keys -/

/-- A character of a bare key. -/
def isKeyChar (c : Char) : Bool :=
  c.isAlphanum || c == '_' || c == '-'

/-- Takes one part of a key. -/
def takeKeyPart (cs : List Char) : Option (String × List Char) :=
  match cs with
  | '"' :: rest => takeLineString '"' true cs.length rest
  | '\'' :: rest => takeLineString '\'' false cs.length rest
  | _ =>
    match cs.takeWhile isKeyChar with
    | [] => none
    | name => some (String.ofList name, cs.dropWhile isKeyChar)

/-- A key has fewer parts than this, and a value is nested less deep. -/
def nestingLimit : Nat := 80

/-- Takes a key of at most `bound` parts and the spaces around its points: the path to its table,
its last part, and what follows with no spaces in front. -/
def takeKeyParts : Nat → List Char → Option (List String × String × List Char)
  | 0, _ => none
  | bound + 1, cs => do
    let (part, rest) ← takeKeyPart (skip cs)
    match skip rest with
    | '.' :: rest =>
      let (path, name, rest) ← takeKeyParts bound rest
      return (part :: path, name, rest)
    | rest => return ([], part, rest)

/-- Takes a key: the path to its table, its last part, and what follows with no spaces in front. -/
def takeKey (cs : List Char) : Option (List String × String × List Char) :=
  takeKeyParts (nestingLimit - 1) cs

/-! ### Numbers and truth values -/

/-- The digits with single underscores between them taken out; none if an underscore or anything
that is no digit stands elsewhere. -/
def plainDigits (isDigit : Char → Bool) : List Char → Option (List Char)
  | [] => none
  | [c] => if isDigit c then some [c] else none
  | c :: '_' :: rest => do
    if isDigit c then return c :: (← plainDigits isDigit rest) else none
  | c :: rest => do
    if isDigit c then return c :: (← plainDigits isDigit rest) else none

/-- The natural number with digits to a base, and underscores between them. -/
def naturalOf (base : Nat) (cs : List Char) : Option Nat := do
  let isDigit (c : Char) : Bool := (Numeral.hexValue? c).any (· < base)
  let values ← (← plainDigits isDigit cs).mapM Numeral.hexValue?
  return values.foldl (fun n v => base * n + v) 0

/-- The natural number in decimal, without zeros in front. -/
def decimalOf (cs : List Char) : Option Nat :=
  match cs with
  | '0' :: _ :: _ => none
  | _ => naturalOf 10 cs

/-- The integer that a word is. -/
def integerOf (word : List Char) : Option Int :=
  match word with
  | '0' :: 'x' :: rest => (naturalOf 16 rest).map (↑·)
  | '0' :: 'o' :: rest => (naturalOf 8 rest).map (↑·)
  | '0' :: 'b' :: rest => (naturalOf 2 rest).map (↑·)
  | _ =>
    let (negative, digits) := Numeral.takeSign word
    (decimalOf digits).map fun n => if negative then -(n : Int) else n

/-- The word is an exponent, or nothing. -/
def isExponent : List Char → Bool
  | [] => true
  | c :: rest =>
    (c == 'e' || c == 'E') && (plainDigits Char.isDigit (Numeral.takeSign rest).2).isSome

/-- The word is a number that is no integer. -/
def isFloat (word : List Char) : Bool :=
  let (_, unsigned) := Numeral.takeSign word
  if unsigned = ['i', 'n', 'f'] ∨ unsigned = ['n', 'a', 'n'] then true
  else
    let inMantissa (c : Char) : Bool := c.isDigit || c == '_'
    let whole := unsigned.takeWhile inMantissa
    (decimalOf whole).isSome &&
      match unsigned.dropWhile inMantissa with
      | '.' :: rest =>
        (plainDigits Char.isDigit (rest.takeWhile inMantissa)).isSome &&
          isExponent (rest.dropWhile inMantissa)
      | rest => !rest.isEmpty && isExponent rest

/-- The word for a number that is no integer stands for one above all finite numbers. -/
def isTooLarge (word : List Char) : Bool :=
  let plain := word.filter (· != '_')
  match Numeral.scan (if plain.head? = some '+' then plain.drop 1 else plain) with
  | some (numeral, _) => numeral.toDouble == .infinite false
  | none => false

/-- The value that a word is: a truth value or a number. Integers have 64 bits, and no number is
larger than all finite ones. -/
def ofWord (word : List Char) : Option Toml :=
  if word = ['t', 'r', 'u', 'e'] then some (boolean true)
  else if word = ['f', 'a', 'l', 's', 'e'] then some (boolean false)
  else
    match integerOf word with
    | some n =>
      if Int64.minValue.toInt ≤ n ∧ n ≤ Int64.maxValue.toInt then some (integer n) else none
    | none => if isFloat word && !isTooLarge word then some float else none

/-- A character of a word. -/
def isWordChar (c : Char) : Bool :=
  isKeyChar c || c == '+' || c == '.'

/-! ### Values and documents -/

/-- Takes a value that holds no others. -/
def takePlain (cs : List Char) : Option (Toml × List Char) :=
  match takeString cs, skipDateTime cs with
  | some (s, rest), _ => some (string s, rest)
  | none, some rest => some (dateTime, rest)
  | none, none => do return (← ofWord (cs.takeWhile isWordChar), cs.dropWhile isWordChar)

/-- Takes the items of an array, at most `bound`, and the bracket after them; a comma may follow the
last one. -/
def takeItems (value : List Char → Option (Toml × List Char)) :
    Nat → List Char → Option (List Toml × List Char)
  | 0, _ => none
  | _ + 1, ']' :: rest => some ([], rest)
  | bound + 1, cs => do
    let (item, rest) ← value cs
    match skipLines rest.length rest with
    | ',' :: rest =>
      let (items, rest) ← takeItems value bound (skipLines rest.length rest)
      return (item :: items, rest)
    | ']' :: rest => return ([item], rest)
    | _ => none

/-- Takes the entries of an inline table, at most `bound`, after those taken before, and the brace
after them. -/
def takeEntries (value : List Char → Option (Toml × List Char)) :
    Nat → Entries → List Char → Option (Toml × List Char)
  | 0, _, _ => none
  | bound + 1, before, cs => do
    let (path, name, rest) ← takeKey cs
    match rest with
    | '=' :: rest =>
      let (item, rest) ← value (skip rest)
      match ← insertDotted .inlineDotted path name item .inline before with
      | table origin entries =>
        match skip rest with
        | ',' :: rest => takeEntries value bound entries rest
        | '}' :: rest => return (table origin entries, rest)
        | _ => none
      | _ => none
    | _ => none

/-- Takes a value that is nested at most `levels` deep. -/
def takeValue (levels : Nat) : List Char → Option (Toml × List Char) := fun cs =>
  match levels with
  | 0 => takePlain cs
  | left + 1 =>
    match cs with
    | '[' :: rest =>
      (takeItems (takeValue left) cs.length (skipLines rest.length rest)).map fun (items, rest) =>
        (array items, rest)
    | '{' :: rest =>
      match skip rest with
      | '}' :: rest => some (table .inline [], rest)
      | rest => takeEntries (takeValue left) cs.length [] rest
    | _ => takePlain cs
termination_by structural levels

/-- Takes the content of a line, if it has any. -/
def takeLine (cs : List Char) : Option (Option Line × List Char) :=
  match skip cs with
  | [] => some (none, [])
  | '#' :: rest => some (none, '#' :: rest)
  | '\n' :: rest => some (none, '\n' :: rest)
  | '\r' :: rest => some (none, '\r' :: rest)
  | '[' :: '[' :: rest => do
    match ← takeKey rest with
    | (path, name, ']' :: ']' :: rest) => return (some (.arrayHeader path name), rest)
    | _ => none
  | '[' :: rest => do
    match ← takeKey rest with
    | (path, name, ']' :: rest) => return (some (.header path name), rest)
    | _ => none
  | rest => do
    match ← takeKey rest with
    | (path, name, '=' :: rest) =>
      let (value, rest) ← takeValue (nestingLimit - 1) (skip rest)
      return (some (.entry path name value), rest)
    | _ => none

/-- Reads lines into a document; there are at most `bound`. -/
def readLines : Nat → Document → List Char → Option Document
  | 0, _, _ => none
  | bound + 1, d, cs => do
    let (line, rest) ← takeLine cs
    let d ← match line with
      | none => pure d
      | some line => d.add line
    match skipComment (skip rest) with
    | [] => return d
    | rest => readLines bound d (← takeNewline rest)

/-- The table that a document holds. -/
def ofText? (text : String) : Option Toml :=
  let cs := match text.toList with
    | '\uFEFF' :: cs => cs
    | cs => cs
  (readLines (cs.length + 1) .empty cs).map (·.root)

end Toml

end FluentSql
