import FluentSql.Number.Numeral
import FluentSql.Script.Basic
import FluentSql.Script.Reply
import FluentSql.Text.Blank
import FluentSql.Text.Name
import FluentSql.Text.Quoted

/-!
# Tokens of builder scripts

Blanks and comments, names, keywords, numbers and strings.
-/

namespace FluentSql

namespace Script

mutual
/-- Skips spaces and comments. -/
def skip : List Char → List Char
  | [] => []
  | c :: cs =>
    if Text.isSpace c then skip cs
    else if c = '/' then
      match cs with
      | [] => [c]
      | d :: ds => if d = '/' then skipComment (c :: d :: ds) ds else c :: d :: ds
    else c :: cs

/-- Skips the rest of a comment that begins at `start`. A comment ends with its line; where a
carriage return stands without a line feed, there was no comment. -/
def skipComment (start : List Char) : List Char → List Char
  | [] => []
  | c :: cs =>
    if c = '\n' then skip cs
    else if c = '\r' then
      match cs with
      | [] => start
      | d :: ds => if d = '\n' then skip ds else start
    else skipComment start cs
end

/-- Takes a bare name. -/
def readName : Reader String
  | [] => .absent []
  | c :: cs =>
    if Text.isNameStart c then
      .found (String.ofList (c :: cs.takeWhile Text.isNameChar)) (cs.dropWhile Text.isNameChar)
    else .absent (c :: cs)

/-- Takes a bare name that is the given word. -/
def readKeyword (word : String) : Reader Unit := fun cs =>
  match readName cs with
  | .found name rest => if name = word then .found () rest else .absent cs
  | _ => .absent cs

/-- Takes a string in the given quotes. -/
def readQuoted (quote : Char) : Reader String
  | [] => .absent []
  | c :: cs =>
    if c = quote then
      match Text.unquote quote cs with
      | some (text, rest) => .found (String.ofList text) rest
      | none => .failed false (c :: cs)
    else .absent (c :: cs)

/-- Takes a string. -/
def readString : Reader Node := fun cs =>
  ((readQuoted '"' cs).orElse fun _ => readQuoted '\'' cs).map .string

/-- Takes the name of an infinity, with its sign. -/
def readInfinity : Reader Node := fun cs =>
  match cs with
  | '-' :: rest => (readKeyword "Infinity" rest).map fun _ => .float (.infinite true)
  | _ => (readKeyword "Infinity" cs).map fun _ => .float (.infinite false)

/-- Takes a numeral. An integer out of range is no number. -/
def readNumeral : Reader Node := fun cs =>
  match Numeral.scan cs with
  | none => .absent cs
  | some (numeral, rest) =>
    if numeral.isInteger then
      match numeral.toInt64? with
      | some value => .found (.integer value) rest
      | none => .absent cs
    else .found (.float numeral.toDouble) rest

/-- Takes a number. -/
def readNumber : Reader Node := fun cs =>
  (((readKeyword "NaN" cs).map fun _ => .float .nan).orElse fun _ => readInfinity cs).orElse
    fun _ => readNumeral cs

end Script

end FluentSql
