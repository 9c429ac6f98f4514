/-!
# Quoted text in builder scripts

Scripts write a text between double quotes and mark quotes, backslashes, line feeds and tabs with a
backslash. Reading accepts single quotes as well, and takes an unknown mark for the character after
the backslash.
-/

namespace FluentSql.Text

/-- A character of a text as a script writes it. -/
def escapeChar (c : Char) : List Char :=
  if c = '"' then ['\\', '"']
  else if c = '\\' then ['\\', '\\']
  else if c = '\n' then ['\\', 'n']
  else if c = '\t' then ['\\', 't']
  else [c]

/-- A text as a script writes it. -/
def quoted (s : String) : String :=
  String.ofList ('"' :: s.toList.flatMap escapeChar ++ ['"'])

/-- The character that a backslash and `c` stand for. -/
def unescapeChar (c : Char) : Char :=
  if c = 'n' then '\n' else if c = 't' then '\t' else if c = 'r' then '\r' else c

/-- Reads a text up to its closing quote; there is none if the quote is never closed. The second
part is what follows the quote. -/
def unquote (quote : Char) : List Char → Option (List Char × List Char)
  | [] => none
  | ['\\'] => none
  | '\\' :: c :: cs => (unquote quote cs).map fun (text, rest) => (unescapeChar c :: text, rest)
  | c :: cs =>
    if c = quote then some ([], cs)
    else (unquote quote cs).map fun (text, rest) => (c :: text, rest)

/-- A character as a script writes it is read back. -/
theorem unquote_escapeChar (c : Char) (cs : List Char) :
    unquote '"' (escapeChar c ++ cs) =
      (unquote '"' cs).map fun (text, rest) => (c :: text, rest) := by
  by_cases hquote : c = '"'
  · subst hquote
    rfl
  by_cases hslash : c = '\\'
  · subst hslash
    rfl
  by_cases hfeed : c = '\n'
  · subst hfeed
    rfl
  by_cases htab : c = '\t'
  · subst htab
    rfl
  simp [escapeChar, unquote, hquote, hslash, hfeed, htab]

/-- A text as a script writes it is read back, whatever follows it. -/
theorem unquote_escaped (s rest : List Char) :
    unquote '"' (s.flatMap escapeChar ++ '"' :: rest) = some (s, rest) := by
  induction s with
  | nil => rfl
  | cons c s ih => simp [unquote_escapeChar, ih]

end FluentSql.Text
