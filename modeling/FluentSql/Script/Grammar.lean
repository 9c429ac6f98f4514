import FluentSql.Script.Token

/-!
# Reading builder scripts

The grammar, where spaces and comments may stand between any two tokens:

* a script is bindings, perhaps the word `return`, an expression, and perhaps a semicolon;
* a binding is `const` or `let`, a name, `=`, an expression and a semicolon;
* an expression is a primary and any number of method calls, each a point, a name and arguments;
* a primary is a string, a number, a name with or without arguments, or an expression in
  parentheses;
* arguments are expressions in parentheses, separated by commas, with perhaps one more comma.

Parentheses, arguments and the method calls of a chain are levels of nesting, and their number is
limited.
-/

namespace FluentSql

namespace Script

/-- The deepest nesting that is read. -/
def maxDepth : Nat := 256

/-- Takes a character with the spaces around it. -/
def readSeparator (c : Char) : Reader Unit := fun cs =>
  (readChar c (skip cs)).andThen fun _ rest => .found () (skip rest)

/-- Takes expressions separated by commas. A comma without an expression after it is left. -/
def readList (inner : Reader Node) : Reader (List Node) := fun cs =>
  match inner cs with
  | .absent _ => .found [] cs
  | .failed deep stop => .failed deep stop
  | .found first rest =>
    let next : Reader Node := fun cs => (readSeparator ',' cs).andThen fun _ rest => inner rest
    (readMany next rest.length rest).map (first :: ·)

/-- Takes a comma and the spaces after it, if there is one. -/
def skipComma (cs : List Char) : List Char :=
  match cs with
  | ',' :: rest => skip rest
  | _ => cs

/-- Takes arguments. Past the opening parenthesis there is no way back. -/
def readArguments (inner : Reader Node) : Reader (List Node) := fun cs =>
  (readChar '(' cs).andThen fun _ rest =>
    (readList inner (skip rest)).andThen fun arguments rest =>
      ((readChar ')' (skipComma (skip rest))).map fun _ => arguments).required

/-- What a name stands for without arguments. -/
def ofName (name : String) : Node :=
  if name = "true" then .boolean true
  else if name = "false" then .boolean false
  else .name name

/-- Takes a name, with arguments if there are any. -/
def readNameOrCall (inner : Reader Node) : Reader Node := fun cs =>
  (readName cs).andThen fun name rest =>
    match readArguments inner (skip rest) with
    | .found arguments rest => .found (.call name arguments) rest
    | .absent _ => .found (ofName name) rest
    | .failed deep stop => .failed deep stop

/-- Takes an expression in parentheses. Past the opening parenthesis there is no way back. -/
def readParenthesized (inner : Reader Node) : Reader Node := fun cs =>
  (readChar '(' cs).andThen fun _ rest =>
    ((inner (skip rest)).andThen fun node rest =>
      (readChar ')' (skip rest)).map fun _ => node).required

/-- Takes a primary. -/
def readPrimary (inner : Reader Node) : Reader Node := fun cs =>
  (((readString cs).orElse fun _ => readNumber cs).orElse
    fun _ => readNameOrCall inner cs).orElse fun _ => readParenthesized inner cs

/-- Takes a method call. Past the point there is no way back. -/
def readMethod (inner : Reader Node) : Reader (String × List Node) := fun cs =>
  (readSeparator '.' cs).andThen fun _ rest =>
    ((readName rest).andThen fun name rest =>
      (readArguments inner (skip rest)).map fun arguments => (name, arguments)).required

mutual
/-- Takes an expression, with `levels` levels of nesting left for it and what is in it. -/
def readExpr (levels : Nat) : Reader Node := fun cs =>
  match levels with
  | 0 => .failed true cs
  | left + 1 =>
    (readPrimary (readExpr left) cs).andThen fun node rest =>
      readChain (readExpr left) left node rest
termination_by structural levels

/-- Takes the method calls that follow `target`. There are `left` levels left for them, and `inner`
takes the arguments of the first one. -/
def readChain (inner : Reader Node) (left : Nat) (target : Node) : Reader Node := fun cs =>
  match readMethod inner cs with
  | .absent _ => .found target cs
  | .failed deep stop => .failed deep stop
  | .found (name, arguments) rest =>
    match left with
    | 0 => .failed true cs
    | left + 1 => readChain (readExpr left) left (.method target name arguments) rest
termination_by structural left
end

/-- Takes an expression that is not nested in another one. -/
def readOuterExpr : Reader Node :=
  readExpr (maxDepth + 1)

/-- Takes a binding and the spaces after it. Past the keyword there is no way back. -/
def readBinding : Reader Binding := fun cs =>
  ((readKeyword "const" cs).orElse fun _ => readKeyword "let" cs).andThen fun _ rest =>
    ((readName (skip rest)).andThen fun name rest =>
      (readSeparator '=' rest).andThen fun _ rest =>
        (readOuterExpr rest).andThen fun value rest =>
          (readSeparator ';' rest).map fun _ => ⟨name, value⟩).required

/-- Takes the word `return` and the spaces after it, if it is there. -/
def skipReturn (cs : List Char) : List Char :=
  match readKeyword "return" cs with
  | .found _ rest => skip rest
  | _ => cs

/-- Takes a semicolon, if there is one. -/
def skipSemicolon (cs : List Char) : List Char :=
  match cs with
  | ';' :: rest => rest
  | _ => cs

/-- Takes a whole script. -/
def readScript : Reader Script := fun cs =>
  (readMany readBinding cs.length (skip cs)).andThen fun bindings rest =>
    (readOuterExpr (skipReturn rest)).andThen fun body rest =>
      match skip (skipSemicolon (skip rest)) with
      | [] => .found ⟨bindings, body⟩ []
      | stop => .absent stop

/-- The number of bytes of the characters. -/
def byteLength (cs : List Char) : Nat :=
  cs.foldr (fun c n => c.utf8Size + n) 0

/-- Bytes add up. -/
theorem byteLength_append (cs ds : List Char) :
    byteLength (cs ++ ds) = byteLength cs + byteLength ds := by
  induction cs with
  | nil => simp [byteLength]
  | cons c cs ih => simp_all [byteLength, Nat.add_assoc]

/-- The number of characters that a message quotes. -/
def snippetLength : Nat := 20

/-- Reads a script from its text. -/
def ofText (text : String) : Except Error Script :=
  let cs := text.toList
  let fault (deep : Bool) (stop : List Char) : Except Error Script :=
    .error (.parse (byteLength cs - byteLength stop)
      (if deep then .tooDeep maxDepth else .unexpected (String.ofList (stop.take snippetLength))))
  match readScript cs with
  | .found script _ => .ok script
  | .absent stop => fault false stop
  | .failed deep stop => fault deep stop

end Script

end FluentSql
