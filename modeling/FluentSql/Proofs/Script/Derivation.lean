import FluentSql.Proofs.Script.Layout

/-!
# The grammar of scripts

The grammar as relations: characters derive a part of a script up to what is left of them. Each
constructor is one alternative of a rule:

* `script := ws binding* ("return" ws)? expr ws ";"? ws`
* `binding := ("const" | "let") ws ident ws "=" ws expr ws ";" ws`
* `expr := primary (ws "." ws ident ws args)*`
* `primary := string | number | ident ws args? | "(" ws expr ws ")"`
* `number := "NaN" | "-"? "Infinity" | "-"? digits ("." digits)? (("e" | "E") ("+" | "-")? digits)?`
* `args := "(" ws (expr (ws "," ws expr)* ws ","?)? ws ")"`

The relations for expressions have a parameter: where `lone` holds, a comma alone may stand for no
arguments. Without it they are the grammar above.
-/

namespace FluentSql

namespace Script

/-! ### Blanks and words -/

/-- A line ends here, or the script does. -/
def EndsLine (cs : List Char) : Prop :=
  cs = [] ∨ ∃ tail, cs = '\n' :: tail ∨ cs = '\r' :: '\n' :: tail

/-- Spaces and comments. A comment goes on to the end of its line. -/
inductive Skips : List Char → List Char → Prop
  | done (cs : List Char) : Skips cs cs
  | space {c : Char} {cs rest : List Char} (hspace : Text.isSpace c = true) (h : Skips cs rest) :
      Skips (c :: cs) rest
  | comment {text cs rest : List Char} (htext : ∀ c ∈ text, c ≠ '\n' ∧ c ≠ '\r')
      (hend : EndsLine cs) (h : Skips cs rest) : Skips ('/' :: '/' :: (text ++ cs)) rest

/-- Blanks after blanks are blanks. -/
theorem Skips.trans {cs ds rest : List Char} (h : Skips cs ds) (hmore : Skips ds rest) :
    Skips cs rest := by
  induction h with
  | done => exact hmore
  | space hspace _ ih => exact .space hspace (ih hmore)
  | comment htext hend _ ih => exact .comment htext hend (ih hmore)

/-- A name, which is taken as a whole. -/
inductive DerivesName (name : String) : List Char → List Char → Prop
  | mk {rest : List Char} (hname : Text.isBareName name.toList = true)
      (hwhole : ∀ c ∈ rest.head?, Text.isNameChar c = false) :
      DerivesName name (name.toList ++ rest) rest

/-- A number: a name of one, perhaps with a sign, or a numeral. -/
inductive DerivesNumber : Node → List Char → List Char → Prop
  | nan {cs rest : List Char} (h : DerivesName "NaN" cs rest) :
      DerivesNumber (.float .nan) cs rest
  | infinity {cs rest : List Char} (h : DerivesName "Infinity" cs rest) :
      DerivesNumber (.float (.infinite false)) cs rest
  | negativeInfinity {cs rest : List Char} (h : DerivesName "Infinity" cs rest) :
      DerivesNumber (.float (.infinite true)) ('-' :: cs) rest
  | integer {n : Numeral} {value : Int64} {cs rest : List Char} (h : n.Writes cs)
      (hinteger : n.isInteger = true) (hvalue : n.toInt64? = some value) :
      DerivesNumber (.integer value) (cs ++ rest) rest
  | float {n : Numeral} {cs rest : List Char} (h : n.Writes cs) (hinteger : n.isInteger = false) :
      DerivesNumber (.float n.toDouble) (cs ++ rest) rest

/-! ### Expressions -/

/-- A part of an expression, as the rules of the grammar tell them apart, with its trees. -/
inductive Phrase
  /-- A primary. -/
  | primary (node : Node)
  /-- A primary and the method calls after it. -/
  | expr (node : Node)
  /-- Expressions with a comma before each. -/
  | more (nodes : List Node)
  /-- The arguments of a call, with the parentheses around them. -/
  | arguments (nodes : List Node)

/-- The rules for expressions. A name of a number is no other name. -/
inductive Derives (lone : Prop) : Phrase → List Char → List Char → Prop
  | string {quote : Char} {value : String} {cs rest : List Char}
      (hquote : quote = '"' ∨ quote = '\'') (h : WritesText quote value.toList cs) :
      Derives lone (.primary (.string value)) (quote :: (cs ++ quote :: rest)) rest
  | number {node : Node} {cs rest : List Char} (h : DerivesNumber node cs rest) :
      Derives lone (.primary node) cs rest
  | name {name : String} {cs rest : List Char} (hname : DerivesName name cs rest)
      (hfree : IsFreeName name) : Derives lone (.primary (ofName name)) cs rest
  | call {name : String} {nodes : List Node} {cs gap arguments rest : List Char}
      (hname : DerivesName name cs gap) (hfree : IsFreeName name) (hgap : Skips gap arguments)
      (h : Derives lone (.arguments nodes) arguments rest) :
      Derives lone (.primary (.call name nodes)) cs rest
  | parenthesized {node : Node} {cs inner after rest : List Char} (hbefore : Skips cs inner)
      (h : Derives lone (.expr node) inner after) (hafter : Skips after (')' :: rest)) :
      Derives lone (.primary node) ('(' :: cs) rest
  | primary {node : Node} {cs rest : List Char} (h : Derives lone (.primary node) cs rest) :
      Derives lone (.expr node) cs rest
  | method {target : Node} {name : String} {nodes : List Node}
      {cs before after word gap arguments rest : List Char}
      (h : Derives lone (.expr target) cs before) (hbefore : Skips before ('.' :: after))
      (hafter : Skips after word) (hname : DerivesName name word gap) (hgap : Skips gap arguments)
      (harguments : Derives lone (.arguments nodes) arguments rest) :
      Derives lone (.expr (.method target name nodes)) cs rest
  | done (cs : List Char) : Derives lone (.more []) cs cs
  | next {node : Node} {nodes : List Node} {cs after expr more rest : List Char}
      (hbefore : Skips cs (',' :: after)) (hafter : Skips after expr)
      (h : Derives lone (.expr node) expr more) (hmore : Derives lone (.more nodes) more rest) :
      Derives lone (.more (node :: nodes)) cs rest
  | empty {cs rest : List Char} (hgap : Skips cs (')' :: rest)) :
      Derives lone (.arguments []) ('(' :: cs) rest
  | full {node : Node} {nodes : List Node} {cs first more after rest : List Char}
      (hbefore : Skips cs first) (h : Derives lone (.expr node) first more)
      (hmore : Derives lone (.more nodes) more after) (hafter : Skips after (')' :: rest)) :
      Derives lone (.arguments (node :: nodes)) ('(' :: cs) rest
  | trailing {node : Node} {nodes : List Node} {cs first more after gap rest : List Char}
      (hbefore : Skips cs first) (h : Derives lone (.expr node) first more)
      (hmore : Derives lone (.more nodes) more after) (hafter : Skips after (',' :: gap))
      (hgap : Skips gap (')' :: rest)) :
      Derives lone (.arguments (node :: nodes)) ('(' :: cs) rest
  | comma {cs gap rest : List Char} (hlone : lone) (hbefore : Skips cs (',' :: gap))
      (hgap : Skips gap (')' :: rest)) : Derives lone (.arguments []) ('(' :: cs) rest

/-! ### Scripts -/

/-- A binding, with the blanks after it. -/
inductive DerivesBinding (lone : Prop) : Binding → List Char → List Char → Prop
  | mk {word name : String} {value : Node}
      {cs gap ident before after expr between last rest : List Char}
      (hword : word = "const" ∨ word = "let") (hkeyword : DerivesName word cs gap)
      (hgap : Skips gap ident) (hname : DerivesName name ident before)
      (hbefore : Skips before ('=' :: after)) (hafter : Skips after expr)
      (h : Derives lone (.expr value) expr between) (hbetween : Skips between (';' :: last))
      (hlast : Skips last rest) : DerivesBinding lone ⟨name, value⟩ cs rest

/-- Bindings. -/
inductive DerivesBindings (lone : Prop) : List Binding → List Char → List Char → Prop
  | done (cs : List Char) : DerivesBindings lone [] cs cs
  | next {binding : Binding} {bindings : List Binding} {cs more rest : List Char}
      (h : DerivesBinding lone binding cs more) (hmore : DerivesBindings lone bindings more rest) :
      DerivesBindings lone (binding :: bindings) cs rest

/-- Perhaps the word `return`, with the blanks after it. -/
inductive DerivesReturn : List Char → List Char → Prop
  | none (cs : List Char) : DerivesReturn cs cs
  | word {cs gap rest : List Char} (hword : DerivesName "return" cs gap) (hgap : Skips gap rest) :
      DerivesReturn cs rest

/-- Blanks and perhaps a semicolon at the end of a script. -/
inductive DerivesEnd : List Char → Prop
  | bare {cs : List Char} (h : Skips cs []) : DerivesEnd cs
  | semicolon {cs last : List Char} (h : Skips cs (';' :: last)) (hlast : Skips last []) :
      DerivesEnd cs

/-- A whole script. -/
inductive DerivesScript (lone : Prop) : Script → List Char → Prop
  | mk {bindings : List Binding} {body : Node} {cs first before expr last : List Char}
      (hfirst : Skips cs first) (hbindings : DerivesBindings lone bindings first before)
      (hbefore : DerivesReturn before expr) (h : Derives lone (.expr body) expr last)
      (hlast : DerivesEnd last) : DerivesScript lone ⟨bindings, body⟩ cs

end Script

end FluentSql
