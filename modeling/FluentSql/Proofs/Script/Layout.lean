import FluentSql.Proofs.Number.Reading
import FluentSql.Script.Grammar

/-!
# Layouts of scripts

A script can be written in many ways: with any spaces and comments between tokens, with parentheses
around expressions, with either quotes around strings, and so on. A layout relates a tree to the
characters that it may be written with and to how deep they nest.
-/

namespace FluentSql

namespace Script

/-! ### Blanks and strings -/

/-- Spaces and comments that may stand between two tokens. A comment ends with its line. -/
inductive Blank : List Char → Prop
  | nil : Blank []
  | space {c : Char} {cs : List Char} (hspace : Text.isSpace c = true) (h : Blank cs) :
      Blank (c :: cs)
  | comment {text ending cs : List Char} (htext : ∀ c ∈ text, c ≠ '\n' ∧ c ≠ '\r')
      (hending : ending = ['\n'] ∨ ending = ['\r', '\n']) (h : Blank cs) :
      Blank ('/' :: '/' :: (text ++ ending ++ cs))

/-- Spaces and comments at the end of a script, where a comment need not end with its line. -/
inductive FinalBlank : List Char → Prop
  | closed {cs : List Char} (h : Blank cs) : FinalBlank cs
  | comment {cs text : List Char} (h : Blank cs) (htext : ∀ c ∈ text, c ≠ '\n' ∧ c ≠ '\r') :
      FinalBlank (cs ++ '/' :: '/' :: text)

/-- The characters between quotes as written: as they are, or marked with a backslash. -/
inductive WritesText (quote : Char) : List Char → List Char → Prop
  | nil : WritesText quote [] []
  | plain {c : Char} {text cs : List Char} (hslash : c ≠ '\\') (hquote : c ≠ quote)
      (h : WritesText quote text cs) : WritesText quote (c :: text) (c :: cs)
  | marked {mark : Char} {text cs : List Char} (h : WritesText quote text cs) :
      WritesText quote (Text.unescapeChar mark :: text) ('\\' :: mark :: cs)

/-! ### Expressions -/

/-- The name does not stand for a number. -/
def IsFreeName (name : String) : Prop :=
  Text.isBareName name.toList = true ∧ name ≠ "NaN" ∧ name ≠ "Infinity"

instance (name : String) : Decidable (IsFreeName name) :=
  inferInstanceAs (Decidable (_ ∧ _ ∧ _))

/-- A part of a script. -/
inductive Part
  /-- An expression that no method call ends. -/
  | primary (node : Node)
  /-- An expression that ends with so many method calls. -/
  | chain (length : Nat) (node : Node)
  /-- Expressions with a comma before each. -/
  | more (nodes : List Node)
  /-- The arguments of a call, with the parentheses around them. -/
  | arguments (nodes : List Node)

/-- A part as written, and how many levels deep the characters nest. -/
inductive Writes : Part → Nat → List Char → Prop
  | string {quote : Char} {value : String} {cs : List Char} (hquote : quote = '"' ∨ quote = '\'')
      (h : WritesText quote value.toList cs) :
      Writes (.primary (.string value)) 0 (quote :: cs ++ [quote])
  | integer {n : Numeral} {value : Int64} {cs : List Char} (h : n.Writes cs)
      (hinteger : n.isInteger = true) (hvalue : n.toInt64? = some value) :
      Writes (.primary (.integer value)) 0 cs
  | float {n : Numeral} {cs : List Char} (h : n.Writes cs) (hinteger : n.isInteger = false) :
      Writes (.primary (.float n.toDouble)) 0 cs
  | nan : Writes (.primary (.float .nan)) 0 "NaN".toList
  | infinity (negative : Bool) :
      Writes (.primary (.float (.infinite negative))) 0
        ((if negative then ['-'] else []) ++ "Infinity".toList)
  | name {name : String} (hname : IsFreeName name) :
      Writes (.primary (ofName name)) 0 name.toList
  | call {name : String} {nodes : List Node} {depth : Nat} {gap cs : List Char}
      (hname : IsFreeName name) (hgap : Blank gap) (h : Writes (.arguments nodes) depth cs) :
      Writes (.primary (.call name nodes)) (depth + 1) (name.toList ++ (gap ++ cs))
  | parenthesized {length : Nat} {node : Node} {depth : Nat} {before cs after : List Char}
      (hbefore : Blank before) (h : Writes (.chain length node) depth cs) (hafter : Blank after) :
      Writes (.primary node) (depth + 1) ('(' :: (before ++ (cs ++ (after ++ [')']))))
  | primary {node : Node} {depth : Nat} {cs : List Char} (h : Writes (.primary node) depth cs) :
      Writes (.chain 0 node) depth cs
  | method {length : Nat} {target : Node} {depth inner : Nat} {name : String} {nodes : List Node}
      {before after between cs ds : List Char} (h : Writes (.chain length target) depth cs)
      (hbefore : Blank before) (hafter : Blank after)
      (hname : Text.isBareName name.toList = true) (hbetween : Blank between)
      (harguments : Writes (.arguments nodes) inner ds) :
      Writes (.chain (length + 1) (.method target name nodes)) (max depth (length + inner + 1))
        (cs ++ (before ++ '.' :: (after ++ (name.toList ++ (between ++ ds)))))
  | done : Writes (.more []) 0 []
  | next {length : Nat} {node : Node} {nodes : List Node} {depth inner : Nat}
      {before after cs ds : List Char} (hbefore : Blank before) (hafter : Blank after)
      (h : Writes (.chain length node) depth cs) (hmore : Writes (.more nodes) inner ds) :
      Writes (.more (node :: nodes)) (max depth inner)
        (before ++ ',' :: (after ++ (cs ++ ds)))
  | empty {gap : List Char} (hgap : Blank gap) :
      Writes (.arguments []) 0 ('(' :: (gap ++ [')']))
  | full {length : Nat} {node : Node} {nodes : List Node} {depth inner : Nat}
      {before after trailing cs ds : List Char} (hbefore : Blank before)
      (h : Writes (.chain length node) depth cs) (hmore : Writes (.more nodes) inner ds)
      (hafter : Blank after)
      (htrailing : trailing = [] ∨ ∃ gap, Blank gap ∧ trailing = ',' :: gap) :
      Writes (.arguments (node :: nodes)) (max depth inner)
        ('(' :: (before ++ (cs ++ (ds ++ (after ++ (trailing ++ [')']))))))

/-! ### Scripts -/

/-- A binding as written, with what stands between it and the next one. -/
inductive WritesBinding : Binding → Nat → List Char → Prop
  | mk {word name : String} {length : Nat} {value : Node} {depth : Nat}
      {gap before after between cs last : List Char} (hword : word = "const" ∨ word = "let")
      (hgap : Blank gap) (hapart : gap ≠ []) (hname : Text.isBareName name.toList = true)
      (hbefore : Blank before) (hafter : Blank after) (h : Writes (.chain length value) depth cs)
      (hbetween : Blank between) (hlast : Blank last) :
      WritesBinding ⟨name, value⟩ depth
        (word.toList ++ (gap ++ (name.toList ++ (before ++ '=' :: (after ++ (cs ++
          (between ++ ';' :: last)))))))

/-- Bindings as written. -/
inductive WritesBindings : List Binding → Nat → List Char → Prop
  | nil : WritesBindings [] 0 []
  | cons {binding : Binding} {bindings : List Binding} {depth inner : Nat} {cs ds : List Char}
      (h : WritesBinding binding depth cs) (hmore : WritesBindings bindings inner ds) :
      WritesBindings (binding :: bindings) (max depth inner) (cs ++ ds)

/-- The name that the characters begin with, if any. -/
def leadingName (cs : List Char) : String :=
  String.ofList (cs.takeWhile Text.isNameChar)

/-- What may stand before the final expression: nothing, if that does not begin with a keyword, or
the word `return`, apart from any name after it. -/
inductive WritesReturn : List Char → List Char → Prop
  | none {cs : List Char} (hcs : leadingName cs ∉ ["const", "let", "return"]) : WritesReturn [] cs
  | word {gap cs : List Char} (hgap : Blank gap) (hapart : gap ≠ [] ∨ leadingName cs = "") :
      WritesReturn ("return".toList ++ gap) cs

/-- What may stand after the final expression: spaces and comments, and perhaps a semicolon. -/
inductive WritesEnd : List Char → Prop
  | bare {last : List Char} (hlast : FinalBlank last) : WritesEnd last
  | semicolon {gap last : List Char} (hgap : Blank gap) (hlast : FinalBlank last) :
      WritesEnd (gap ++ ';' :: last)

/-- A script as written, and how many levels deep the characters nest. -/
inductive WritesScript : Script → Nat → List Char → Prop
  | mk {bindings : List Binding} {length : Nat} {body : Node} {depth inner : Nat}
      {first cs before ds last : List Char} (hfirst : Blank first)
      (hbindings : WritesBindings bindings depth cs) (hbefore : WritesReturn before ds)
      (h : Writes (.chain length body) inner ds) (hlast : WritesEnd last) :
      WritesScript ⟨bindings, body⟩ (max depth inner)
        (first ++ (cs ++ (before ++ (ds ++ last))))

end Script

end FluentSql
