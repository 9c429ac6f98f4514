import FluentSql.Script.Eval

/-!
# Input languages

An input language turns text into a query. A registry finds one by its name or by the extension of a
file.
-/

namespace FluentSql

/-- A language in which queries are written. -/
structure Language where
  /-- The name shown to users. -/
  name : String
  /-- The extensions of its files, without the point. -/
  extensions : List String
  /-- The query that a text stands for. -/
  compile : String → Except Error Query

namespace Language

/-- The language of builder scripts. -/
def script : Language where
  name := "XQL builder"
  extensions := ["xql", "js"]
  compile := Query.ofScript

end Language

/-- Languages in the order in which they were registered. -/
structure Registry where
  /-- The languages. -/
  languages : List Language

namespace Registry

/-- The registry of builder scripts alone. -/
def standard : Registry :=
  ⟨[.script]⟩

/-- The registry with one more language. -/
def register (r : Registry) (language : Language) : Registry :=
  ⟨r.languages ++ [language]⟩

/-- The language used when nothing more is known. -/
def default? (r : Registry) : Option Language :=
  r.languages.head?

/-- The first language with a name, in any letter case. -/
def named? (r : Registry) (name : String) : Option Language :=
  r.languages.find? fun language => Text.equalIgnoringCase language.name name

/-- The first language with a file extension, in any letter case. -/
def forFile? (r : Registry) (extension : String) : Option Language :=
  r.languages.find? fun language =>
    language.extensions.any fun known => Text.equalIgnoringCase known extension

/-- The names of all languages. -/
def names (r : Registry) : List String :=
  r.languages.map (·.name)

end Registry

end FluentSql
