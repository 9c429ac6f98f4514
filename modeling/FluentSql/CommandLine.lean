import FluentSql.Config
import FluentSql.Language
import FluentSql.Query.Script
import FluentSql.Statement.Check

/-!
# The command line

A run reads a script from a file or from standard input and prints its query. What it needs from
outside is handed to it, and what it prints is its result.
-/

namespace FluentSql

namespace CommandLine

/-- What is printed. -/
inductive Emit
  /-- SQL, on many lines unless the settings say otherwise. -/
  | sql
  /-- SQL on one line. -/
  | compact
  /-- The script in its regular form. -/
  | text
deriving DecidableEq

/-- The form of output with a name. -/
def Emit.ofName? (name : String) : Option Emit :=
  match name with
  | "sql" => some .sql
  | "compact" => some .compact
  | "text" => some .text
  | _ => none

/-- The options of a run, as far as they are given. -/
structure Options where
  /-- The file with the script. -/
  file : Option String := none
  /-- What is printed. -/
  emit : Option Emit := none
  /-- The SQL is checked. -/
  check : Bool := false
  /-- Spaces for each level. -/
  indent : Option Nat := none
  /-- More is logged. -/
  verbose : Bool := false
deriving DecidableEq

/-- What the arguments ask for. -/
inductive Request
  /-- A run. -/
  | run (options : Options)
  /-- The version. -/
  | version
  /-- The help text, in full or in brief. -/
  | help (long : Bool)
  /-- Nothing that makes sense. -/
  | usageError (message : String)
deriving DecidableEq

/-- The number of spaces that an argument gives: decimal digits, perhaps with a plus sign, below
`2 ^ 64`. -/
def parseIndent? (s : String) : Option Nat :=
  let digits := match s.toList with
    | '+' :: rest => rest
    | cs => cs
  let n := Numeral.digitsValue digits
  if !digits.isEmpty && digits.all Char.isDigit && n < UInt64.size then some n else none

/-- An argument that begins with a hyphen and is more than one. -/
def isOption (s : String) : Bool :=
  match s.toList with
  | '-' :: _ :: _ => true
  | _ => false

/-- Splits an argument at its first equals sign. -/
def splitValue (s : String) : String × Option String :=
  let cs := s.toList
  match cs.dropWhile (· != '=') with
  | _ :: value => (String.ofList (cs.takeWhile (· != '=')), some (String.ofList value))
  | [] => (s, none)

/-- Gives an option its value. -/
def setValue (o : Options) (name value : String) : Except Request Options :=
  if name = "--emit" then
    match o.emit, Emit.ofName? value with
    | none, some emit => .ok { o with emit := some emit }
    | some _, _ => .error (.usageError ("the argument '" ++ name ++ "' is given twice"))
    | _, none => .error (.usageError ("invalid value '" ++ value ++ "' for '" ++ name ++ "'"))
  else
    match o.indent, parseIndent? value with
    | none, some indent => .ok { o with indent := some indent }
    | some _, _ => .error (.usageError ("the argument '" ++ name ++ "' is given twice"))
    | _, none => .error (.usageError ("invalid value '" ++ value ++ "' for '" ++ name ++ "'"))

/-- Sets an option that has no value, or ends in what the option asks for. -/
def setFlag (o : Options) (name : String) : Except Request Options :=
  match name with
  | "--check" =>
    if o.check then .error (.usageError "the argument '--check' is given twice")
    else .ok { o with check := true }
  | "--verbose" =>
    if o.verbose then .error (.usageError "the argument '--verbose' is given twice")
    else .ok { o with verbose := true }
  | "--version" => .error .version
  | "--help" => .error (.help true)
  | _ => .error (.usageError ("unexpected argument '" ++ name ++ "'"))

/-- Sets the options that letters after one hyphen stand for. -/
def setLetters (o : Options) : List Char → Except Request Options
  | [] => .ok o
  | 'v' :: rest => do setLetters (← setFlag o "--verbose") rest
  | 'V' :: _ => .error .version
  | 'h' :: _ => .error (.help false)
  | c :: _ => .error (.usageError ("unexpected argument '-" ++ String.singleton c ++ "'"))

/-- Sets the file. -/
def setFile (o : Options) (name : String) : Except Request Options :=
  if name = "" then .error (.usageError "a value is required for '[FILE]'")
  else if o.file.isSome then .error (.usageError ("unexpected argument '" ++ name ++ "'"))
  else .ok { o with file := some name }

/-- The option takes a value. -/
def takesValue (name : String) : Bool :=
  name == "--emit" || name == "--indent"

/-- An option that needs a value has none. -/
def missingValue (name : String) : Request :=
  .usageError ("a value is required for '" ++ name ++ "'")

/-- Takes one argument. Besides the options there is the name of an option that waits for its value,
if the argument is one. -/
def takeArgument (o : Options) (argument : String) : Except Request (Options × Option String) :=
  if !isOption argument then do return (← setFile o argument, none)
  else if argument.toList.take 2 ≠ ['-', '-'] then do
    return (← setLetters o (argument.toList.drop 1), none)
  else
    match splitValue argument with
    | (name, some value) =>
      if takesValue name then do return (← setValue o name value, none)
      else .error (.usageError ("unexpected argument '" ++ argument ++ "'"))
    | (name, none) =>
      if takesValue name then .ok (o, some name) else do return (← setFlag o name, none)

/-- Goes through the arguments, where `waiting` is an option that waits for its value. After two
hyphens there are no more options. -/
def readArguments (o : Options) (waiting : Option String) : List String → Except Request Options
  | [] =>
    match waiting with
    | none => .ok o
    | some name => .error (missingValue name)
  | argument :: rest =>
    match waiting with
    | some name => do
      if isOption argument then .error (missingValue name)
      else readArguments (← setValue o name argument) none rest
    | none => do
      if argument = "--" then rest.foldlM setFile o
      else
        let (o, waiting) ← takeArgument o argument
        readArguments o waiting rest

/-- What the arguments ask for. -/
def Request.ofArguments (arguments : List String) : Request :=
  match readArguments {} none arguments with
  | .ok options => .run options
  | .error request => request

/-- What a run finds outside. -/
structure Environment where
  /-- The text on standard input. -/
  stdin : String
  /-- The text of the settings' file, if there is one. -/
  config : Option String
  /-- The text of a file, or why it cannot be read. -/
  fileText : String → Except String String
  /-- The parser that SQL is checked with. -/
  parseSql : SqlParser := .permissive

/-- What a run leaves behind. -/
structure Outcome where
  /-- The exit code. -/
  exitCode : Nat
  /-- The text on standard output. -/
  stdout : String
  /-- The text on standard error. -/
  stderr : String
deriving DecidableEq

/-- The name and the version of the program. -/
def versionText : String := "xql 0.1.0\n"

/-- Lines of text, each with its end. -/
def textOf (lines : List String) : String :=
  String.join (lines.map (· ++ "\n"))

/-- What the program is for and how it is called. -/
def usageLines : List String :=
  [ "Fluent, immutable relational query builder that compiles to SQL and serializes back to " ++
      "builder code",
    "",
    "Usage: xql [OPTIONS] [FILE]",
    "",
    "Arguments:" ]

/-- The help text in brief. -/
def briefHelp : String :=
  textOf <| usageLines ++ [
    "  [FILE]  File containing builder text (reads stdin when omitted)",
    "",
    "Options:",
    "      --emit <EMIT>      What to print [default: sql] [possible values: sql, compact, text]",
    "      --check            Also run the SQL syntax check on the result",
    "      --indent <INDENT>  Spaces per indentation level (overrides the config file)",
    "  -v, --verbose          Log debug output to stderr",
    "  -h, --help             Print help (see more with '--help')",
    "  -V, --version          Print version" ]

/-- The help text in full. -/
def longHelp : String :=
  textOf <| usageLines ++ [
    "  [FILE]",
    "          File containing builder text (reads stdin when omitted)",
    "",
    "Options:",
    "      --emit <EMIT>",
    "          What to print",
    "",
    "          Possible values:",
    "          - sql:     SQL, pretty-printed unless disabled in the config",
    "          - compact: Single-line SQL",
    "          - text:    Normalized builder text",
    "          ",
    "          [default: sql]",
    "",
    "      --check",
    "          Also run the SQL syntax check on the result",
    "",
    "      --indent <INDENT>",
    "          Spaces per indentation level (overrides the config file)",
    "",
    "  -v, --verbose",
    "          Log debug output to stderr",
    "",
    "  -h, --help",
    "          Print help (see a summary with '-h')",
    "",
    "  -V, --version",
    "          Print version" ]

/-- The characters of a cause, with the lines after its first moved four spaces in. -/
def indentLines (cs : List Char) : List Char :=
  cs.flatMap fun c => if c = '\n' then ['\n', ' ', ' ', ' ', ' '] else [c]

/-- The outcome of a run that fails: what failed, and why. -/
def failure (what cause : String) : Outcome where
  exitCode := 1
  stdout := ""
  stderr := "Error: " ++ what ++ "\n\nCaused by:\n    " ++
    String.ofList (indentLines cause.toList) ++ "\n"

/-- The extension of a file name, without the point. -/
def extension? (path : String) : Option String :=
  let name := (path.toList.reverse.takeWhile (· != '/')).reverse
  let after := (name.reverse.takeWhile (· != '.')).reverse
  if after.length + 1 < name.length then some (String.ofList after) else none

/-- The language of a file, or of standard input. -/
def languageFor? (registry : Registry) (file : Option String) : Option Language :=
  ((file.bind extension?).bind registry.forFile?).or registry.default?

/-- The text and the name of what a run reads, or why it cannot be read. -/
def input (env : Environment) (file : Option String) : Except Outcome (String × String) :=
  match file with
  | none => .ok (env.stdin, "<stdin>")
  | some path =>
    match env.fileText path with
    | .ok text => .ok (text, path)
    | .error cause => .error (failure ("failed to read " ++ path) cause)

/-- The output for a query. -/
def output (o : Options) (config : Config) (q : Query) : String :=
  let indent := o.indent.getD config.indent
  match o.emit.getD .sql with
  | .sql => if config.pretty then q.toSql indent else q.toCompactSql
  | .compact => q.toCompactSql
  | .text => q.toScript indent

/-- The query that a text in a language stands for, checked if the options ask for it. -/
def compile (env : Environment) (o : Options) (language : Language) (text name : String) :
    Except Outcome Query := do
  let q ← (language.compile text).mapError fun e =>
    failure ("failed to evaluate " ++ name) e.message
  if o.check then
    let defaults : Config := {}
    (q.check env.parseSql defaults.indent).mapError fun e =>
      failure "generated SQL failed the syntax check" e.message
  return q

/-- A query is compiled if the text stands for it and, where it is checked, the parser finds one
statement in either form of its SQL. -/
theorem compile_eq_ok {env : Environment} {o : Options} {language : Language} {text name : String}
    {q : Query} :
    compile env o language text name = .ok q ↔
      language.compile text = .ok q ∧ (o.check = true →
        env.parseSql q.toCompactSql = .ok 1 ∧
          env.parseSql (q.toSql ({} : Config).indent) = .ok 1) := by
  rw [compile, Except.bind_eq_ok]
  constructor
  · rintro ⟨read, hread, h⟩
    rw [Except.mapError_eq_ok] at hread
    split at h
    · next hcheck =>
      obtain ⟨_, hpasses, h⟩ := Except.bind_eq_ok.mp h
      obtain rfl := Except.ok.inj h
      exact ⟨hread, fun _ => Query.check_eq_ok.mp (Except.mapError_eq_ok.mp hpasses)⟩
    · next hcheck =>
      obtain rfl := Except.ok.inj h
      exact ⟨hread, fun hchecked => absurd hchecked hcheck⟩
  · rintro ⟨hread, hpasses⟩
    refine ⟨q, Except.mapError_eq_ok.mpr hread, ?_⟩
    split
    · next hcheck =>
      have hquery := Query.check_eq_ok (u := ()) |>.mpr (hpasses hcheck)
      exact Except.bind_eq_ok.mpr ⟨(), Except.mapError_eq_ok.mpr hquery, rfl⟩
    · rfl

/-- A run with options. Settings that cannot be read are left at their defaults. -/
def runOptions (env : Environment) (o : Options) : Outcome :=
  let config := (Config.load? env.config).getD {}
  let result : Except Outcome Outcome := do
    let (text, name) ← input env o.file
    match languageFor? .standard o.file with
    | none => throw ⟨1, "", "Error: no input language adapter registered\n"⟩
    | some language =>
      let q ← compile env o language text name
      return ⟨0, output o config q ++ "\n", ""⟩
  match result with
  | .ok outcome => outcome
  | .error outcome => outcome

/-- A run with arguments. -/
def run (env : Environment) (arguments : List String) : Outcome :=
  match Request.ofArguments arguments with
  | .run options => runOptions env options
  | .version => ⟨0, versionText, ""⟩
  | .help long => ⟨0, if long then longHelp else briefHelp, ""⟩
  | .usageError message =>
    ⟨2, "", "error: " ++ message ++ "\n\nFor more information, try '--help'.\n"⟩

end CommandLine

end FluentSql
