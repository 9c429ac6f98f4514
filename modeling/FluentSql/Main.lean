import FluentSql.CommandLine

/-!
# The program

Reads what a run needs, and prints what it leaves behind.
-/

namespace FluentSql

namespace CommandLine

/-- Why a file cannot be read, in words. -/
def faultText : IO.Error → String
  | .noFileOrDirectory .. => "No such file or directory (os error 2)"
  | .permissionDenied .. => "Permission denied (os error 13)"
  | .inappropriateType _ code _ =>
    if code = 21 then "Is a directory (os error 21)" else "Not a directory (os error 20)"
  | fault => fault.toString

/-- The text of a file, or why it cannot be read. -/
def readText (path : String) : IO (Except String String) := do
  try
    return .ok (← IO.FS.readFile path)
  catch fault =>
    return .error (faultText fault)

/-- The text of the settings' file, if there is one. -/
def readConfig : IO (Option String) := do
  let home ← IO.getEnv "HOME"
  let folder := (← IO.getEnv "XDG_CONFIG_HOME").getD (home.getD "." ++ "/.config")
  return (← readText (folder ++ "/xql/config.toml")).toOption

/-- The rest of a stream. -/
partial def readRest (stream : IO.FS.Stream) (before : String) : IO String := do
  let line ← stream.getLine
  if line.isEmpty then return before else readRest stream (before ++ line)

/-- What a run with options finds outside. There is no parser of SQL but the permissive one. -/
def environment (o : Options) : IO Environment := do
  let config ← readConfig
  match o.file with
  | none => return ⟨← readRest (← IO.getStdin) "", config, fun _ => .error "", .permissive⟩
  | some path =>
    let content ← readText path
    return ⟨"", config, fun _ => content, .permissive⟩

end CommandLine

end FluentSql

open FluentSql.CommandLine in
/-- Runs the program. -/
def main (arguments : List String) : IO UInt32 := do
  let env ← match Request.ofArguments arguments with
    | .run options => environment options
    | _ => pure ⟨"", none, fun _ => .error "", .permissive⟩
  let outcome := run env arguments
  (← IO.getStdout).putStr outcome.stdout
  (← IO.getStderr).putStr outcome.stderr
  return outcome.exitCode.toUInt32
