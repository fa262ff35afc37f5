import LineBasic.Limits

/-! # The command line: reads the file, runs the command on it and writes what it logs -/
namespace LineBasic.Main
set_option autoImplicit false

def failureOf : IO.Error → Failure
  | error@(.noFileOrDirectory ..) => .error (toString error) (some Failure.noSuchFile)
  | error => .error (toString error) (some .other)

def readFile (path : String) : IO (Except Failure (List UInt8)) := do
  try
    let content ← IO.FS.readBinFile path
    return .ok content.toList
  catch error => return .error (failureOf error)

def write : Entry → IO Unit
  | .log text => IO.println text
  | .error text => IO.eprintln text

def fail (message : String) : IO UInt32 := do
  IO.eprintln message
  return 1

def tokenize (words : List String) : IO UInt32 := do
  match Options.parse words with
  | .error error => fail error.message
  | .ok options =>
    let content ← readFile options.input
    let execution := Command.execute options fun _ => content
    execution.entries.forM write
    match execution.exitCode with
    | .error error => fail error.message
    | .ok code => return UInt32.ofNat code

end LineBasic.Main

def main (words : List String) : IO UInt32 :=
  match words with
  | "tokenize" :: rest => LineBasic.Main.tokenize rest
  | _ => LineBasic.Main.fail "usage: tokenize FILE [--format text|json] [--lenient] [--fail-fast]"
