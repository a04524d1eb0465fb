import Concord.Cli.Run

namespace Concord.Cli

def readText (path : String) : IO (Option String) := do
  try
    return some (← IO.FS.readFile path)
  catch _ =>
    return none

def terminal : Console IO where
  getLine := do
    (← IO.getStdout).flush
    (← IO.getStdin).getLine
  put := IO.print

partial def converse (parser : Parser) (showChart : Bool) (buffer : String) : IO UInt32 := do
  match ← turn terminal parser showChart buffer with
  | .ok (some later) => converse parser showChart later
  | .ok none => return 0
  | .error error =>
    IO.eprintln error.message
    return 101

end Concord.Cli

def main (arguments : List String) : IO UInt32 := do
  let program := (← IO.appPath).fileName.getD "kokparse"
  match ← Concord.Cli.start Concord.Cli.readText program arguments with
  | .settled outcome =>
    IO.print outcome.stdout
    IO.eprint outcome.stderr
    return outcome.code
  | .sentences parser showChart => Concord.Cli.converse parser showChart ""
