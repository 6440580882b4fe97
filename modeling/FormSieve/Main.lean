import FormSieve.Cli.Run

/-!
# The program

Reads the command line, the environment, the configuration file and the input, has the library
decide, and writes what comes of it. The server is made ready here, but it does not listen.
-/

namespace FormSieve.Cli

/-- How the program is called. -/
def usageText : String :=
  "usage: serve [--config <path>] [--port <number>]\n" ++
    "       filter --filters <json> [--limit <number>]"

/-- The reason of a failed access to a file, with the number that the system has for it. -/
def reason (e : IO.Error) : String :=
  match e with
  | .noFileOrDirectory _ _ _ => "No such file or directory (os error 2)"
  | .permissionDenied _ _ _ => "Permission denied (os error 13)"
  | .inappropriateType _ _ _ => "Is a directory (os error 21)"
  | e => e.toString

/-- The content of a file, or why it cannot be read. -/
def contentOf (path : String) : IO (Except String Bytes) := do
  try return .ok (← IO.FS.readBinFile path).data.toList
  catch e => return .error (reason e)

/-- Why the server that has been made ready does not listen. -/
def noListening : String := "Function not implemented (os error 38)"

def runServe (config : Option String) (service : Option UInt16) : IO UInt32 := do
  let file ← config.mapM fun path => do return (path, ← contentOf path)
  match prepare file service (← IO.getEnv baseVariable) with
  | .error (.fault fault) =>
    IO.eprintln fault.display
    return 1
  | .error (.broken fault) =>
    IO.eprintln fault.message
    return 101
  | .ok ready =>
    IO.print (written .output [startingLine ready.address])
    IO.eprintln (Fault.notListening noListening).display
    return 1

def runFilter (filters : String) (limit : Option UInt64) : IO UInt32 := do
  let input ← (← IO.getStdin).readBinToEnd
  let ended := ending filters limit input.data.toList
  IO.print ended.output
  IO.eprint ended.diagnostics
  return ended.exitCode

end FormSieve.Cli

open FormSieve.Cli in
def main (arguments : List String) : IO UInt32 := do
  match readArguments arguments with
  | .error usage =>
    if usage.exitCode = 0 then IO.println usageText else IO.eprintln usageText
    return UInt32.ofNat usage.exitCode
  | .ok (.serve config service) => runServe config service
  | .ok (.filter filters limit) => runFilter filters limit
