import BlockScribe.Cli.Run
/-!
# The `cumin` program

Runs the command line in `IO`: files are the system's, standard input is read to its end, the
number of the main thread is the process's, and the filter of the log comes from the `RUST_LOG`
variable of the environment.

Source: `cumin-cli/src/main.rs`: `main`, and `logging.rs`: `init`.
-/

namespace BlockScribe.Cli

/-- The system error number of a failed operation. -/
def IoError.ofError : IO.Error → IoError
  | .alreadyExists _ code _ | .otherError code _ | .resourceBusy code _
  | .resourceVanished code _ | .unsupportedOperation code _ | .hardwareFault code _
  | .unsatisfiedConstraints code _ | .illegalOperation code _ | .protocolError code _
  | .timeExpired code _ | .interrupted _ code _ | .noFileOrDirectory _ code _
  | .invalidArgument _ code _ | .permissionDenied _ code _ | .resourceExhausted _ code _
  | .inappropriateType _ code _ | .noSuchThing _ code _ => ⟨code.toNat⟩
  | .unexpectedEof | .userError _ => ⟨5⟩

instance : Host IO where
  readFile path := do
    try return .ok (← IO.FS.readFile path)
    catch e => return .error (IoError.ofError e)
  writeFile path text := do
    try
      IO.FS.writeFile path text
      return .ok ()
    catch e => return .error (IoError.ofError e)
  readInput := do (← IO.getStdin).readToEnd
  print
    | .out, text => IO.print text
    | .err, text => IO.eprint text
  threadId := do
    try
      let stat ← IO.FS.readFile "/proc/self/stat"
      return (((stat.splitOn " ").headD "").toNat?).getD 0
    catch _ => return 0

end BlockScribe.Cli

/-- Runs the command line and exits with its status. -/
def main (args : List String) : IO UInt32 := do
  let status ← BlockScribe.Cli.run args (← IO.getEnv "RUST_LOG")
  return status.toUInt32
