import LanguageClient.Simulation.TerminalRun

/-!
# The command line program

It reads its arguments, its environment and its input, runs the client in virtual time with the
program that the arguments name as its server, and writes what the terminal shows. No log is kept.
-/

open LanguageClient

/-- The bytes of a stream up to its end. -/
partial def readToEnd (stream : IO.FS.Stream) (read : List UInt8) : IO (List UInt8) := do
  let chunk ← stream.read 65536
  if chunk.isEmpty then return read else readToEnd stream (read ++ chunk.toList)

/-- The places of the user's files. -/
def userEnvironment : IO Environment := do
  return {
    home := (← IO.getEnv "HOME").getD ""
    configHome? := ← IO.getEnv "XDG_CONFIG_HOME"
    dataHome? := ← IO.getEnv "XDG_DATA_HOME" }

/-- Runs the program and tells its exit code. -/
def main (args : List String) : IO UInt32 := do
  match Terminal.startup args (← userEnvironment) true with
  | .ended code output =>
      IO.print output
      return UInt32.ofNat code
  | .running config =>
      let input ← readToEnd (← IO.getStdin) []
      IO.print (Rehearsal.output config (Program.script config.server) input)
      return UInt32.ofNat (Terminal.exitCode input)
