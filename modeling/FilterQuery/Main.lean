import FilterQuery.CommandLine.Run

/-!
# The program

Connects a run of the command line with the world: the arguments, the environment variable for the
number grammar, standard input, the two output channels and the exit code. Standard input is read
only when the query has to come from there.
-/

open FilterQuery

/-- Everything that is left of a stream, after what has been read so far. -/
partial def FilterQuery.CommandLine.readAll (stream : IO.FS.Stream) (sofar : ByteArray) :
    IO ByteArray := do
  let bytes ← stream.read 65536
  if bytes.isEmpty then return sofar else readAll stream (sofar ++ bytes)

def main (arguments : List String) : IO UInt32 := do
  let environment := (← IO.getEnv "PQL_NUMERIC_GRAMMAR").map String.toList
  let outcome ←
    match CommandLine.request (arguments.map String.toList) environment with
    | .ok r => do
      let stdin ←
        if r.query.isNone then CommandLine.readAll (← IO.getStdin) .empty else pure .empty
      pure (r.run stdin)
    | .error stop => pure stop.outcome
  (← IO.getStdout).putStr (String.ofList outcome.stdout)
  (← IO.getStderr).putStr (String.ofList outcome.stderr)
  return outcome.exitCode.toUInt32
