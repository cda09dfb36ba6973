import Calculator.CommandLine.Call

/-!
# The program

Hands the arguments, the environment and standard input to `CommandLine.call`, and prints what comes
back.
-/

namespace Calculator

/-- The bytes that a stream still holds, after those read so far. -/
partial def readBytes (stream : IO.FS.Stream) (bytes : ByteArray) : IO ByteArray := do
  let more ← stream.read 65536
  if more.isEmpty then return bytes else readBytes stream (bytes ++ more)

end Calculator

/-- Runs one program call. -/
def main (arguments : List String) : IO UInt32 := do
  let environment : Calculator.CommandLine.Environment :=
    ⟨← IO.getEnv "CALCGRAPH_PRECISION", ← IO.getEnv "CALCGRAPH_FORMAT",
      ← IO.getEnv "CALCGRAPH_SAMPLES"⟩
  let bytes ← Calculator.readBytes (← IO.getStdin) .empty
  let outcome := Calculator.CommandLine.call environment arguments bytes.toList
  (← IO.getStdout).putStr outcome.stdout
  (← IO.getStderr).putStr outcome.stderr
  return outcome.exit.toUInt32
