import PegEngine.CommandLine

/-!
Contract: the executable around `CommandLine.run`. It reads standard input, writes both channels
and exits with the code of the run.
-/

open PegEngine

partial def readToEnd (stream : IO.FS.Stream) (soFar : ByteArray) : IO ByteArray := do
  let chunk ← stream.read 65536
  if chunk.isEmpty then return soFar else readToEnd stream (soFar ++ chunk)

def main (arguments : List String) : IO UInt32 := do
  let stdin ←
    match CommandLine.Arguments.parse arguments with
    | .ok (.listTokens _) => String.fromUTF8? <$> (do readToEnd (← IO.getStdin) ByteArray.empty)
    | _ => pure (some "")
  let output :=
    match stdin with
    | some stdin => CommandLine.run arguments stdin
    | none => .fail "Failed to read stdin\n\nCaused by:\n    stream did not contain valid UTF-8"
  (← IO.getStdout).putStr output.stdout
  (← IO.getStderr).putStr output.stderr
  return UInt32.ofNat output.code
