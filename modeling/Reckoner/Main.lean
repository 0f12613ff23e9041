/-
# The program

Reads and writes the real streams; all decisions are those of
`Reckoner.CommandLine`.  Lines behind prompts are answered one at a time, so
that a person sees an answer before typing the next line.
-/
import Reckoner.CommandLine

namespace Reckoner

namespace CommandLine

/-- Writes both parts of a transcript. -/
def write (text : Transcript) : IO Unit := do
  let out ← IO.getStdout
  out.putStr text.out
  out.flush
  let err ← IO.getStderr
  err.putStr text.err
  err.flush

/-- Writes the last transcript of a run and gives its exit code. -/
def close (ending : Ending) : IO UInt32 := do
  write ending.transcript
  return ending.exit.toUInt32

/-- The bytes of the next line, with its line feed if there is one. -/
partial def readLineBytes (input : IO.FS.Stream) (line : ByteArray) :
    IO ByteArray := do
  let bytes ← input.read 1
  if bytes.isEmpty || bytes.data.contains 10 then return line ++ bytes
  else readLineBytes input (line ++ bytes)

/-- Reads and answers lines until the run is over. -/
partial def interact (input : IO.FS.Stream) (session : Session) :
    IO UInt32 := do
  write prompt
  let bytes ← readLineBytes input ByteArray.empty
  match answer session (streamLines bytes).head? with
  | .over ending => close ending
  | .goOn text next => do
    write text
    interact input next

/-- The bytes of the file to read, if it is given and can be read. -/
def fileBytes (options : Options) : IO (Option ByteArray) := do
  match options.file with
  | none => return none
  | some path =>
    try return some (← IO.FS.readBinFile path)
    catch _ => return none

end CommandLine

end Reckoner

open Reckoner CommandLine in
/-- Runs the program with its arguments. -/
def main (arguments : List String) : IO UInt32 := do
  match Options.ofArguments arguments with
  | .error stop => close stop.ending
  | .ok options =>
    if options.isInteractive then
      interact (← IO.getStdin) (.ofSettings options.settings)
    else
      let bytes ← fileBytes options
      close (runOptions options (fun _ => bytes) ByteArray.empty)
