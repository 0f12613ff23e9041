/-
# The command line

A run of the program is a function of its arguments, of the files it can
read and of its standard input.  Lines come from a file, from the arguments,
or, with neither, from standard input behind prompts.  Whichever it is, lines
run until one asks for the end, values go to standard output and messages to
standard error, and the exit code tells whether anything failed.

A run that its arguments end, by a misuse or by asking for help or for the
version, is known by its exit code and by the stream that it writes to.  What
it writes there is this library's own wording, the name of the program
included, and stands for no other page or message.
-/
import Reckoner.CommandLine.Options

namespace Reckoner

namespace CommandLine

/-! ## Lines of input

A line ends at a line feed; a carriage return right before it belongs to the
break.  What follows the last line feed is a line too, unless it is empty,
and keeps its carriage returns. -/

/-- How the lines of an input break: which elements are line feeds and which
are carriage returns. -/
structure LineBreak (α : Type) where
  isFeed : α → Bool
  isReturn : α → Bool

namespace LineBreak

variable {α : Type} (lineBreak : LineBreak α)

/-- A line whose elements come in reverse order, without the carriage return
at its end. -/
def complete : List α → List α
  | [] => []
  | x :: rest => (if lineBreak.isReturn x then rest else x :: rest).reverse

/-- The lines of an input; `line` holds the current one in reverse order. -/
def cut (line : List α) : List α → List (List α)
  | [] => if line.isEmpty then [] else [line.reverse]
  | x :: rest =>
    if lineBreak.isFeed x then lineBreak.complete line :: cut [] rest
    else cut (x :: line) rest

/-- The line breaks of a text. -/
def ofText : LineBreak Char := ⟨(· == '\n'), (· == '\r')⟩

/-- The line breaks of a stream of bytes. -/
def ofBytes : LineBreak UInt8 := ⟨(· == 10), (· == 13)⟩

end LineBreak

/-- The lines of a text. -/
def textLines (text : String) : List String :=
  (LineBreak.ofText.cut [] text.toList).map String.ofList

/-- The lines of an input stream; `none` stands for one that is not UTF-8.
A stream that is no text as a whole is cut as bytes. -/
def streamLines (bytes : ByteArray) : List (Option String) :=
  match String.fromUTF8? bytes with
  | some text => (textLines text).map some
  | none => (LineBreak.ofBytes.cut [] bytes.toList).map fun line =>
      String.fromUTF8? ⟨line.toArray⟩

/-! ## Transcripts -/

/-- What is written to the two output streams. -/
structure Transcript where
  out : String := ""
  err : String := ""
deriving DecidableEq, Repr

/-- One transcript behind another. -/
def Transcript.append (first second : Transcript) : Transcript :=
  ⟨first.out ++ second.out, first.err ++ second.err⟩

instance : Append Transcript := ⟨Transcript.append⟩

/-- Text with a line break behind it. -/
def asLine (text : String) : String := text ++ "\n"

/-- What is written for one outcome. -/
def outcomeTranscript (settings : Settings) : Outcome → Transcript
  | .value v => { out := asLine (settings.format v) }
  | .silent => {}
  | .failed error => { err := asLine error.message }

/-- What is written for the outcomes of a line. -/
def report (settings : Settings) (outcomes : List Outcome) : Transcript :=
  outcomes.foldl (fun text outcome => text ++ outcomeTranscript settings outcome)
    {}

/-- The end of a run: its exit code and what it wrote last. -/
structure Ending where
  exit : Nat
  transcript : Transcript
deriving DecidableEq, Repr

/-- The exit code of a session that is over. -/
def exitCode (session : Session) : Nat :=
  if session.failures = 0 then 0 else 1

/-- How a run goes on after a line. -/
inductive Turn where
  /-- `text` is written, and `session` takes the next line. -/
  | goOn (text : Transcript) (session : Session)
  | over (ending : Ending)

/-- Runs a line; the run is over if the line asks for the end. -/
def turn (session : Session) (line : String) : Turn :=
  let (outcomes, next) := session.runLine line
  let text := report session.settings outcomes
  if next.finished then .over ⟨exitCode next, text⟩ else .goOn text next

/-- Runs given lines behind what is already written. -/
def runLines (written : Transcript) (session : Session) :
    List String → Ending
  | [] => ⟨exitCode session, written⟩
  | line :: rest =>
    match turn session line with
    | .over ending => ⟨ending.exit, written ++ ending.transcript⟩
    | .goOn text next => runLines (written ++ text) next rest

/-! ## Reading behind prompts -/

/-- The prompt before each line that is read. -/
def prompt : Transcript := { out := "> " }

/-- What is written if a line of standard input is not UTF-8. -/
def unreadableLine : Transcript :=
  { err := asLine "stream did not contain valid UTF-8" }

/-- Answers what a prompt has brought: a line, a line that is not UTF-8 and
ends the run, or the end of the input. -/
def answer (session : Session) : Option (Option String) → Turn
  | some (some line) => turn session line
  | some none => .over ⟨1, unreadableLine⟩
  | none => .over ⟨exitCode session, {}⟩

/-- Runs the lines of standard input, a prompt before each attempt to read
one. -/
def converse (written : Transcript) (session : Session) :
    List (Option String) → Ending
  | [] => ⟨exitCode session, written ++ prompt⟩
  | line :: rest =>
    match answer session (some line) with
    | .over ending => ⟨ending.exit, written ++ prompt ++ ending.transcript⟩
    | .goOn text next => converse (written ++ prompt ++ text) next rest

/-! ## Whole runs -/

/-- What is written if a file cannot be read as text. -/
def unreadableFile (path : String) : Transcript :=
  let quoted := s!"'{path}'"
  { err := asLine
      s!"Failed to read the input file {quoted}. Perhaps this file does not exist?" }

/-- The help page, in this library's own wording. -/
def helpPage : String :=
  "An interactive calculator with bitwise integer operators, variables and a
history of results.

Usage: reckoner [OPTIONS] [EXPRESSIONS]...

Options:
  -f, --file <FILE>            Read lines from this file
      --history <HISTORY>      Number of results kept [default: 64]
  -p, --precision <PRECISION>  Decimal places of results
  -r, --radix <RADIX>          Base of results: decimal, hex, octal or binary
      --preserve-fractions     Keep fractions where no bitwise operator applies
  -v, --verbose                Accepted; nothing more is written
  -h, --help                   Print this page
  -V, --version                Print the version"

/-- The end of a run that its arguments end.  The exit code and the stream
are settled; the texts are this library's own wording. -/
def Stop.ending : Stop → Ending
  | .misuse => ⟨2, { err := asLine "Usage: reckoner [OPTIONS] [EXPRESSIONS]..." }⟩
  | .help => ⟨0, { out := asLine helpPage }⟩
  | .version => ⟨0, { out := asLine "reckoner 0.1.0" }⟩

/-- Says whether lines are read behind prompts. -/
def Options.isInteractive (options : Options) : Bool :=
  options.file.isNone && options.lines.isEmpty

/-- A run with given options. -/
def runOptions (options : Options) (readFile : String → Option ByteArray)
    (input : ByteArray) : Ending :=
  let session := Session.ofSettings options.settings
  match options.file with
  | some path =>
    match (readFile path).bind String.fromUTF8? with
    | some text => runLines {} session (textLines text)
    | none => ⟨1, unreadableFile path⟩
  | none =>
    if options.lines.isEmpty then converse {} session (streamLines input)
    else runLines {} session options.lines

/-- A run of the program. -/
def run (arguments : List String) (readFile : String → Option ByteArray)
    (input : ByteArray) : Ending :=
  match Options.ofArguments arguments with
  | .error stop => stop.ending
  | .ok options => runOptions options readFile input

end CommandLine

end Reckoner
