/-
# Sessions

A session runs lines.  A line is cut into tokens and its statements are
evaluated in turn, each one adding its value to the history.  The first
failure ends the line, and what was done before it stays done.  Requests of
modifiers take effect when the line is over, failed or not; a line that
cannot be cut into tokens does nothing but count as one failure.

Settings are what a session is told at its start: how many results to keep,
how to treat fractions, and how to print.  A printed base other than ten shows
the word of a value, read as unsigned; infinities and NaN always print as
text.
-/
import Reckoner.Evaluation
import Reckoner.Source

namespace Reckoner

/-! ## Settings -/

/-- The base in which results are printed. -/
inductive Radix where
  | decimal
  | hex
  | octal
  | binary
deriving DecidableEq, Repr

/-- The settings of a session. -/
structure Settings where
  /-- The number of results that references can reach. -/
  capacity : Nat := 64
  /-- The number of decimal places; the shortest form if there is none. -/
  precision : Option Nat := none
  radix : Radix := .decimal
  policy : FractionPolicy := .truncate
deriving DecidableEq, Repr

namespace Settings

/-- A number in a base behind a mark, as in `0xff`. -/
def marked (mark : List Char) (base n : Nat) : String :=
  String.ofList (mark ++ Nat.toDigits base n)

/-- The text of a finite value in the chosen base. -/
def finiteText (settings : Settings) (value : Float) : String :=
  let word := (Word.truncate value).unsigned
  match settings.radix with
  | .decimal =>
    match settings.precision with
    | some places => (Binary.ofFloat value).toFixed places
    | none => (Binary.ofFloat value).toText
  | .hex => marked ['0', 'x'] 16 word
  | .octal => marked ['0', 'o'] 8 word
  | .binary => marked ['0', 'b'] 2 word

/-- The text of a result. -/
def format (settings : Settings) (value : Float) : String :=
  match Binary.ofFloat value with
  | .finite .. => settings.finiteText value
  | number => number.toText

end Settings

/-! ## Running lines -/

/-- What became of a statement. -/
inductive Outcome where
  /-- A value to show. -/
  | value (v : Float)
  /-- Success with nothing to show. -/
  | silent
  | failed (error : Error)
deriving DecidableEq, Repr

/-- Says whether a statement failed. -/
def Outcome.isFailed : Outcome → Bool
  | failed _ => true
  | _ => false

/-- A calculator in use. -/
structure Session where
  context : Context
  settings : Settings
  /-- Whether the end of the session was asked for. -/
  finished : Bool
  /-- The number of failed statements and unreadable lines. -/
  failures : Nat

namespace Session

/-- A fresh session. -/
def ofSettings (settings : Settings) : Session where
  context :=
    { Context.withHistory (.ofCapacity settings.capacity) with
      policy := settings.policy }
  settings := settings
  finished := false
  failures := 0

/-- The text of a result. -/
def format (session : Session) (value : Float) : String :=
  session.settings.format value

/-- Counts a failure. -/
def fail (session : Session) : Session :=
  { session with failures := session.failures + 1 }

/-- The outcome of an evaluated statement and the context after it.  Tokens
left over before the end of the statement are an error; a success adds its
value to the history. -/
def conclude (evaluation : Evaluation) : Outcome × Context :=
  let context := evaluation.context
  match evaluation.result with
  | .error error => (.failed (.evaluation error), context)
  | .ok v =>
    let found := evaluation.rest.current
    if found.endsStatement then
      (if evaluation.silent then .silent else .value v,
        { context with history := context.history.push v })
    else (.failed (.evaluation (.trailingToken found)), context)

/-- A statement that has been run. -/
structure Ran where
  outcome : Outcome
  session : Session
  /-- The tokens left to read. -/
  rest : Cursor

/-- Runs the statement at the current token. -/
def runStatement (session : Session) (s : Cursor) : Ran :=
  let evaluation := session.context.evaluate .positioned s
  let (outcome, context) := conclude evaluation
  ⟨outcome, { session with context }, evaluation.rest⟩

/-- A statement that did not fail stopped at the end of a statement. -/
theorem conclude_endsStatement {evaluation : Evaluation}
    (h : (conclude evaluation).1.isFailed = false) :
    evaluation.rest.current.endsStatement = true := by
  simp only [conclude] at h
  split at h
  · simp [Outcome.isFailed] at h
  · split at h
    · assumption
    · simp [Outcome.isFailed] at h

/-- A statement that begins at a token of its own and does not fail leaves
fewer tokens. -/
theorem runStatement_rest_lt {session : Session} {token : Token}
    {tail : Cursor} (begins : token.endsStatement = false)
    (h : (session.runStatement (token :: tail)).outcome.isFailed = false) :
    (session.runStatement (token :: tail)).rest.length
      < (token :: tail).length := by
  have ends := conclude_endsStatement h
  have suffix := session.context.evaluate_rest_suffix .positioned
    (token :: tail)
  rcases Nat.lt_or_eq_of_le suffix.length_le with lt | eq
  · exact lt
  · rw [suffix.eq_of_length eq] at ends
    simp [Cursor.current, begins] at ends

/-- Runs the statements of a line up to the first failure. -/
def runStatements (session : Session) (s : Cursor) :
    List Outcome × Session :=
  match s with
  | [] => ([], session)
  | token :: tail =>
    if token = .finish then ([], session)
    else if token = .separator then session.runStatements tail
    else
      let ran := session.runStatement (token :: tail)
      if ran.outcome.isFailed then ([ran.outcome], ran.session.fail)
      else
        let (outcomes, last) := ran.session.runStatements ran.rest
        (ran.outcome :: outcomes, last)
termination_by s.length
decreasing_by
  · exact Nat.lt_succ_self _
  · rename_i notFinish notSeparator succeeded
    exact runStatement_rest_lt
      (by cases token <;> simp_all [Token.endsStatement])
      (by simpa using succeeded)

/-- Acts on the requests that have come up. -/
def applyRequests (session : Session) : Session :=
  let requests := session.context.requests
  let context := { session.context with requests := .none }
  { session with
    context := if requests.clear then context.reset else context
    finished := session.finished || requests.quit }

/-- Runs a line of source text. -/
def runLine (session : Session) (line : String) : List Outcome × Session :=
  match tokenize line with
  | .error cause => ([.failed (.lexical cause)], session.fail)
  | .ok tokens =>
    let (outcomes, session) := session.runStatements tokens
    (outcomes, session.applyRequests)

end Session

/-- Puts the last value of a list of outcomes after an earlier one, or gives
the first error. -/
def lastValue (earlier : Option Float) :
    List Outcome → Except Error (Option Float)
  | [] => .ok earlier
  | .value v :: rest => lastValue (some v) rest
  | .silent :: rest => lastValue earlier rest
  | .failed error :: _ => .error error

/-- Evaluates a source text in a fresh session: its last shown value, or the
first error. -/
def calculate (source : String) : Except Error (Option Float) :=
  lastValue none ((Session.ofSettings {}).runLine source).1

end Reckoner
