/-
# Errors

The causes for which a line or an expression is given up, and their
messages.  A cause carries the token, name or offset at fault; wording is
found here only.
-/
import Reckoner.Token

namespace Reckoner

/-- Why a text cannot be cut into tokens.  Columns count bytes from one. -/
inductive LexicalError where
  /-- A character that starts no lexeme. -/
  | unexpectedCharacter (text : String) (column : Nat)
  /-- A literal in another base or a history offset of 64 bits or more. -/
  | literalTooLarge (text : String) (column : Nat)
deriving DecidableEq, Repr

/-- Why the evaluation of an expression stopped. -/
inductive EvalError where
  | divideByZero
  | moduloByZero
  /-- A token that stands where `)` was expected. -/
  | unterminatedParenthesis (found : Token)
  /-- A name that is no function, no modifier and no assigned variable. -/
  | undefinedName (name : String)
  /-- An offset past the `length` results that are stored. -/
  | historyOutOfRange (offset length : Nat)
  /-- A token that starts no primary. -/
  | unexpectedToken (found : Token)
  /-- The first token left over after a whole expression. -/
  | trailingToken (found : Token)
deriving DecidableEq, Repr

/-- Why a statement failed. -/
inductive Error where
  | lexical (cause : LexicalError)
  | evaluation (cause : EvalError)
deriving DecidableEq, Repr

/-- The message of a lexical error. -/
def LexicalError.message : LexicalError → String
  | .unexpectedCharacter text column =>
    s!"Error at column {column}: Unexpected input '{text}'."
  | .literalTooLarge text column =>
    s!"Error at column {column}: Literal '{text}' is too large."

/-- The message of an evaluation error. -/
def EvalError.message : EvalError → String
  | .divideByZero => "Error: Divide by zero."
  | .moduloByZero => "Error: Modulo by zero."
  | .unterminatedParenthesis token =>
    let found := token.describe
    s!"Error: Expected closing parenthesis ')' but found {found}."
  | .undefinedName name => s!"Error: Unknown variable '{name}'."
  | .historyOutOfRange offset length =>
    s!"Error: History offset {offset} looks past the {length} stored result(s)."
  | .unexpectedToken token =>
    let found := token.describe
    s!"Error: Primary expected, found {found}."
  | .trailingToken token =>
    let found := token.describe
    s!"Error: Unexpected {found} after expression."

/-- The message of an error. -/
def Error.message : Error → String
  | .lexical cause => cause.message
  | .evaluation cause => cause.message

end Reckoner
