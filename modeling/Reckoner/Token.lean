/-
# Tokens

What the evaluator reads.  A `-` between operands and a `-` in front of one
are different tokens; which one a source text means is settled when it is
cut into tokens.

Tokens are read one at a time.  A cursor is the list of those that are still
to be read, the current one first.  It never moves past a `finish`, and a list
that has run out reads as `finish` too, so there is a current token at every
point.
-/
import Reckoner.Number.Decimal

namespace Reckoner

/-- A token of the calculator's language. -/
inductive Token where
  /-- A numeric literal. -/
  | number (value : Float)
  /-- The name of a variable, a function or a modifier. -/
  | name (text : String)
  | plus
  | minus
  | times
  | divide
  | modulo
  | shiftLeft
  | shiftRight
  | bitAnd
  | bitOr
  | bitXor
  /-- The complement `~` of the next primary. -/
  | complement
  /-- A `-` in front of a primary. -/
  | negate
  | power
  /-- A `!` after its operand. -/
  | factorial
  /-- A `#`, which marks the next primary as a literal. -/
  | literal
  | opening
  | closing
  | assign
  /-- The result `offset` places back, counted from the most recent one. -/
  | reference (offset : Nat)
  /-- The end of a statement: a semicolon or a line break. -/
  | separator
  /-- The end of the input. -/
  | finish
deriving DecidableEq, Repr

namespace Token

/-- Says whether a `-` after this token stands between operands. -/
def endsOperand : Token → Bool
  | number _ | name _ | closing | factorial | reference _ => true
  | _ => false

/-- Says whether this token ends a statement. -/
def endsStatement : Token → Bool
  | separator | finish => true
  | _ => false

/-- The token as error messages show it. -/
def describe : Token → String
  | number value =>
    let text := (Binary.ofFloat value).toText
    s!"number {text}"
  | name text => s!"name '{text}'"
  | plus => "'+'"
  | minus | negate => "'-'"
  | times => "'*'"
  | divide => "'/'"
  | modulo => "'%'"
  | shiftLeft => "'<<'"
  | shiftRight => "'>>'"
  | bitAnd => "'&'"
  | bitOr => "'|'"
  | bitXor => "'xor'"
  | complement => "'~'"
  | power => "'^'"
  | factorial => "'!'"
  | literal => "'#'"
  | opening => "'('"
  | closing => "')'"
  | assign => "'='"
  | reference offset => s!"'${offset}'"
  | separator => "end of statement"
  | finish => "end of input"

end Token

/-! ## Cursors -/

/-- The tokens not yet read; the first one is current. -/
abbrev Cursor := List Token

namespace Cursor

/-- A cursor at the start of `tokens`, which are closed by a `finish` if
they do not end in one. -/
def ofTokens (tokens : List Token) : Cursor :=
  if tokens.getLast? = some .finish then tokens else tokens ++ [.finish]

/-- The token to read next. -/
def current : Cursor → Token
  | [] => .finish
  | token :: _ => token

/-- Moves on by one token; at a `finish` it stays. -/
def advance : Cursor → Cursor
  | [] => []
  | .finish :: rest => .finish :: rest
  | _ :: rest => rest

theorem advance_suffix (s : Cursor) : s.advance <:+ s := by
  unfold advance
  split
  · exact List.suffix_rfl
  · exact List.suffix_rfl
  · exact List.suffix_cons _ _

end Cursor

end Reckoner
