/-
# Source text as tokens

A source text is cut into lexemes from the left, and the lexemes become
tokens.  A lexeme is a piece of source text that belongs together: a literal,
a name, an operator, a comment or a run of blanks.  At each place of the text
the longest one counts, so `0x1f` is one literal, `0x` is the literal `0`
before the name `x`, and `1e+` is `1`, the name `e` and a plus.

`Lexeme.longest` gives, for a first character and the text behind it, the kind
of that lexeme and how many further characters it takes.  `Lexeme.read` gives
what a lexeme of a kind contributes to the token list.  Cutting stops at the
first place where no lexeme begins or where a literal is too large.  Only the
last step looks back: a dash that follows an operand is a minus, any other
negates.
-/
import Reckoner.Error

namespace Reckoner

namespace Lexeme

/-- The kinds of lexeme. -/
inductive Kind where
  /-- Digits with an optional fraction and exponent. -/
  | decimal
  /-- A literal in base 16, 8 or 2 behind its two-character mark. -/
  | radix (base : Nat)
  /-- A `$` with optional digits. -/
  | reference
  /-- A name or the operator `xor`. -/
  | word
  /-- A comment or blanks, which mean nothing. -/
  | skipped
  /-- A `-`, whose meaning hangs on the token before it. -/
  | dash
  /-- An operator, a bracket or a separator with one meaning. -/
  | fixed (token : Token)
deriving DecidableEq, Repr

/-! ## Character classes -/

/-- A digit of base ten. -/
def isDigit (c : Char) : Bool := Digits.isDigit 10 c

/-- A character that begins a name: an ASCII letter or an underscore. -/
def isLetter (c : Char) : Bool := c.isAlpha || c == '_'

/-- A character that continues a name. -/
def isNameChar (c : Char) : Bool := isLetter c || isDigit c

/-- A character that parts lexemes and means nothing itself: a space, a
tab, a carriage return or a form feed. -/
def isBlank (c : Char) : Bool :=
  c == ' ' || c == '\t' || c == '\r' || c == '\x0c'

/-- A character of a comment, which ends before a line feed or a carriage
return. -/
def isCommentChar (c : Char) : Bool := c != '\n' && c != '\r'

/-- The base that the character behind a leading `0` announces. -/
def base? : Char → Option Nat
  | 'x' | 'X' => some 16
  | 'o' | 'O' => some 8
  | 'b' | 'B' => some 2
  | _ => none

/-! ## Extents -/

/-- The number of leading characters of the class `p`. -/
def run (p : Char → Bool) (cs : List Char) : Nat := (cs.takeWhile p).length

/-- The length of a run of digits behind `lead` further characters; without
a digit nothing counts. -/
def digitsBehind (lead : Nat) (cs : List Char) : Nat :=
  let digits := run isDigit cs
  if digits = 0 then 0 else lead + digits

/-- The length of the fraction at the front: a point and digits. -/
def fraction : List Char → Nat
  | '.' :: cs => digitsBehind 1 cs
  | _ => 0

/-- The length of the exponent at the front: `e` or `E`, an optional sign
and digits. -/
def exponent : List Char → Nat
  | c :: cs =>
    if c = 'e' ∨ c = 'E' then
      match cs with
      | '+' :: rest => digitsBehind 2 rest
      | '-' :: rest => digitsBehind 2 rest
      | rest => digitsBehind 1 rest
    else 0
  | [] => 0

/-- How far a decimal literal reaches behind its first digit. -/
def decimalTail (cs : List Char) : Nat :=
  let whole := run isDigit cs
  let part := whole + fraction (cs.drop whole)
  part + exponent (cs.drop part)

/-- How far a literal in another base reaches behind its leading `0`:
the mark and at least one digit of the base. -/
def radixTail? : List Char → Option (Kind × Nat)
  | mark :: cs =>
    match base? mark with
    | some base =>
      let digits := run (Digits.isDigit base) cs
      if digits = 0 then none else some (.radix base, 1 + digits)
    | none => none
  | [] => none

/-- The numeric literal that begins with the digit `c`. -/
def numeral (c : Char) (cs : List Char) : Kind × Nat :=
  if c = '0' then (radixTail? cs).getD (.decimal, decimalTail cs)
  else (.decimal, decimalTail cs)

/-- An operator that takes two characters if `next` follows. -/
def doubled (next : Char) (long : Kind) (short : Option Kind) :
    List Char → Option (Kind × Nat)
  | c :: _ => if c = next then some (long, 1) else short.map (·, 0)
  | [] => short.map (·, 0)

/-- The lexeme that begins with a character which is no digit, letter or
blank. -/
def symbol (c : Char) (cs : List Char) : Option (Kind × Nat) :=
  match c with
  | '.' =>
    let part := fraction ('.' :: cs)
    if part = 0 then none
    else some (.decimal, part - 1 + exponent (cs.drop (part - 1)))
  | '$' => some (.reference, run isDigit cs)
  | '/' =>
    match cs with
    | '/' :: rest => some (.skipped, 1 + run isCommentChar rest)
    | _ => some (.fixed .divide, 0)
  | '*' => doubled '*' (.fixed .power) (some (.fixed .times)) cs
  | '<' => doubled '<' (.fixed .shiftLeft) none cs
  | '>' => doubled '>' (.fixed .shiftRight) none cs
  | '+' => some (.fixed .plus, 0)
  | '-' => some (.dash, 0)
  | '%' => some (.fixed .modulo, 0)
  | '&' => some (.fixed .bitAnd, 0)
  | '|' => some (.fixed .bitOr, 0)
  | '~' => some (.fixed .complement, 0)
  | '^' => some (.fixed .power, 0)
  | '!' => some (.fixed .factorial, 0)
  | '#' => some (.fixed .literal, 0)
  | '(' => some (.fixed .opening, 0)
  | ')' => some (.fixed .closing, 0)
  | '=' => some (.fixed .assign, 0)
  | ';' => some (.fixed .separator, 0)
  | '\n' => some (.fixed .separator, 0)
  | _ => none

/-- The kind of the longest lexeme that begins with `c`, and how many
characters of `cs` it takes; `none` if no lexeme begins so. -/
def longest (c : Char) (cs : List Char) : Option (Kind × Nat) :=
  if isDigit c then some (numeral c cs)
  else if isLetter c then some (.word, run isNameChar cs)
  else if isBlank c then some (.skipped, run isBlank cs)
  else symbol c cs

/-! ## Contributions -/

/-- What a lexeme contributes to the token list. -/
inductive Piece where
  | nothing
  | dash
  | token (t : Token)
deriving DecidableEq, Repr

/-- A number that fits in 64 bits. -/
def fitting (n : Nat) : Option Nat :=
  if n < Nat.pow 2 64 then some n else none

/-- What the text of a lexeme means; `none` if it is a literal in another
base or a history offset that does not fit in 64 bits. -/
def read (text : List Char) : Kind → Option Piece
  | .decimal => some (.token (.number (Decimal.ofLiteral text).toFloat))
  | .radix base =>
    (fitting (Digits.ofList base (text.drop 2))).map
      fun n => .token (.number (Binary.ofNat n))
  | .reference =>
    match text.drop 1 with
    | [] => some (.token (.reference 1))
    | digits => (fitting (Digits.ofList 10 digits)).map
        fun n => .token (.reference n)
  | .word =>
    some (.token (if text = ['x', 'o', 'r'] then .bitXor
      else .name (String.ofList text)))
  | .skipped => some .nothing
  | .dash => some .dash
  | .fixed token => some (.token token)

end Lexeme

/-! ## Cutting a text -/

namespace Source

/-- The number of bytes of a text in UTF-8. -/
def byteLength (text : List Char) : Nat :=
  text.foldl (fun n c => n + c.utf8Size) 0

/-- The complaint about a text without a meaning.  What begins like a
history reference or like a literal in another base is too large; anything
else has no place in a source. -/
def complaint (text : List Char) (column : Nat) : LexicalError :=
  if text.head? = some '$' ∨ text.head? = some '0' then
    .literalTooLarge (String.ofList text) column
  else
    .unexpectedCharacter (String.ofList text) column

/-- The contributions of the lexemes of a text that begins at `column`. -/
def pieces (column : Nat) : List Char → Except LexicalError (List Lexeme.Piece)
  | [] => .ok []
  | c :: cs =>
    match Lexeme.longest c cs with
    | none => .error (complaint [c] column)
    | some (kind, taken) =>
      let text := c :: cs.take taken
      match Lexeme.read text kind with
      | none => .error (complaint text column)
      | some piece =>
        match pieces (column + byteLength text) (cs.drop taken) with
        | .ok rest => .ok (piece :: rest)
        | .error cause => .error cause
termination_by cs => cs.length
decreasing_by simp only [List.length_drop, List.length_cons]; omega

/-- The tokens of a list of contributions.  `behindOperand` says whether the
last token before them ends an operand. -/
def assemble (behindOperand : Bool) : List Lexeme.Piece → List Token
  | [] => []
  | .nothing :: rest => assemble behindOperand rest
  | .dash :: rest =>
    (if behindOperand then .minus else .negate) :: assemble false rest
  | .token t :: rest => t :: assemble t.endsOperand rest

end Source

/-- The tokens of a source text, closed by a `finish`. -/
def tokenize (source : String) : Except LexicalError (List Token) :=
  match Source.pieces 1 source.toList with
  | .ok pieces => .ok (Source.assemble false pieces ++ [.finish])
  | .error cause => .error cause

end Reckoner
