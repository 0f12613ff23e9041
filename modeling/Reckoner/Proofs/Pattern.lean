/-
# Lexeme patterns

The lexemes of the language as regular expressions, that is, as languages
over characters built from classes by concatenation, union and star.
Nothing here is executed and nothing says how a text is searched: a pattern
only says which texts it matches.  The patterns overlap (`/` begins a
comment, `0` a hexadecimal literal, `xor` is spelled like a name); which of
the matched texts counts is no matter of this file.

The second half computes with the classes: each one is the language of the
character test that the scanner runs.
-/
import Mathlib
import Reckoner.Source

namespace Reckoner

open scoped Computability

namespace Pattern

/-! ## Classes and spellings -/

/-- The texts of one character that satisfies `p`. -/
def oneOf (p : Char → Prop) : Language Char :=
  {text | ∃ c, p c ∧ text = [c]}

/-- One character from `first` to `last`. -/
def range (first last : Char) : Language Char :=
  oneOf fun c => first ≤ c ∧ c ≤ last

/-- One of the characters of `s`. -/
def anyOf (s : String) : Language Char :=
  oneOf fun c => c ∈ s.toList

/-- Any character but those of `s`. -/
def noneOf (s : String) : Language Char :=
  oneOf fun c => c ∉ s.toList

/-- The text `s` alone. -/
def spelled (s : String) : Language Char :=
  {s.toList}

def digit : Language Char := range '0' '9'

def letter : Language Char := range 'a' 'z' + range 'A' 'Z' + anyOf "_"

/-! ## The patterns -/

/-- The bases of literals that begin with a mark. -/
inductive Radix where
  | hexadecimal
  | octal
  | binary
deriving DecidableEq, Repr

def Radix.base : Radix → Nat
  | hexadecimal => 16
  | octal => 8
  | binary => 2

/-- The mark that follows the leading `0`. -/
def Radix.mark : Radix → Language Char
  | hexadecimal => anyOf "xX"
  | octal => anyOf "oO"
  | binary => anyOf "bB"

def Radix.digit : Radix → Language Char
  | hexadecimal => range '0' '9' + range 'a' 'f' + range 'A' 'F'
  | octal => range '0' '7'
  | binary => range '0' '1'

/-- A point with digits. -/
def fraction : Language Char := spelled "." * (digit * digit∗)

/-- An `e` in either case with an optional sign and digits. -/
def exponent : Language Char := anyOf "eE" * (1 + anyOf "+-") * (digit * digit∗)

/-- The spellings that mean one token each. -/
def spellings : List (String × Token) :=
  [("+", .plus), ("**", .power), ("*", .times), ("/", .divide),
    ("%", .modulo), ("<<", .shiftLeft), (">>", .shiftRight),
    ("&", .bitAnd), ("|", .bitOr), ("~", .complement), ("^", .power),
    ("!", .factorial), ("#", .literal), ("(", .opening), (")", .closing),
    ("=", .assign), (";", .separator), ("\n", .separator)]

end Pattern

/-- The patterns of lexemes. -/
inductive Pattern where
  | decimal
  /-- A decimal literal without digits before its point. -/
  | pointed
  | radix (radix : Pattern.Radix)
  | reference
  | xor
  | identifier
  | comment
  | blanks
  | dash
  /-- One of the `spellings`. -/
  | fixed (spelling : String) (token : Token)
deriving DecidableEq

namespace Pattern

/-- The texts that a pattern matches. -/
def language : Pattern → Language Char
  | decimal => digit * digit∗ * (1 + fraction) * (1 + exponent)
  | pointed => fraction * (1 + exponent)
  | radix r => spelled "0" * r.mark * (r.digit * r.digit∗)
  | reference => spelled "$" * digit∗
  | xor => spelled "xor"
  | identifier => letter * (letter + digit)∗
  | comment => spelled "//" * (noneOf "\n\r")∗
  | blanks => anyOf " \t\r\x0c" * (anyOf " \t\r\x0c")∗
  | dash => spelled "-"
  | fixed spelling token => {text | (spelling, token) ∈ spellings ∧
      text = spelling.toList}

/-- The kind of lexeme that a pattern describes. -/
def kind : Pattern → Lexeme.Kind
  | decimal | pointed => .decimal
  | radix r => .radix r.base
  | reference => .reference
  | xor | identifier => .word
  | comment | blanks => .skipped
  | dash => .dash
  | fixed _ token => .fixed token

/-! ## Membership -/

section Membership

variable {p q : Char → Prop} {text : List Char}

theorem mem_spelled {s : String} : text ∈ spelled s ↔ text = s.toList :=
  Iff.rfl

theorem mem_fixed {spelling : String} {token : Token} :
    text ∈ (fixed spelling token).language ↔
      (spelling, token) ∈ spellings ∧ text = spelling.toList :=
  Iff.rfl

theorem oneOf_add : oneOf p + oneOf q = oneOf fun c => p c ∨ q c := by
  ext text
  rw [Language.mem_add]
  constructor
  · rintro (⟨c, h, rfl⟩ | ⟨c, h, rfl⟩)
    · exact ⟨c, Or.inl h, rfl⟩
    · exact ⟨c, Or.inr h, rfl⟩
  · rintro ⟨c, h | h, rfl⟩
    · exact Or.inl ⟨c, h, rfl⟩
    · exact Or.inr ⟨c, h, rfl⟩

theorem oneOf_congr (h : ∀ c, p c ↔ q c) : oneOf p = oneOf q :=
  congrArg oneOf (funext fun c => propext (h c))

/-- A starred class holds the texts all of whose characters are in it. -/
theorem mem_kstar_oneOf : text ∈ (oneOf p)∗ ↔ ∀ c ∈ text, p c := by
  constructor
  · intro h
    obtain ⟨chunks, rfl, matched⟩ := Language.mem_kstar.mp h
    intro c hc
    obtain ⟨chunk, hchunk, hc⟩ := List.mem_flatten.mp hc
    obtain ⟨d, hd, rfl⟩ := matched chunk hchunk
    exact List.mem_singleton.mp hc ▸ hd
  · intro h
    refine Language.mem_kstar.mpr ⟨text.map fun c => [c], ?_, ?_⟩
    · induction text with
      | nil => rfl
      | cons c text ih =>
          rw [List.map_cons, List.flatten_cons,
            ← ih fun d hd => h d (List.mem_cons_of_mem _ hd)]
          rfl
    · intro chunk hchunk
      obtain ⟨c, hc, rfl⟩ := List.mem_map.mp hchunk
      exact ⟨c, h c hc, rfl⟩

theorem cons_mem_oneOf_mul {l : Language Char} {c : Char} :
    c :: text ∈ oneOf p * l ↔ p c ∧ text ∈ l := by
  rw [Language.mem_mul]
  constructor
  · rintro ⟨_, ⟨d, hd, rfl⟩, rest, hrest, same⟩
    obtain ⟨rfl, rfl⟩ := List.cons.inj same
    exact ⟨hd, hrest⟩
  · rintro ⟨hc, htext⟩
    exact ⟨[c], ⟨c, hc, rfl⟩, text, htext, rfl⟩

theorem nil_not_mem_oneOf_mul {l : Language Char} : [] ∉ oneOf p * l := by
  rw [Language.mem_mul]
  rintro ⟨_, ⟨d, _, rfl⟩, rest, _, same⟩
  cases same

/-- At least one character of a class: a nonempty text of them. -/
theorem mem_oneOrMore : text ∈ oneOf p * (oneOf p)∗ ↔
    text ≠ [] ∧ ∀ c ∈ text, p c := by
  cases text with
  | nil => exact iff_of_false nil_not_mem_oneOf_mul fun h => h.1 rfl
  | cons c text =>
      rw [cons_mem_oneOf_mul, mem_kstar_oneOf, List.forall_mem_cons]
      exact ⟨fun h => ⟨List.cons_ne_nil _ _, h⟩, fun h => h.2⟩

theorem mem_spelled_mul {s : String} {l : Language Char} :
    text ∈ spelled s * l ↔ ∃ rest ∈ l, text = s.toList ++ rest := by
  rw [Language.mem_mul]
  constructor
  · rintro ⟨_, rfl, rest, hrest, rfl⟩
    exact ⟨rest, hrest, rfl⟩
  · rintro ⟨rest, hrest, rfl⟩
    exact ⟨s.toList, rfl, rest, hrest, rfl⟩

/-- A part that may be missing. -/
theorem mem_one_add {l : Language Char} :
    text ∈ 1 + l ↔ text = [] ∨ text ∈ l := by
  rw [Language.mem_add, Language.mem_one]

end Membership

/-! ## The scanner's classes -/

section Classes

variable {c : Char}

theorem le_iff_toNat_le (c d : Char) : c ≤ d ↔ c.toNat ≤ d.toNat := by
  rw [Char.le_def, UInt32.le_iff_toNat_le]
  rfl

/-- The digits of a base, by the code points of their characters. -/
theorem isDigit_iff (base : Nat) : Digits.isDigit base c = true ↔
    48 ≤ c.toNat ∧ c.toNat ≤ 57 ∧ c.toNat < base + 48 ∨
      97 ≤ c.toNat ∧ c.toNat ≤ 102 ∧ c.toNat < base + 87 ∨
      65 ≤ c.toNat ∧ c.toNat ≤ 70 ∧ c.toNat < base + 55 := by
  have h0 : '0'.toNat = 48 := rfl
  have h9 : '9'.toNat = 57 := rfl
  have ha : 'a'.toNat = 97 := rfl
  have hf : 'f'.toNat = 102 := rfl
  have hA : 'A'.toNat = 65 := rfl
  have hF : 'F'.toNat = 70 := rfl
  simp only [Digits.isDigit, Digits.value?, le_iff_toNat_le, h0, h9, ha, hf,
    hA, hF]
  by_cases numeric : 48 ≤ c.toNat ∧ c.toNat ≤ 57
  · rw [if_pos numeric, decide_eq_true_eq]
    omega
  · rw [if_neg numeric]
    by_cases lower : 97 ≤ c.toNat ∧ c.toNat ≤ 102
    · rw [if_pos lower, decide_eq_true_eq]
      omega
    · rw [if_neg lower]
      by_cases upper : 65 ≤ c.toNat ∧ c.toNat ≤ 70
      · rw [if_pos upper, decide_eq_true_eq]
        omega
      · rw [if_neg upper]
        simp only [Bool.false_eq_true, false_iff]
        omega

theorem digit_eq : digit = oneOf fun c => Lexeme.isDigit c = true := by
  refine oneOf_congr fun c => ?_
  rw [Lexeme.isDigit, isDigit_iff, le_iff_toNat_le, le_iff_toNat_le,
    show '0'.toNat = 48 from rfl, show '9'.toNat = 57 from rfl]
  omega

theorem Radix.digit_eq (r : Radix) :
    r.digit = oneOf fun c => Digits.isDigit r.base c = true := by
  have h0 : '0'.toNat = 48 := rfl
  have h1 : '1'.toNat = 49 := rfl
  have h7 : '7'.toNat = 55 := rfl
  have h9 : '9'.toNat = 57 := rfl
  have ha : 'a'.toNat = 97 := rfl
  have hf : 'f'.toNat = 102 := rfl
  have hA : 'A'.toNat = 65 := rfl
  have hF : 'F'.toNat = 70 := rfl
  cases r with
  | hexadecimal =>
      simp only [Radix.digit, Radix.base, range, oneOf_add]
      refine oneOf_congr fun c => ?_
      simp only [isDigit_iff, le_iff_toNat_le, h0, h9, ha, hf, hA, hF]
      omega
  | octal =>
      refine oneOf_congr fun c => ?_
      simp only [Radix.base, isDigit_iff, le_iff_toNat_le, h0, h7]
      omega
  | binary =>
      refine oneOf_congr fun c => ?_
      simp only [Radix.base, isDigit_iff, le_iff_toNat_le, h0, h1]
      omega

theorem Radix.mark_eq (r : Radix) :
    r.mark = oneOf fun c => Lexeme.base? c = some r.base := by
  cases r with
  | hexadecimal =>
      refine oneOf_congr fun c => ?_
      unfold Lexeme.base?
      split <;> simp_all [Radix.base]
  | octal =>
      refine oneOf_congr fun c => ?_
      unfold Lexeme.base?
      split <;> simp_all [Radix.base]
  | binary =>
      refine oneOf_congr fun c => ?_
      unfold Lexeme.base?
      split <;> simp_all [Radix.base]

theorem letter_eq : letter = oneOf fun c => Lexeme.isLetter c = true := by
  rw [letter, range, range, anyOf, oneOf_add, oneOf_add]
  refine oneOf_congr fun c => ?_
  simp only [Lexeme.isLetter, Char.isAlpha, Char.isLower, Char.isUpper,
    Char.le_def]
  grind

theorem nameChar_eq :
    letter + digit = oneOf fun c => Lexeme.isNameChar c = true := by
  rw [letter_eq, digit_eq, oneOf_add]
  refine oneOf_congr fun c => ?_
  rw [Lexeme.isNameChar, Bool.or_eq_true]

theorem blank_eq :
    anyOf " \t\r\x0c" = oneOf fun c => Lexeme.isBlank c = true := by
  refine oneOf_congr fun c => ?_
  simp [Lexeme.isBlank, or_assoc]

theorem commentChar_eq :
    noneOf "\n\r" = oneOf fun c => Lexeme.isCommentChar c = true := by
  refine oneOf_congr fun c => ?_
  simp [Lexeme.isCommentChar]

end Classes

/-! ## The texts of the patterns -/

section Texts

variable {c : Char} {text : List Char}

theorem mem_digits : text ∈ digit * digit∗ ↔
    text ≠ [] ∧ ∀ c ∈ text, Lexeme.isDigit c = true := by
  rw [digit_eq]
  exact mem_oneOrMore

theorem mem_fraction : text ∈ fraction ↔
    ∃ digits ∈ digit * digit∗, text = '.' :: digits :=
  mem_spelled_mul

theorem mem_exponent : text ∈ exponent ↔
    ∃ c sign, ∃ digits ∈ digit * digit∗, (c = 'e' ∨ c = 'E') ∧
      (sign = [] ∨ sign = ['+'] ∨ sign = ['-']) ∧
      text = c :: (sign ++ digits) := by
  rw [exponent, mul_assoc, anyOf]
  cases text with
  | nil => exact iff_of_false nil_not_mem_oneOf_mul (by simp)
  | cons c text =>
      rw [cons_mem_oneOf_mul, Language.mem_mul]
      constructor
      · rintro ⟨hc, sign, hsign, digits, hdigits, rfl⟩
        refine ⟨c, sign, digits, hdigits, by simpa using hc, ?_, rfl⟩
        rcases mem_one_add.mp hsign with none | ⟨s, hs, rfl⟩
        · exact Or.inl none
        · rcases (by simpa using hs : s = '+' ∨ s = '-') with rfl | rfl
          · exact Or.inr (Or.inl rfl)
          · exact Or.inr (Or.inr rfl)
      · rintro ⟨_, sign, digits, hdigits, hc, hsign, same⟩
        obtain ⟨rfl, rfl⟩ := List.cons.inj same
        refine ⟨by simpa using hc, sign, ?_, digits, hdigits, rfl⟩
        rcases hsign with rfl | rfl | rfl
        · exact mem_one_add.mpr (Or.inl rfl)
        · exact mem_one_add.mpr (Or.inr ⟨'+', by simp, rfl⟩)
        · exact mem_one_add.mpr (Or.inr ⟨'-', by simp, rfl⟩)

theorem cons_mem_decimal : c :: text ∈ decimal.language ↔
    Lexeme.isDigit c = true ∧
      text ∈ digit∗ * (1 + fraction) * (1 + exponent) := by
  have split : decimal.language =
      digit * (digit∗ * (1 + fraction) * (1 + exponent)) := by
    simp only [language, mul_assoc]
  rw [split, digit_eq]
  exact cons_mem_oneOf_mul

theorem mem_radix {r : Radix} : text ∈ (radix r).language ↔
    ∃ mark digits, Lexeme.base? mark = some r.base ∧ digits ≠ [] ∧
      (∀ d ∈ digits, Digits.isDigit r.base d = true) ∧
      text = '0' :: mark :: digits := by
  rw [language, mul_assoc, mem_spelled_mul, r.mark_eq, r.digit_eq]
  constructor
  · rintro ⟨rest, hrest, rfl⟩
    cases rest with
    | nil => exact absurd hrest nil_not_mem_oneOf_mul
    | cons mark digits =>
        obtain ⟨hmark, hdigits⟩ := cons_mem_oneOf_mul.mp hrest
        obtain ⟨nonempty, inside⟩ := mem_oneOrMore.mp hdigits
        exact ⟨mark, digits, hmark, nonempty, inside, rfl⟩
  · rintro ⟨mark, digits, hmark, nonempty, inside, rfl⟩
    exact ⟨mark :: digits, cons_mem_oneOf_mul.mpr
      ⟨hmark, mem_oneOrMore.mpr ⟨nonempty, inside⟩⟩, rfl⟩

theorem mem_reference : text ∈ reference.language ↔
    ∃ digits, (∀ d ∈ digits, Lexeme.isDigit d = true) ∧
      text = '$' :: digits := by
  rw [language, mem_spelled_mul, digit_eq]
  simp only [mem_kstar_oneOf]
  rfl

theorem cons_mem_identifier : c :: text ∈ identifier.language ↔
    Lexeme.isLetter c = true ∧ ∀ d ∈ text, Lexeme.isNameChar d = true := by
  rw [language, nameChar_eq, letter_eq, cons_mem_oneOf_mul, mem_kstar_oneOf]

theorem mem_comment : text ∈ comment.language ↔
    ∃ rest, (∀ d ∈ rest, Lexeme.isCommentChar d = true) ∧
      text = '/' :: '/' :: rest := by
  rw [language, mem_spelled_mul, commentChar_eq]
  simp only [mem_kstar_oneOf]
  rfl

theorem cons_mem_blanks : c :: text ∈ blanks.language ↔
    Lexeme.isBlank c = true ∧ ∀ d ∈ text, Lexeme.isBlank d = true := by
  rw [language, blank_eq, cons_mem_oneOf_mul, mem_kstar_oneOf]

/-- No pattern matches the empty text. -/
theorem ne_nil_of_mem {pattern : Pattern} (h : text ∈ pattern.language) :
    text ≠ [] := by
  rintro rfl
  cases pattern with
  | decimal =>
      simp only [language, mul_assoc, digit_eq] at h
      exact nil_not_mem_oneOf_mul h
  | pointed =>
      obtain ⟨part, hpart, power, -, empty⟩ := Language.mem_mul.mp h
      obtain ⟨digits, -, rfl⟩ := mem_fraction.mp hpart
      cases empty
  | radix r =>
      obtain ⟨mark, digits, -, -, -, empty⟩ := mem_radix.mp h
      cases empty
  | reference =>
      obtain ⟨digits, -, empty⟩ := mem_reference.mp h
      cases empty
  | identifier =>
      simp only [language, letter_eq] at h
      exact nil_not_mem_oneOf_mul h
  | comment =>
      obtain ⟨rest, -, empty⟩ := mem_comment.mp h
      cases empty
  | blanks =>
      simp only [language, blank_eq] at h
      exact nil_not_mem_oneOf_mul h
  | xor => simp [language, mem_spelled] at h
  | dash => simp [language, mem_spelled] at h
  | fixed spelling token =>
      obtain ⟨listed, empty⟩ := mem_fixed.mp h
      fin_cases listed
      all_goals simp at empty

end Texts

end Pattern

end Reckoner
