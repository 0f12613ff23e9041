/-
# Printed words are read back

In a base other than ten a value is printed as its word: a mark, and behind
it the digits of the word read as unsigned.  Such a text is one literal.  It
is read as the number that its digits denote, which has at most 32 bits and
is a float without rounding; and the word of that number is the word that was
printed, whether or not the bitwise level cuts the number to its word first.
So what the text comes to is printed as the same text again.

This is all that can be asked for: the fraction of a value and what exceeds
32 bits are gone when its word is printed.
-/
import Reckoner.Proofs.Ending
import Reckoner.Proofs.ExactIntegers
import Reckoner.Proofs.MaximalMunch
import Reckoner.Proofs.PrintedDigits
import Reckoner.Proofs.Statements

namespace Reckoner

/-! ## Literals behind a mark -/

/-- A literal in another base alone is the number that its digits denote. -/
theorem tokenize_radix {r : Pattern.Radix} {text : List Char}
    (matched : text ∈ (Pattern.radix r).language)
    (small : Digits.ofList r.base (text.drop 2) < 2 ^ 64) :
    tokenize (String.ofList text) =
      .ok [.number (Binary.ofNat (Digits.ofList r.base (text.drop 2))),
        .finish] := by
  obtain ⟨mark, digits, -, -, -, rfl⟩ := Pattern.mem_radix.mp matched
  have fits := Lexeme.fitting_of_lt small
  have read : Lexeme.read ('0' :: mark :: digits) (.radix r.base) =
      some (.token (.number (Binary.ofNat (Digits.ofList r.base
        (('0' :: mark :: digits).drop 2))))) := by
    rw [Lexeme.read, fits]
    rfl
  rw [tokenize, String.toList_ofList, Source.pieces_of_mem matched read]
  rfl

theorem tokenize_marked {mark : Char} {base : Nat}
    (announced : Lexeme.base? mark = some base) {n : Nat} (small : n < 2 ^ 64) :
    tokenize (Settings.marked ['0', mark] base n) =
      .ok [.number (Binary.ofNat n), .finish] := by
  obtain ⟨r, rfl⟩ := Lexeme.base?_eq_some announced
  have least : 1 < r.base := by cases r <;> decide
  have most : r.base ≤ 16 := by cases r <;> decide
  have matched : '0' :: mark :: Nat.toDigits r.base n ∈
      (Pattern.radix r).language :=
    Pattern.mem_radix.mpr ⟨mark, _, announced, Nat.toDigits_ne_nil,
      Digits.isDigit_toDigits least most n, rfl⟩
  have denoted : Digits.ofList r.base
      (('0' :: mark :: Nat.toDigits r.base n).drop 2) = n :=
    Digits.ofList_toDigits least most n
  have readable := tokenize_radix matched (denoted.symm ▸ small)
  rw [denoted] at readable
  exact readable

/-! ## Words as floats -/

namespace Word

open Binary

theorem unsigned_lt (w : Word) : w.unsigned < 2 ^ 32 :=
  w.toUInt32.toNat_lt

theorem ofInt_unsigned (w : Word) : Int32.ofInt (w.unsigned : Int) = w := by
  have bits : BitVec.ofInt 32 (w.toBitVec.toNat : Int) = w.toBitVec := by
    rw [BitVec.ofInt_natCast, BitVec.ofNat_toNat]
    exact BitVec.setWidth_eq _
  exact Int32.toBitVec_inj.mp bits

/-- A word read as unsigned is the same word again. -/
theorem truncate_unsigned (w : Word) : truncate (ofNat w.unsigned) = w := by
  have small : (w.unsigned : Int).natAbs < 2 ^ 53 := by
    have := w.unsigned_lt
    omega
  have whole := integerPart_ofInt small
  rw [ofInt, if_neg (by omega), Int.natAbs_natCast] at whole
  rw [truncate, whole, ofInt_unsigned]

/-- Small integers are finite. -/
theorem isFinite_ofInt {i : Int} (small : i.natAbs < 2 ^ 53) :
    (ofInt i).isFinite = true := by
  rcases Int.lt_trichotomy i 0 with neg | rfl | pos
  · have size : 0 < i.natAbs := by omega
    rw [ofInt, if_pos neg]
    exact isFinite_iff.mpr ⟨_, _, _, ofFloat_neg (ofFloat_ofNat size small)⟩
  · decide +kernel
  · have size : 0 < i.natAbs := by omega
    rw [ofInt, if_neg (by omega)]
    exact isFinite_iff.mpr ⟨_, _, _, ofFloat_ofNat size small⟩

theorem isFinite_value (w : Word) : w.value.isFinite = true := by
  have least := w.le_toInt
  have most := w.toInt_lt
  exact isFinite_ofInt (by omega)

theorem isFinite_unsigned (w : Word) : (ofNat w.unsigned).isFinite = true := by
  have small := w.unsigned_lt
  have finite := isFinite_ofInt (i := (w.unsigned : Int)) (by omega)
  rw [ofInt, if_neg (by omega), Int.natAbs_natCast] at finite
  exact finite

end Word

/-! ## Printing and reading -/

/-- In a base other than ten, every finite value is printed as its word. -/
theorem Settings.format_eq_marked {settings : Settings}
    (based : settings.radix ≠ .decimal) :
    ∃ mark base, Lexeme.base? mark = some base ∧
      ∀ v : Float, v.isFinite = true →
        settings.format v =
          marked ['0', mark] base (Word.truncate v).unsigned := by
  have finite {v : Float} (h : v.isFinite = true) :
      settings.format v = settings.finiteText v := by
    obtain ⟨negative, mantissa, exponent, decoded⟩ := Binary.isFinite_iff.mp h
    rw [format, decoded]
  cases radix : settings.radix with
  | decimal => exact absurd radix based
  | hex =>
      refine ⟨'x', 16, rfl, ?_⟩
      intro v h
      rw [finite h, finiteText, radix]
  | octal =>
      refine ⟨'o', 8, rfl, ?_⟩
      intro v h
      rw [finite h, finiteText, radix]
  | binary =>
      refine ⟨'b', 2, rfl, ?_⟩
      intro v h
      rw [finite h, finiteText, radix]

namespace Session

/-- A line that is one number shows that number, as the bitwise level lets it
pass. -/
theorem runLine_number {line : String} {v : Float}
    (readable : tokenize line = .ok [.number v, .finish])
    (session : Session) :
    (session.runLine line).1 =
      [.value (session.context.enter .bitwise v)] :=
  runLine_of_value readable rfl
    (Environment.reply_number_ends rfl v session.context.effects)

/-- **A printed word is read back.**  In a base other than ten, the text of a
finite value is one statement, and the value it shows is printed as the same
text; if values are cut to words, it is the word that was printed. -/
theorem format_reads_back (session : Session)
    (based : session.settings.radix ≠ .decimal) {v : Float}
    (finite : v.isFinite = true) :
    ∃ w, (session.runLine (session.format v)).1 = [.value w] ∧
      session.format w = session.format v ∧
      (session.context.policy = .truncate → w = (Word.truncate v).value) := by
  obtain ⟨mark, base, announced, format⟩ := Settings.format_eq_marked based
  let word := Word.truncate v
  have text : session.format v = Settings.marked ['0', mark] base word.unsigned :=
    format v finite
  have small : word.unsigned < 2 ^ 64 :=
    Nat.lt_trans word.unsigned_lt (by decide)
  have shown := session.runLine_number (tokenize_marked announced small)
  have again {w : Float} (h : w.isFinite = true)
      (same : Word.truncate w = word) : session.format w = session.format v := by
    rw [text, ← same]
    exact format w h
  rw [text, shown, ← text]
  cases policy : session.context.policy with
  | truncate =>
      refine ⟨word.value, ?_, again word.isFinite_value word.truncate_value, ?_⟩
      · simp only [Environment.enter, policy, word.truncate_unsigned]
      · intro _
        rfl
  | preserve =>
      refine ⟨Binary.ofNat word.unsigned, ?_,
        again word.isFinite_unsigned word.truncate_unsigned, nofun⟩
      simp only [Environment.enter, policy]

theorem format_reads_back_negative :
    let session := ofSettings { radix := .hex, precision := some 2 }
    session.format (-1.5) = "0xffffffff" ∧
      ∃ w, (session.runLine "0xffffffff").1 = [.value w] ∧
        session.format w = "0xffffffff" ∧ w = -1 := by
  intro session
  have text : session.format (-1.5) = "0xffffffff" := by decide +kernel
  have finite : Float.isFinite (-1.5) = true := by decide +kernel
  obtain ⟨w, shown, same, cut⟩ :=
    session.format_reads_back (by decide) finite
  rw [text] at shown same
  refine ⟨text, w, shown, same, (cut rfl).trans ?_⟩
  decide +kernel

end Session

end Reckoner
