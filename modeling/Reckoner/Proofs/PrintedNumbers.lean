/-
# Printed numbers are read back

Without a number of places, a finite value is printed in the fewest digits
that are read as that value, with a dash in front if it is negative.  The
digits are one literal, of whatever length, and the literal is read as the
magnitude of the value: either the search for few digits has made sure of
it, or all digits are there.  The dash is no minus, since nothing stands in
front of it; it negates the literal behind it, a zero as well.  If fractions
are kept, no level changes the value, and what was printed comes back bit by
bit.
-/
import Reckoner.Proofs.PrintedWords

namespace Reckoner

open scoped Computability

/-! ## Digits that denote a magnitude -/

namespace Decimal

theorem toFloat_eq_of_value {d : Decimal} {r : Ratio} (proper : 0 < r.den)
    (same : d.digits * (10 : ℚ) ^ d.scale = r.value) :
    d.toFloat = Binary.nearest r := by
  rw [toFloat_eq_nearest]
  exact Binary.nearest_congr d.den_toRatio_pos proper
    (d.value_toRatio.trans same)

/-- What the search for few digits finds is read as its target. -/
theorem exists_fixedPoint_of_shortest {r : Ratio} {text : List Char}
    (found : shortest r = some text) :
    ∃ n places, text = fixedPoint n places ∧
      (ofLiteral text).toFloat = Binary.nearest r := by
  obtain ⟨_, _, among⟩ := List.exists_of_findSome?_eq_some found
  have reads := List.find?_some among
  obtain ⟨d, _, rfl⟩ := List.mem_map.mp (List.mem_of_find?_eq_some among)
  exact ⟨_, _, rfl, Float.toBits_inj.mp (eq_of_beq reads)⟩

end Decimal

namespace Binary

variable {negative : Bool} {mantissa : ℕ} {exponent : ℤ}

/-- With as many places as the exponent asks for, a magnitude is a whole
number of units. -/
theorem exists_units (mantissa : ℕ) (exponent : ℤ) :
    ∃ n : ℕ, (mantissa : ℚ) * 2 ^ exponent * 10 ^ (-exponent).toNat = n := by
  obtain ⟨k, rfl | rfl⟩ := exponent.eq_nat_or_neg
  · have none : (-(k : ℤ)).toNat = 0 := by omega
    refine ⟨mantissa * 2 ^ k, ?_⟩
    rw [none, pow_zero, mul_one, zpow_natCast]
    push_cast
    rfl
  · refine ⟨mantissa * 5 ^ k, ?_⟩
    have ten : (10 : ℚ) ^ k = 2 ^ k * 5 ^ k := by
      rw [← mul_pow]
      norm_num
    rw [neg_neg, Int.toNat_natCast, zpow_neg, zpow_natCast, ten]
    push_cast
    field_simp

/-- All digits of a magnitude denote it. -/
theorem exists_fixedPoint_of_roundedTo (mantissa : ℕ)
    (least : -1074 ≤ exponent) :
    ∃ n places,
      roundedTo (-exponent).toNat mantissa exponent =
        Decimal.fixedPoint n places ∧
      (Decimal.ofLiteral (Decimal.fixedPoint n places)).toFloat =
        nearest (magnitude mantissa exponent) := by
  have kept : min (-exponent).toNat 1074 = (-exponent).toNat :=
    Nat.min_eq_left (by omega)
  let places := (-exponent).toNat
  obtain ⟨n, units⟩ := exists_units mantissa exponent
  let scaled := (magnitude mantissa exponent).scale 10 places
  have whole : scaled.round = n := by
    have near := Ratio.isNearest_round (r := scaled)
      (Ratio.den_scale_pos (by decide) (den_magnitude_pos _ _) _)
    rw [Ratio.value_scale (by decide), value_magnitude, zpow_natCast,
      Nat.cast_ofNat, units] at near
    exact near.unique (.refl n)
  refine ⟨n, places, ?_, ?_⟩
  · rw [roundedTo, kept, Nat.sub_self, List.replicate_zero, List.append_nil]
    exact congrArg (Decimal.fixedPoint · places) whole
  · refine Decimal.toFloat_eq_of_value (den_magnitude_pos _ _) ?_
    rw [Decimal.ofLiteral_fixedPoint, value_magnitude, ← units, zpow_neg,
      zpow_natCast, mul_assoc, mul_inv_cancel₀, mul_one]
    exact pow_ne_zero _ (by norm_num)

/-- **The text of a magnitude is a literal that denotes it.** -/
theorem Canonical.exists_fixedPoint (canonical : Canonical mantissa exponent) :
    ∃ n places, shortestText mantissa exponent =
        Decimal.fixedPoint n places ∧
      ofFloat (Decimal.ofLiteral (Decimal.fixedPoint n places)).toFloat =
        finite false mantissa exponent := by
  rcases Nat.eq_zero_or_pos mantissa with rfl | positive
  · obtain rfl : exponent = -1074 :=
      canonical.full.resolve_right (by decide)
    have zero : Decimal.fixedPoint 0 0 = ['0'] := rfl
    exact ⟨0, 0, (if_pos rfl).trans zero.symm, by decide +kernel⟩
  · have target : ofFloat (nearest (magnitude mantissa exponent)) =
        finite false mantissa exponent :=
      canonical.ofFloat_nearest positive (value_magnitude _ _)
    rw [shortestText, if_neg positive.ne']
    cases found : Decimal.shortest (magnitude mantissa exponent) with
    | some text =>
        obtain ⟨n, places, rfl, reads⟩ :=
          Decimal.exists_fixedPoint_of_shortest found
        exact ⟨n, places, rfl, reads ▸ target⟩
    | none =>
        obtain ⟨n, places, text, reads⟩ :=
          exists_fixedPoint_of_roundedTo mantissa canonical.least
        exact ⟨n, places, text, reads ▸ target⟩

/-- The sign of a float is the dash in front of its magnitude. -/
theorem eq_of_ofFloat_magnitude {v x : Float}
    (decoded : ofFloat v = finite negative mantissa exponent)
    (magnitude : ofFloat x = finite false mantissa exponent) :
    (if negative then -x else x) = v := by
  cases negative with
  | false => exact eq_of_ofFloat magnitude decoded
  | true => exact eq_of_ofFloat (ofFloat_neg magnitude) decoded

end Binary

/-! ## The literal and its sign -/

/-- A text with a fixed point is a decimal literal. -/
theorem Pattern.fixedPoint_mem_decimal (n places : ℕ) :
    Decimal.fixedPoint n places ∈ decimal.language := by
  have whole (m : ℕ) : Nat.toDigits 10 m ∈ digit * digit∗ :=
    mem_digits.mpr ⟨Nat.toDigits_ne_nil, Digits.isDigit_toDigits_ten m⟩
  have literal {front rest : List Char} (digits : front ∈ digit * digit∗)
      (point : rest = [] ∨ rest ∈ fraction) :
      front ++ rest ∈ decimal.language := by
    refine (Language.mem_mul.mpr ⟨front ++ rest, ?_, [], ?_, ?_⟩)
    · exact Language.append_mem_mul digits (mem_one_add.mpr point)
    · exact mem_one_add.mpr (.inl rfl)
    · exact List.append_nil _
  rcases Decimal.fixedPoint_cases n places with ⟨-, text⟩ | ⟨positive, text⟩
  · rw [text, ← List.append_nil (Nat.toDigits 10 n)]
    exact literal (whole n) (.inl rfl)
  · rw [text]
    refine literal (whole _) (.inr (mem_fraction.mpr ⟨_, ?_, rfl⟩))
    refine mem_digits.mpr ⟨?_, Decimal.isDigit_paddedDigits _ _⟩
    exact List.append_ne_nil_of_right_ne_nil _ Nat.toDigits_ne_nil

section Signed

variable {text : List Char} (matched : text ∈ Pattern.decimal.language)

include matched

theorem tokenize_decimal :
    tokenize (Binary.signed false text) =
      .ok [.number (Decimal.ofLiteral text).toFloat, .finish] := by
  have read : Lexeme.read text Pattern.decimal.kind =
      some (.token (.number (Decimal.ofLiteral text).toFloat)) := rfl
  rw [tokenize, Binary.signed, String.toList_ofList]
  rw [if_neg Bool.false_ne_true, Source.pieces_of_mem matched read]
  rfl

/-- A dash at the beginning negates the literal. -/
theorem tokenize_dashed :
    tokenize (Binary.signed true text) =
      .ok [.negate, .number (Decimal.ofLiteral text).toFloat, .finish] := by
  have read : Lexeme.read text Pattern.decimal.kind =
      some (.token (.number (Decimal.ofLiteral text).toFloat)) := rfl
  have dash : Lexeme.longest '-' text = some (.dash, 0) := rfl
  rw [tokenize, Binary.signed, String.toList_ofList, if_pos rfl,
    Source.pieces_step dash rfl, List.drop_zero,
    Source.pieces_of_mem matched read]
  rfl

end Signed

namespace Environment

variable {env : Environment}

/-- A negated number in front of the end of the statement. -/
theorem reply_negated_ends {rest : Cursor}
    (ends : rest.current.endsStatement = true) (v : Float)
    (effects : Effects) :
    env.reply (.level .sum) effects (.negate :: .number v :: rest) =
      .value (env.enter .bitwise (-v)) effects rest := by
  have no_unary := Token.isUnary_of_endsStatement ends
  have unary : env.reply .unary effects (.negate :: .number v :: rest) =
      .value (-v) effects rest := by
    have here : UnaryOperator.ofToken? .negate = some .negate := rfl
    have nothing :=
      env.reply_nothing (s := .negate :: .number v :: rest) here effects
    rw [reply_unary, nothing]
    simp only [Reply.andThen, Reply.value]
    rw [env.reply_moreUnary_step here, reply_number]
    exact env.reply_moreUnary_stop
      (Token.ne_factorial_of_not_isUnary no_unary)
      (Token.ofToken?_of_not_isUnary no_unary) _ effects
  exact reply_level_of_unary
    (fun l _ => Token.operator?_of_endsStatement ends l) unary

end Environment

namespace Session

/-- **A printed number is read back.**  If values are printed in decimal, in
their shortest form, and fractions are kept, then the text of a finite value
is one statement, and what it shows is that value. -/
theorem runLine_format (session : Session)
    (decimal : session.settings.radix = .decimal)
    (shortest : session.settings.precision = none)
    (keeps : session.context.policy = .preserve) {v : Float}
    (finite : v.isFinite = true) :
    (session.runLine (session.format v)).1 = [.value v] := by
  obtain ⟨negative, mantissa, exponent, decoded⟩ :=
    Binary.isFinite_iff.mp finite
  have canonical := Binary.Canonical.of_ofFloat decoded
  obtain ⟨n, places, text, reads⟩ := canonical.exists_fixedPoint
  have matched := Pattern.fixedPoint_mem_decimal n places
  have printed : session.format v =
      Binary.signed negative (Decimal.fixedPoint n places) := by
    rw [format, Settings.format, decoded]
    simp only [Settings.finiteText, decimal, shortest, decoded,
      Binary.toText, text]
  have signed := Binary.eq_of_ofFloat_magnitude decoded reads
  have enters (x : Float) : session.context.enter .bitwise x = x := by
    simp only [Environment.enter, keeps]
  rw [printed]
  cases negative with
  | false =>
      rw [session.runLine_number (tokenize_decimal matched), enters]
      exact congrArg (fun x => [Outcome.value x]) signed
  | true =>
      have ends : (Cursor.current [.finish]).endsStatement = true := rfl
      rw [runLine_of_value (tokenize_dashed matched) rfl
        (Environment.reply_negated_ends ends _ session.context.effects),
        enters]
      exact congrArg (fun x => [Outcome.value x]) signed

theorem runLine_format_negative :
    let session := ofSettings { policy := .preserve }
    session.format (-0.1) = "-0.1" ∧
      (session.runLine "-0.1").1 = [.value (-0.1)] ∧
      session.format (-0) = "-0" ∧
      (session.runLine "-0").1 = [.value (-0)] := by
  intro session
  have tenth : session.format (-0.1) = "-0.1" := by decide +kernel
  have zero : session.format (-0) = "-0" := by decide +kernel
  have shown := session.runLine_format rfl rfl rfl
    (v := -0.1) (by decide +kernel)
  have shown' := session.runLine_format rfl rfl rfl
    (v := -0) (by decide +kernel)
  rw [tenth] at shown
  rw [zero] at shown'
  exact ⟨tenth, shown, zero, shown'⟩

end Session

end Reckoner
