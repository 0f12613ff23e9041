/-
# The longest lexeme

`Lexeme.longest` looks for a lexeme by runs of characters and by a look at
the next one; a pattern matches texts.  This file joins the two.  An extent
**scans** for a language if it finds the longest prefix in it.  Scanning for
`l` and then for `m` finds the longest prefix in `l * m` only if no text of
`m` begins with a character that could have gone on in `l`: this holds of
digits before a point and of a fraction before an `e`, and it is why the
scanner never has to give characters back inside a decimal literal.

The two results at the end say of `longest` that what it finds is a lexeme
of the kind it names, and that no pattern reaches further.
-/
import Reckoner.Proofs.Pattern

namespace Reckoner

open scoped Computability

namespace Lexeme

/-! ## Extents that find the longest prefix -/

/-- The length of the longest prefix of a text that `l` matches. -/
structure Scans (extent : List Char → Nat) (l : Language Char) : Prop where
  within (cs : List Char) : extent cs ≤ cs.length
  matched (cs : List Char) : cs.take (extent cs) ∈ l
  maximal {text cs : List Char} : text ∈ l → text <+: cs →
    text.length ≤ extent cs

theorem take_run (p : Char → Bool) (cs : List Char) :
    cs.take (run p cs) = cs.takeWhile p :=
  (List.prefix_iff_eq_take.mp (List.takeWhile_prefix p)).symm

theorem run_le_length (p : Char → Bool) (cs : List Char) :
    run p cs ≤ cs.length :=
  (List.takeWhile_prefix p).length_le

theorem mem_take_run {p : Char → Bool} {cs : List Char} :
    ∀ c ∈ cs.take (run p cs), p c = true := by
  rw [take_run]
  intro c hc
  exact List.mem_takeWhile_imp hc

theorem take_run_ne_nil {p : Char → Bool} {cs : List Char}
    (some : run p cs ≠ 0) : cs.take (run p cs) ≠ [] := by
  intro none
  rw [take_run] at none
  rw [run, none] at some
  exact some rfl

theorem length_le_run {p : Char → Bool} {text cs : List Char}
    (inside : ∀ c ∈ text, p c = true) (front : text <+: cs) :
    text.length ≤ run p cs := by
  obtain ⟨rest, rfl⟩ := front
  rw [run, List.takeWhile_append_of_pos inside, List.length_append]
  exact Nat.le_add_right _ _

theorem run_of_forall {p : Char → Bool} {cs : List Char}
    (inside : ∀ c ∈ cs, p c = true) : run p cs = cs.length := by
  rw [run, List.takeWhile_eq_self_iff.mpr inside]

theorem scans_run (p : Char → Bool) :
    Scans (run p) (Pattern.oneOf fun c => p c = true)∗ where
  within := run_le_length p
  matched _ := Pattern.mem_kstar_oneOf.mpr mem_take_run
  maximal inside front := length_le_run (Pattern.mem_kstar_oneOf.mp inside) front

/-- One scan after another.  `p` parts the two: the first language is made
of its characters, and the second never begins with one. -/
theorem Scans.append {a b : List Char → Nat} {l m : Language Char}
    {p : Char → Prop} (first : Scans a l) (second : Scans b m)
    (inside : ∀ text ∈ l, ∀ c ∈ text, p c)
    (outside : ∀ c text, c :: text ∈ m → ¬ p c) :
    Scans (fun cs => a cs + b (cs.drop (a cs))) (l * m) where
  within cs := by
    have h₁ := first.within cs
    have h₂ := second.within (cs.drop (a cs))
    rw [List.length_drop] at h₂
    omega
  matched cs := by
    rw [List.take_add]
    exact Language.append_mem_mul (first.matched cs) (second.matched _)
  maximal {text cs} matched front := by
    obtain ⟨u, hu, v, hv, rfl⟩ := Language.mem_mul.mp matched
    obtain ⟨rest, rfl⟩ := front
    have reached : u.length ≤ a (u ++ v ++ rest) :=
      first.maximal hu (List.append_assoc u v rest ▸ List.prefix_append _ _)
    cases v with
    | nil =>
        rw [List.append_nil]
        rw [List.append_nil] at reached
        exact Nat.le_add_right_of_le reached
    | cons c v =>
        -- a longer first part would hold the character that opens the second
        have exact : a (u ++ c :: v ++ rest) = u.length := by
          refine Nat.le_antisymm (Nat.le_of_not_lt ?_) reached
          intro longer
          refine outside c v hv (inside _ (first.matched (u ++ c :: v ++ rest)) c ?_)
          refine List.mem_take_iff_getElem.mpr ⟨u.length, ?_, ?_⟩
          · exact Nat.lt_min.mpr ⟨longer, by simp⟩
          · simp
        simp only [exact]
        rw [List.append_assoc, List.drop_left, List.length_append]
        exact Nat.add_le_add_left
          (second.maximal hv (List.prefix_append _ _)) _

/-- A scan for a part that may be missing: where it finds something, it
finds a text of `l`. -/
theorem Scans.optional {extent : List Char → Nat} {l : Language Char}
    (found : ∀ cs, extent cs ≠ 0 →
      extent cs ≤ cs.length ∧ cs.take (extent cs) ∈ l)
    (maximal : ∀ {text cs}, text ∈ l → text <+: cs →
      text.length ≤ extent cs) : Scans extent (1 + l) where
  within cs := by
    by_cases nothing : extent cs = 0
    · rw [nothing]
      exact Nat.zero_le _
    · exact (found cs nothing).1
  matched cs := by
    rw [Pattern.mem_one_add]
    by_cases nothing : extent cs = 0
    · rw [nothing, List.take_zero]
      exact Or.inl rfl
    · exact Or.inr (found cs nothing).2
  maximal {text cs} matched front := by
    rcases Pattern.mem_one_add.mp matched with rfl | some
    · exact Nat.zero_le _
    · exact maximal some front

/-! ## Digits, fractions and exponents -/

open Pattern (digit mem_digits mem_fraction mem_exponent mem_one_add)

theorem length_le_digitsBehind (lead : Nat) {text cs : List Char}
    (h : text ∈ digit * digit∗) (front : text <+: cs) :
    lead + text.length ≤ digitsBehind lead cs := by
  obtain ⟨nonempty, inside⟩ := mem_digits.mp h
  have reached := length_le_run inside front
  have := List.length_pos_of_ne_nil nonempty
  simp only [digitsBehind]
  rw [if_neg (by omega)]
  omega

theorem digitsBehind_found {lead : Nat} {cs : List Char}
    (h : digitsBehind lead cs ≠ 0) :
    digitsBehind lead cs = lead + run isDigit cs ∧
      cs.take (run isDigit cs) ∈ digit * digit∗ := by
  simp only [digitsBehind] at h ⊢
  have some : run isDigit cs ≠ 0 := by
    intro none
    exact h (if_pos none)
  exact ⟨if_neg some, mem_digits.mpr ⟨take_run_ne_nil some, mem_take_run⟩⟩

theorem scans_fraction : Scans fraction (1 + Pattern.fraction) := by
  refine Scans.optional ?_ ?_
  · intro cs found
    unfold fraction at found ⊢
    split at found
    · rename_i rest
      obtain ⟨extent, digits⟩ := digitsBehind_found found
      simp only [extent, Nat.add_comm 1, List.take_succ_cons]
      exact ⟨Nat.succ_le_succ (run_le_length _ _),
        mem_fraction.mpr ⟨_, digits, rfl⟩⟩
    · exact absurd rfl found
  · intro text cs matched front
    obtain ⟨digits, hdigits, rfl⟩ := mem_fraction.mp matched
    obtain ⟨rest, rfl⟩ := front
    have reached := length_le_digitsBehind 1 hdigits
      (List.prefix_append digits rest)
    rw [List.length_cons, Nat.add_comm]
    exact reached

/-- The extent of an exponent behind its `e` is that of the sign and the
digits. -/
theorem length_le_exponent {c : Char} {sign digits rest : List Char}
    (hc : c = 'e' ∨ c = 'E') (hsign : sign = [] ∨ sign = ['+'] ∨ sign = ['-'])
    (hdigits : digits ∈ digit * digit∗) :
    1 + sign.length + digits.length ≤
      exponent (c :: (sign ++ digits ++ rest)) := by
  have reached (lead : Nat) := length_le_digitsBehind lead hdigits
    (List.prefix_append digits rest)
  simp only [exponent, if_pos hc]
  rcases hsign with rfl | rfl | rfl
  · obtain ⟨nonempty, inside⟩ := mem_digits.mp hdigits
    cases digits with
    | nil => exact absurd rfl nonempty
    | cons d digits =>
        have hd := inside d List.mem_cons_self
        simp only [List.nil_append, List.cons_append] at reached ⊢
        split
        · rename_i same
          rw [(List.cons.inj same).1] at hd
          exact absurd hd (by decide)
        · rename_i same
          rw [(List.cons.inj same).1] at hd
          exact absurd hd (by decide)
        · exact reached 1
  · exact reached 2
  · exact reached 2

theorem exponent_found {c : Char} (sign : List Char) {digits : List Char}
    (hc : c = 'e' ∨ c = 'E') (hsign : sign = [] ∨ sign = ['+'] ∨ sign = ['-'])
    (found : digitsBehind (1 + sign.length) digits ≠ 0) :
    digitsBehind (1 + sign.length) digits ≤ (c :: (sign ++ digits)).length ∧
      (c :: (sign ++ digits)).take (digitsBehind (1 + sign.length) digits) ∈
        Pattern.exponent := by
  obtain ⟨extent, hdigits⟩ := digitsBehind_found found
  have bound := run_le_length isDigit digits
  rw [extent, Nat.add_assoc, Nat.add_comm 1, List.take_succ_cons,
    List.take_length_add_append, List.length_cons, List.length_append]
  exact ⟨by omega, mem_exponent.mpr ⟨c, sign, _, hdigits, hc, hsign, rfl⟩⟩

theorem scans_exponent : Scans exponent (1 + Pattern.exponent) := by
  refine Scans.optional ?_ ?_
  · intro cs found
    unfold exponent at found ⊢
    split at found
    · rename_i c rest
      split at found
      · rename_i hc
        rw [if_pos hc]
        split at found
        · exact exponent_found ['+'] hc (Or.inr (Or.inl rfl)) found
        · exact exponent_found ['-'] hc (Or.inr (Or.inr rfl)) found
        · exact exponent_found [] hc (Or.inl rfl) found
      · exact absurd rfl found
    · exact absurd rfl found
  · intro text cs matched front
    obtain ⟨c, sign, digits, hdigits, hc, hsign, rfl⟩ :=
      mem_exponent.mp matched
    obtain ⟨rest, rfl⟩ := front
    refine le_trans (le_of_eq ?_) (length_le_exponent hc hsign hdigits)
    rw [List.length_cons, List.length_append]
    omega

theorem head_fraction {c : Char} {text : List Char}
    (h : c :: text ∈ 1 + Pattern.fraction) : c = '.' := by
  rcases mem_one_add.mp h with none | some
  · cases none
  · obtain ⟨_, _, same⟩ := mem_fraction.mp some
    exact (List.cons.inj same).1

theorem head_exponent {c : Char} {text : List Char}
    (h : c :: text ∈ 1 + Pattern.exponent) : c = 'e' ∨ c = 'E' := by
  rcases mem_one_add.mp h with none | some
  · cases none
  · obtain ⟨_, _, _, _, hc, _, same⟩ := mem_exponent.mp some
    exact (List.cons.inj same).1 ▸ hc

theorem isDigit_of_mem {text : List Char} (h : text ∈ digit∗) :
    ∀ c ∈ text, isDigit c = true := by
  rw [Pattern.digit_eq] at h
  exact Pattern.mem_kstar_oneOf.mp h

theorem digit_or_point_of_mem {text : List Char}
    (h : text ∈ digit∗ * (1 + Pattern.fraction)) :
    ∀ c ∈ text, isDigit c = true ∨ c = '.' := by
  obtain ⟨whole, hwhole, part, hpart, rfl⟩ := Language.mem_mul.mp h
  intro c hc
  rcases List.mem_append.mp hc with hc | hc
  · exact Or.inl (isDigit_of_mem hwhole c hc)
  · rcases mem_one_add.mp hpart with rfl | some
    · cases hc
    · obtain ⟨digits, hdigits, rfl⟩ := mem_fraction.mp some
      rcases List.mem_cons.mp hc with rfl | hc
      · exact Or.inr rfl
      · exact Or.inl ((mem_digits.mp hdigits).2 c hc)

/-- What follows the first digit of a decimal literal. -/
theorem scans_decimalTail : Scans decimalTail
    (digit∗ * (1 + Pattern.fraction) * (1 + Pattern.exponent)) := by
  have digits : Scans (run isDigit) digit∗ :=
    Pattern.digit_eq ▸ scans_run isDigit
  have whole := digits.append scans_fraction
    (p := fun c => isDigit c = true) (fun _ => isDigit_of_mem) <| by
      intro c text h
      rw [head_fraction h]
      decide
  refine whole.append scans_exponent
    (p := fun c => isDigit c = true ∨ c = '.')
    (fun _ => digit_or_point_of_mem) ?_
  intro c text h
  rcases head_exponent h with rfl | rfl
  · decide
  · decide

/-! ## What `longest` finds -/

/-- A pattern of the kind `kind` matches `c` and `n` characters of `cs`. -/
def Finds (c : Char) (cs : List Char) (kind : Kind) (n : Nat) : Prop :=
  n ≤ cs.length ∧
    ∃ pattern : Pattern, pattern.kind = kind ∧ c :: cs.take n ∈ pattern.language

theorem Finds.spelled {c : Char} {cs : List Char} {token : Token}
    (spelling : (String.singleton c, token) ∈ Pattern.spellings) :
    Finds c cs (.fixed token) 0 :=
  ⟨Nat.zero_le _, .fixed _ token, rfl,
    Pattern.mem_fixed.mpr ⟨spelling, by simp⟩⟩

theorem radixTail?_eq_some {cs : List Char} {kind : Kind} {n : Nat}
    (h : radixTail? cs = some (kind, n)) :
    ∃ mark rest base, cs = mark :: rest ∧ base? mark = some base ∧
      run (Digits.isDigit base) rest ≠ 0 ∧
      kind = .radix base ∧ n = 1 + run (Digits.isDigit base) rest := by
  cases cs with
  | nil => cases h
  | cons mark rest =>
      simp only [radixTail?] at h
      split at h
      · rename_i base hbase
        split at h
        · cases h
        · rename_i some
          cases h
          exact ⟨mark, rest, base, rfl, hbase, some, rfl, rfl⟩
      · cases h

theorem base?_eq_some {mark : Char} {base : Nat} (h : base? mark = some base) :
    ∃ r : Pattern.Radix, r.base = base := by
  unfold base? at h
  split at h
  all_goals cases h
  · exact ⟨.hexadecimal, rfl⟩
  · exact ⟨.hexadecimal, rfl⟩
  · exact ⟨.octal, rfl⟩
  · exact ⟨.octal, rfl⟩
  · exact ⟨.binary, rfl⟩
  · exact ⟨.binary, rfl⟩

theorem finds_radix {cs : List Char} {kind : Kind} {n : Nat}
    (h : radixTail? cs = some (kind, n)) : Finds '0' cs kind n := by
  obtain ⟨mark, rest, base, rfl, hbase, some, rfl, rfl⟩ :=
    radixTail?_eq_some h
  obtain ⟨r, rfl⟩ := base?_eq_some hbase
  rw [Nat.add_comm]
  refine ⟨Nat.succ_le_succ (run_le_length _ _), .radix r, rfl, ?_⟩
  rw [List.take_succ_cons]
  exact Pattern.mem_radix.mpr
    ⟨mark, _, hbase, take_run_ne_nil some, mem_take_run, rfl⟩

theorem finds_decimal {c : Char} (cs : List Char) (hc : isDigit c = true) :
    Finds c cs .decimal (decimalTail cs) :=
  ⟨scans_decimalTail.within cs, .decimal, rfl,
    Pattern.cons_mem_decimal.mpr ⟨hc, scans_decimalTail.matched cs⟩⟩

theorem finds_numeral {c : Char} {cs : List Char} {kind : Kind} {n : Nat}
    (hc : isDigit c = true) (h : numeral c cs = (kind, n)) :
    Finds c cs kind n := by
  unfold numeral at h
  split at h
  · rename_i zero
    cases tail : radixTail? cs with
    | none =>
        rw [tail] at h
        cases h
        exact finds_decimal cs hc
    | some found =>
        rw [tail] at h
        cases h
        exact zero ▸ finds_radix tail
  · cases h
    exact finds_decimal cs hc

theorem finds_pointed {cs : List Char} (some : fraction ('.' :: cs) ≠ 0) :
    Finds '.' cs .decimal (fraction ('.' :: cs) - 1 +
      exponent (cs.drop (fraction ('.' :: cs) - 1))) := by
  have within := scans_fraction.within ('.' :: cs)
  have matched := scans_fraction.matched ('.' :: cs)
  obtain ⟨k, hk⟩ := Nat.exists_eq_succ_of_ne_zero some
  rw [hk, List.length_cons] at within
  rw [hk, List.take_succ_cons] at matched
  rw [hk, Nat.succ_sub_one]
  have power := scans_exponent.within (cs.drop k)
  rw [List.length_drop] at power
  refine ⟨by omega, .pointed, rfl, ?_⟩
  rw [List.take_add, ← List.cons_append]
  refine Language.append_mem_mul ?_ (scans_exponent.matched _)
  exact (mem_one_add.mp matched).resolve_left (List.cons_ne_nil _ _)

theorem finds_doubled {c next : Char} {cs : List Char} {long : Token}
    {short : Option Kind} {kind : Kind} {n : Nat}
    (twice : (String.ofList [c, next], long) ∈ Pattern.spellings)
    (once : short = none ∨ ∃ token, short = some (.fixed token) ∧
      (String.singleton c, token) ∈ Pattern.spellings)
    (h : doubled next (.fixed long) short cs = some (kind, n)) :
    Finds c cs kind n := by
  have alone (h : short.map (·, 0) = some (kind, n)) : Finds c cs kind n := by
    rcases once with rfl | ⟨token, rfl, spelling⟩
    · cases h
    · cases h
      exact .spelled spelling
  cases cs with
  | nil => exact alone h
  | cons d rest =>
      simp only [doubled] at h
      split at h
      · rename_i same
        cases h
        refine ⟨by simp, .fixed _ long, rfl,
          Pattern.mem_fixed.mpr ⟨twice, by simp [same]⟩⟩
      · exact alone h

theorem finds_symbol {c : Char} {cs : List Char} {kind : Kind} {n : Nat}
    (h : symbol c cs = some (kind, n)) : Finds c cs kind n := by
  unfold symbol at h
  split at h
  · -- a point
    simp only at h
    split at h
    · cases h
    · rename_i some
      cases h
      exact finds_pointed some
  · cases h
    exact ⟨run_le_length _ _, .reference, rfl,
      Pattern.mem_reference.mpr ⟨_, mem_take_run, rfl⟩⟩
  · split at h
    · rename_i rest
      cases h
      refine ⟨?_, .comment, rfl, ?_⟩
      · rw [Nat.add_comm]
        exact Nat.succ_le_succ (run_le_length _ _)
      · rw [Nat.add_comm, List.take_succ_cons]
        exact Pattern.mem_comment.mpr ⟨_, mem_take_run, rfl⟩
    · cases h
      exact .spelled (by decide)
  · exact finds_doubled (by decide) (.inr ⟨_, rfl, by decide⟩) h
  · exact finds_doubled (by decide) (.inl rfl) h
  · exact finds_doubled (by decide) (.inl rfl) h
  · cases h
    exact .spelled (by decide)
  · cases h
    exact ⟨Nat.zero_le _, .dash, rfl, rfl⟩
  all_goals cases h
  all_goals exact .spelled (by decide)

/-- What `longest` finds is a lexeme of the kind it names. -/
theorem finds_longest {c : Char} {cs : List Char} {kind : Kind} {n : Nat}
    (h : longest c cs = some (kind, n)) : Finds c cs kind n := by
  unfold longest at h
  split at h
  · rename_i hc
    exact finds_numeral hc (Option.some.inj h)
  · split at h
    · rename_i hc
      cases h
      exact ⟨run_le_length _ _, .identifier, rfl,
        Pattern.cons_mem_identifier.mpr ⟨hc, mem_take_run⟩⟩
    · split at h
      · rename_i hc
        cases h
        exact ⟨run_le_length _ _, .blanks, rfl,
          Pattern.cons_mem_blanks.mpr ⟨hc, mem_take_run⟩⟩
      · exact finds_symbol h

/-- What is found reaches past `length` characters, or exactly so far with a
lexeme of the kind `kind`. -/
def Covers (found : Option (Kind × Nat)) (kind : Kind) (length : Nat) : Prop :=
  ∃ other n, found = some (other, n) ∧
    (length < n ∨ length = n ∧ other = kind)

theorem Covers.of_le {kind : Kind} {length n : Nat} (h : length ≤ n) :
    Covers (some (kind, n)) kind length :=
  ⟨kind, n, rfl, (Nat.lt_or_eq_of_le h).imp_right fun same => ⟨same, rfl⟩⟩

theorem Covers.of_lt {kind other : Kind} {length n : Nat} (h : length < n) :
    Covers (some (other, n)) kind length :=
  ⟨other, n, rfl, Or.inl h⟩

theorem longest_of_isDigit {c : Char} (hc : isDigit c = true)
    (cs : List Char) : longest c cs = some (numeral c cs) :=
  if_pos hc

theorem isDigit_of_isLetter {c : Char} (hc : isLetter c = true) :
    isDigit c = false := by
  rw [← Bool.not_eq_true, isDigit, Pattern.isDigit_iff]
  simp only [isLetter, Char.isAlpha, Char.isLower, Char.isUpper,
    Bool.or_eq_true, Bool.and_eq_true, decide_eq_true_eq, beq_iff_eq,
    UInt32.le_iff_toNat_le, ge_iff_le] at hc
  rcases hc with (hc | hc) | rfl
  · have : 65 ≤ c.toNat := hc.1
    omega
  · have : 97 ≤ c.toNat := hc.1
    omega
  · decide

theorem longest_of_isLetter {c : Char} (hc : isLetter c = true)
    (cs : List Char) : longest c cs = some (.word, run isNameChar cs) := by
  rw [longest, isDigit_of_isLetter hc, if_neg Bool.false_ne_true, if_pos hc]

theorem longest_of_isBlank {c : Char} (hc : isBlank c = true)
    (cs : List Char) : longest c cs = some (.skipped, run isBlank cs) := by
  simp only [isBlank, Bool.or_eq_true, beq_iff_eq] at hc
  rcases hc with ((rfl | rfl) | rfl) | rfl
  · rfl
  · rfl
  · rfl
  · rfl

/-- A mark is no part of a decimal literal. -/
theorem decimalTail_of_base? {mark : Char} {base : Nat}
    (h : base? mark = some base) (cs : List Char) :
    decimalTail (mark :: cs) = 0 := by
  unfold base? at h
  split at h
  all_goals cases h
  all_goals rfl

theorem covers_decimal {c : Char} {text cs : List Char}
    (h : c :: text ∈ Pattern.decimal.language) (front : text <+: cs) :
    Covers (longest c cs) .decimal text.length := by
  obtain ⟨hc, htext⟩ := Pattern.cons_mem_decimal.mp h
  have reached := scans_decimalTail.maximal htext front
  rw [longest_of_isDigit hc, numeral]
  split
  · cases tail : radixTail? cs with
    | none => exact .of_le reached
    | some found =>
        obtain ⟨mark, rest, base, rfl, hbase, _, _, longer⟩ :=
          radixTail?_eq_some tail
        rw [decimalTail_of_base? hbase] at reached
        exact .of_lt (by omega)
  · exact .of_le reached

theorem covers_pointed {c : Char} {text cs : List Char}
    (h : c :: text ∈ Pattern.pointed.language) (front : text <+: cs) :
    Covers (longest c cs) .decimal text.length := by
  have whole := scans_fraction.append scans_exponent
    (p := fun c => isDigit c = true ∨ c = '.')
    (fun _ h => digit_or_point_of_mem
      (Language.append_mem_mul (Language.nil_mem_kstar _) h)) <| by
      intro c text h
      rcases head_exponent h with rfl | rfl
      · decide
      · decide
  obtain ⟨part, hpart, power, hpower, same⟩ := Language.mem_mul.mp h
  obtain ⟨digits, -, rfl⟩ := mem_fraction.mp hpart
  obtain ⟨rfl, rfl⟩ := List.cons.inj same
  have front : '.' :: digits ++ power <+: '.' :: cs :=
    List.cons_prefix_cons.mpr ⟨rfl, front⟩
  have present : 1 ≤ fraction ('.' :: cs) :=
    le_trans (Nat.le_add_left _ _) (scans_fraction.maximal
      (mem_one_add.mpr (Or.inr hpart))
      ((List.prefix_append _ power).trans front))
  have reached := whole.maximal (Language.append_mem_mul
    (mem_one_add.mpr (Or.inr hpart)) hpower) front
  have found : longest '.' cs = some (.decimal, fraction ('.' :: cs) - 1 +
      exponent (cs.drop (fraction ('.' :: cs) - 1))) :=
    if_neg (Nat.ne_of_gt present)
  rw [found]
  obtain ⟨k, hk⟩ := Nat.exists_eq_add_of_le' present
  simp only [hk, List.drop_succ_cons] at reached ⊢
  refine .of_le ?_
  rw [Nat.add_sub_cancel]
  rw [Nat.add_right_comm] at reached
  exact Nat.le_of_succ_le_succ reached

theorem covers_radix {r : Pattern.Radix} {c : Char} {text cs : List Char}
    (h : c :: text ∈ (Pattern.radix r).language) (front : text <+: cs) :
    Covers (longest c cs) (.radix r.base) text.length := by
  obtain ⟨mark, digits, hmark, nonempty, inside, same⟩ :=
    Pattern.mem_radix.mp h
  obtain ⟨rfl, rfl⟩ := List.cons.inj same
  obtain ⟨rest, rfl⟩ := front
  have reached := length_le_run inside (List.prefix_append digits rest)
  have present := List.length_pos_of_ne_nil nonempty
  have tail : radixTail? (mark :: digits ++ rest) = some (.radix r.base,
      1 + run (Digits.isDigit r.base) (digits ++ rest)) := by
    simp only [List.cons_append, radixTail?, hmark]
    exact if_neg (by omega)
  rw [longest_of_isDigit (by decide), numeral, if_pos rfl, tail]
  refine .of_le ?_
  rw [List.length_cons]
  omega

theorem covers_comment {c : Char} {text cs : List Char}
    (h : c :: text ∈ Pattern.comment.language) (front : text <+: cs) :
    Covers (longest c cs) .skipped text.length := by
  obtain ⟨body, inside, same⟩ := Pattern.mem_comment.mp h
  obtain ⟨rfl, rfl⟩ := List.cons.inj same
  obtain ⟨rest, rfl⟩ := front
  refine Covers.of_le (n := 1 + run isCommentChar (body ++ rest)) ?_
  rw [List.length_cons, Nat.add_comm]
  exact Nat.add_le_add_left
    (length_le_run inside (List.prefix_append body rest)) 1

theorem covers_doubled {next : Char} {long : Kind} {short : Option Kind}
    {cs : List Char} {kind : Kind} (h : short = some kind) :
    Covers (doubled next long short cs) kind 0 := by
  subst h
  cases cs with
  | nil => exact .of_le (Nat.zero_le _)
  | cons d rest =>
      simp only [doubled]
      split
      · exact .of_lt Nat.one_pos
      · exact .of_le (Nat.zero_le _)

theorem covers_slash (cs : List Char) :
    Covers (longest '/' cs) (.fixed .divide) 0 := by
  have found : longest '/' cs = symbol '/' cs := rfl
  rw [found]
  cases cs with
  | nil => exact .of_le (Nat.le_refl 0)
  | cons d rest =>
      by_cases same : d = '/'
      · subst same
        exact .of_lt (n := 1 + run isCommentChar rest) (by omega)
      · have alone : symbol '/' (d :: rest) = some (.fixed .divide, 0) := by
          simp [symbol, same]
        rw [alone]
        exact .of_le (Nat.le_refl 0)

theorem covers_fixed {spelling : String} {token : Token} {c : Char}
    {text cs : List Char}
    (h : c :: text ∈ (Pattern.fixed spelling token).language)
    (front : text <+: cs) :
    Covers (longest c cs) (.fixed token) text.length := by
  obtain ⟨listed, same⟩ := Pattern.mem_fixed.mp h
  fin_cases listed
  all_goals simp only [String.reduceToList, List.cons.injEq] at same
  all_goals obtain ⟨rfl, rfl⟩ := same
  -- one character, two of them, one that may be followed by its double
  all_goals first
    | exact .of_le (Nat.le_refl 0)
    | (obtain ⟨rest, rfl⟩ := front
       exact .of_le (Nat.le_refl 1))
    | exact covers_doubled rfl
    | exact covers_slash cs

/-- **No pattern reaches further than `longest`**, and where one reaches as
far, the kind is its own. -/
theorem covers_longest {pattern : Pattern} {c : Char} {text cs : List Char}
    (h : c :: text ∈ pattern.language) (front : text <+: cs) :
    Covers (longest c cs) pattern.kind text.length := by
  cases pattern with
  | decimal => exact covers_decimal h front
  | pointed => exact covers_pointed h front
  | radix r => exact covers_radix h front
  | reference =>
      obtain ⟨digits, inside, same⟩ := Pattern.mem_reference.mp h
      obtain ⟨rfl, rfl⟩ := List.cons.inj same
      exact .of_le (length_le_run inside front)
  | xor =>
      have same : c :: text = ['x', 'o', 'r'] := by
        simpa using Pattern.mem_spelled.mp h
      obtain ⟨rfl, rfl⟩ := List.cons.inj same
      rw [longest_of_isLetter (by decide)]
      have inside : ∀ d ∈ ['o', 'r'], isNameChar d = true := by
        simp [isNameChar, isLetter, Char.isAlpha, Char.isLower]
      exact .of_le (length_le_run inside front)
  | identifier =>
      obtain ⟨hc, inside⟩ := Pattern.cons_mem_identifier.mp h
      rw [longest_of_isLetter hc]
      exact .of_le (length_le_run inside front)
  | comment => exact covers_comment h front
  | blanks =>
      obtain ⟨hc, inside⟩ := Pattern.cons_mem_blanks.mp h
      rw [longest_of_isBlank hc]
      exact .of_le (length_le_run inside front)
  | dash =>
      have same : c :: text = ['-'] := by
        simpa using Pattern.mem_spelled.mp h
      obtain ⟨rfl, rfl⟩ := List.cons.inj same
      exact .of_le (Nat.le_refl 0)
  | fixed spelling token => exact covers_fixed h front

/-- A text that a pattern matches is one lexeme. -/
theorem longest_of_mem {pattern : Pattern} {c : Char} {text : List Char}
    (matched : c :: text ∈ pattern.language) :
    longest c text = some (pattern.kind, text.length) := by
  obtain ⟨kind, n, found, longer | ⟨rfl, rfl⟩⟩ :=
    covers_longest matched List.prefix_rfl
  · have within := (finds_longest found).1
    omega
  · exact found

end Lexeme

end Reckoner
