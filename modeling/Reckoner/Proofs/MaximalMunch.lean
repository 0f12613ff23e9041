/-
# Maximal munch

A **reading** of a source takes it lexeme by lexeme from the left: each time
the longest text that some pattern matches, with `xor` before a name where
both match it.  Blanks and comments are passed over, any other lexeme adds
its token, and a `-` is a minus if the last token so far ends an operand.
A reading ends with a `finish` where the source does, and otherwise where no
pattern matches or where a literal does not fit in 64 bits; the error names
the column, counted in bytes from one.

A reading is a relation and takes no notice of how lexemes are found.  Nor
does it look at a text to tell the two errors apart, as `Source.complaint`
does by the first character; `Source.pieces_unmatched` and
`Source.pieces_tooLarge` say that this is the same.  The result is that
`tokenize` gives the reading of its source: there is one, and there is no
other.
-/
import Reckoner.Proofs.Longest
import Reckoner.Source

namespace Reckoner

/-! ## Selecting a lexeme -/

/-- `text` is the lexeme at the front of `source`, read by `pattern`. -/
structure Selects (source : List Char) (pattern : Pattern)
    (text : List Char) : Prop where
  matched : text ∈ pattern.language
  nonempty : text ≠ []
  front : text <+: source
  /-- No pattern matches a longer front. -/
  longest {other : Pattern} {longer : List Char} : longer ∈ other.language →
    longer <+: source → longer.length ≤ text.length
  /-- The word `xor` is an operator and no name. -/
  keyword : pattern = .identifier → text ∉ Pattern.xor.language

/-- No pattern matches at the front of `source`. -/
def Unmatched (source : List Char) : Prop :=
  ∀ (pattern : Pattern) (text : List Char), text ∈ pattern.language →
    text ≠ [] → ¬ text <+: source

/-! ## Readings -/

/-- What a lexeme does to the tokens before it. -/
inductive Meaning where
  | skipped
  | token (t : Token)
  | tooLarge

/-- A number in 64 bits, as the token it makes. -/
def Meaning.ofNat (token : Nat → Token) (n : Nat) : Meaning :=
  if n < 2 ^ 64 then .token (token n) else .tooLarge

/-- What `text` means where the pattern matches it behind the tokens
`emitted`. -/
def Pattern.meaning (emitted : List Token) (text : List Char) :
    Pattern → Meaning
  | decimal | pointed => .token (.number (Decimal.ofLiteral text).toFloat)
  | radix r =>
    .ofNat (fun n => .number (Binary.ofNat n))
      (Digits.ofList r.base (text.drop 2))
  | reference =>
    if text = ['$'] then .token (.reference 1)
    else .ofNat .reference (Digits.ofList 10 (text.drop 1))
  | xor => .token .bitXor
  | identifier => .token (.name (String.ofList text))
  | comment | blanks => .skipped
  | dash =>
    .token (if emitted.getLast?.any Token.endsOperand then .minus else .negate)
  | fixed _ token => .token token

namespace Source

/-- The column behind a text: its bytes, counted from one. -/
def column (before : List Char) : Nat :=
  (String.ofList before).utf8ByteSize + 1

end Source

/-- `Reading before emitted after result`: behind `before`, which has given
the tokens `emitted`, the rest `after` of the source leads to `result`. -/
inductive Reading : List Char → List Token → List Char →
    Except LexicalError (List Token) → Prop
  | finish {before : List Char} {emitted : List Token} :
      Reading before emitted [] (.ok (emitted ++ [.finish]))
  | skip {before text rest : List Char} {emitted : List Token}
      {pattern : Pattern} {result : Except LexicalError (List Token)} :
      Selects (text ++ rest) pattern text →
      pattern.meaning emitted text = .skipped →
      Reading (before ++ text) emitted rest result →
      Reading before emitted (text ++ rest) result
  | emit {before text rest : List Char} {emitted : List Token} {t : Token}
      {pattern : Pattern} {result : Except LexicalError (List Token)} :
      Selects (text ++ rest) pattern text →
      pattern.meaning emitted text = .token t →
      Reading (before ++ text) (emitted ++ [t]) rest result →
      Reading before emitted (text ++ rest) result
  | tooLarge {before text rest : List Char} {emitted : List Token}
      {pattern : Pattern} :
      Selects (text ++ rest) pattern text →
      pattern.meaning emitted text = .tooLarge →
      Reading before emitted (text ++ rest)
        (.error (.literalTooLarge (String.ofList text) (Source.column before)))
  | unexpected {before rest : List Char} {emitted : List Token} {c : Char} :
      Unmatched (c :: rest) →
      Reading before emitted (c :: rest) (.error
        (.unexpectedCharacter (String.singleton c) (Source.column before)))

/-! ## The scanner selects -/

namespace Lexeme

theorem longest_of_selects {c : Char} {text cs : List Char}
    {pattern : Pattern} (h : Selects (c :: cs) pattern (c :: text)) :
    longest c cs = some (pattern.kind, text.length) := by
  have front := (List.cons_prefix_cons.mp h.front).2
  obtain ⟨kind, n, found, longer | ⟨same, rfl⟩⟩ :=
    covers_longest h.matched front
  · obtain ⟨within, other, -, hother⟩ := finds_longest found
    have shorter := h.longest hother
      (List.cons_prefix_cons.mpr ⟨rfl, List.take_prefix n cs⟩)
    rw [List.length_cons, List.length_cons, List.length_take,
      Nat.min_eq_left within] at shorter
    omega
  · rw [found, same]

/-- A matched text that reaches as far as the scanner is selected. -/
theorem selects_of_mem {c : Char} {text cs : List Char} {pattern : Pattern}
    {kind : Kind} (matched : c :: text ∈ pattern.language)
    (front : text <+: cs) (found : longest c cs = some (kind, text.length))
    (keyword : pattern = .identifier → c :: text ∉ Pattern.xor.language) :
    Selects (c :: cs) pattern (c :: text) where
  matched := matched
  nonempty := List.cons_ne_nil _ _
  front := List.cons_prefix_cons.mpr ⟨rfl, front⟩
  longest {other longer} hother hfront := by
    cases longer with
    | nil => exact Nat.zero_le _
    | cons d longer =>
        obtain ⟨rfl, inside⟩ := List.cons_prefix_cons.mp hfront
        obtain ⟨_, m, found', reached⟩ := covers_longest hother inside
        obtain ⟨rfl, rfl⟩ := Prod.mk.inj (Option.some.inj (found.symm.trans found'))
        rw [List.length_cons, List.length_cons]
        omega
  keyword := keyword

theorem selects_of_longest {c : Char} {cs : List Char} {kind : Kind} {n : Nat}
    (h : longest c cs = some (kind, n)) :
    ∃ pattern : Pattern, Selects (c :: cs) pattern (c :: cs.take n) := by
  obtain ⟨within, pattern, -, matched⟩ := finds_longest h
  have front : cs.take n <+: cs := List.take_prefix n cs
  have found : longest c cs = some (kind, (cs.take n).length) := by
    rw [List.length_take, Nat.min_eq_left within]
    exact h
  by_cases keyword : c :: cs.take n ∈ Pattern.xor.language
  · exact ⟨.xor, selects_of_mem keyword front found
      fun other => absurd other (by decide)⟩
  · exact ⟨pattern, selects_of_mem matched front found fun _ => keyword⟩

theorem longest_eq_none_iff {c : Char} {cs : List Char} :
    longest c cs = none ↔ Unmatched (c :: cs) := by
  constructor
  · intro h pattern text matched nonempty front
    cases text with
    | nil => exact nonempty rfl
    | cons d text =>
        obtain ⟨rfl, inside⟩ := List.cons_prefix_cons.mp front
        obtain ⟨_, _, found, _⟩ := covers_longest matched inside
        rw [h] at found
        cases found
  · intro h
    cases found : longest c cs with
    | none => rfl
    | some found' =>
        obtain ⟨pattern, selected⟩ := selects_of_longest found
        exact absurd selected.front
          (h pattern _ selected.matched selected.nonempty)

theorem ne_of_longest_eq_none {c : Char} {cs : List Char}
    (h : longest c cs = none) : c ≠ '$' ∧ c ≠ '0' := by
  constructor
  · rintro rfl
    have found : longest '$' cs = some (.reference, run isDigit cs) := rfl
    rw [h] at found
    cases found
  · rintro rfl
    have found : longest '0' cs = some (numeral '0' cs) := rfl
    rw [h] at found
    cases found

/-- Only references and literals in another base can lack a meaning. -/
theorem head_of_read_eq_none {text : List Char} {pattern : Pattern}
    (matched : text ∈ pattern.language)
    (large : read text pattern.kind = none) :
    text.head? = some '$' ∨ text.head? = some '0' := by
  cases pattern with
  | radix r =>
      obtain ⟨mark, digits, -, -, -, rfl⟩ := Pattern.mem_radix.mp matched
      exact Or.inr rfl
  | reference =>
      obtain ⟨digits, -, rfl⟩ := Pattern.mem_reference.mp matched
      exact Or.inl rfl
  | _ => cases large

/-- The meaning of a text as the scanner reads it. -/
def meaningOf (emitted : List Token) : Option Piece → Meaning
  | none => .tooLarge
  | some .nothing => .skipped
  | some .dash =>
    .token (if emitted.getLast?.any Token.endsOperand then .minus else .negate)
  | some (.token t) => .token t

theorem fitting_of_lt {n : Nat} (small : n < 2 ^ 64) :
    fitting n = some n :=
  if_pos small

theorem meaningOf_fitting (emitted : List Token) (token : Nat → Token)
    (n : Nat) :
    meaningOf emitted ((fitting n).map fun n => .token (token n)) =
      .ofNat token n := by
  rw [fitting, Meaning.ofNat, show Nat.pow 2 64 = 2 ^ 64 from rfl]
  split
  · rfl
  · rfl

theorem meaningOf_read {source text : List Char} {pattern : Pattern}
    (h : Selects source pattern text) (emitted : List Token) :
    meaningOf emitted (read text pattern.kind) =
      pattern.meaning emitted text := by
  cases pattern with
  | decimal => rfl
  | pointed => rfl
  | radix r => exact meaningOf_fitting emitted _ _
  | reference =>
      obtain ⟨digits, -, rfl⟩ := Pattern.mem_reference.mp h.matched
      cases digits with
      | nil => rfl
      | cons d digits =>
          rw [Pattern.meaning, if_neg (by simp)]
          exact meaningOf_fitting emitted _ _
  | xor =>
      have same : text = ['x', 'o', 'r'] := by
        simpa using Pattern.mem_spelled.mp h.matched
      rw [same]
      rfl
  | identifier =>
      have other : text ≠ ['x', 'o', 'r'] := by
        intro same
        exact h.keyword rfl (Pattern.mem_spelled.mpr (by simpa using same))
      simp only [Pattern.kind, read, if_neg other]
      rfl
  | comment => rfl
  | blanks => rfl
  | dash => rfl
  | fixed spelling token => rfl

end Lexeme

/-! ## The scanner reads -/

namespace Source

theorem foldl_utf8Size (text : List Char) (n : Nat) :
    text.foldl (fun n c => n + c.utf8Size) n =
      n + (String.ofList text).utf8ByteSize := by
  induction text generalizing n with
  | nil => rfl
  | cons c text ih =>
      rw [List.foldl_cons, ih, String.ofList_cons, String.utf8ByteSize_append,
        String.utf8ByteSize_singleton, Nat.add_assoc]

theorem byteLength_eq (text : List Char) :
    byteLength text = (String.ofList text).utf8ByteSize := by
  rw [byteLength, foldl_utf8Size, Nat.zero_add]

theorem byteLength_append (first second : List Char) :
    byteLength (first ++ second) = byteLength first + byteLength second := by
  rw [byteLength_eq, byteLength_eq, byteLength_eq, String.ofList_append,
    String.utf8ByteSize_append]

theorem column_append (before text : List Char) :
    column (before ++ text) = column before + byteLength text := by
  rw [byteLength_eq, column, column, String.ofList_append,
    String.utf8ByteSize_append, Nat.add_right_comm]

/-- Where no lexeme begins, the character there is unexpected. -/
theorem pieces_unmatched {c : Char} {cs : List Char}
    (h : Lexeme.longest c cs = none) (column : Nat) :
    pieces column (c :: cs) =
      .error (.unexpectedCharacter (String.ofList [c]) column) := by
  obtain ⟨no_reference, no_zero⟩ := Lexeme.ne_of_longest_eq_none h
  rw [pieces, h]
  simp [complaint, no_reference, no_zero]

/-- A lexeme without a meaning is too large. -/
theorem pieces_tooLarge {c : Char} {cs : List Char} {kind : Lexeme.Kind}
    {n : Nat} (h : Lexeme.longest c cs = some (kind, n))
    (large : Lexeme.read (c :: cs.take n) kind = none) (column : Nat) :
    pieces column (c :: cs) =
      .error (.literalTooLarge (String.ofList (c :: cs.take n)) column) := by
  obtain ⟨-, pattern, rfl, matched⟩ := Lexeme.finds_longest h
  rw [pieces, h]
  simp only [large]
  rw [complaint, if_pos (Lexeme.head_of_read_eq_none matched large)]

theorem pieces_step {c : Char} {cs : List Char} {kind : Lexeme.Kind}
    {n : Nat} {piece : Lexeme.Piece}
    (h : Lexeme.longest c cs = some (kind, n))
    (small : Lexeme.read (c :: cs.take n) kind = some piece) (column : Nat) :
    pieces column (c :: cs) =
      (pieces (column + byteLength (c :: cs.take n)) (cs.drop n)).map
        (piece :: ·) := by
  rw [pieces, h]
  simp only [small]
  cases pieces (column + byteLength (c :: cs.take n)) (cs.drop n) with
  | ok rest => rfl
  | error cause => rfl

/-- A text that is one lexeme makes one contribution. -/
theorem pieces_of_mem {pattern : Pattern} {text : List Char}
    (matched : text ∈ pattern.language) {piece : Lexeme.Piece}
    (small : Lexeme.read text pattern.kind = some piece) (column : Nat) :
    pieces column text = .ok [piece] := by
  cases text with
  | nil => exact absurd rfl (Pattern.ne_nil_of_mem matched)
  | cons c cs =>
      have found := Lexeme.longest_of_mem matched
      rw [pieces_step found (by rw [List.take_length]; exact small),
        List.drop_length, pieces]
      rfl

/-- What holds of every text if it passes along each lexeme. -/
@[elab_as_elim]
theorem pieces_induction {motive : Nat → List Char → Prop}
    (done : ∀ column, motive column [])
    (unmatched : ∀ column c cs, Lexeme.longest c cs = none →
      motive column (c :: cs))
    (tooLarge : ∀ column c cs kind n,
      Lexeme.longest c cs = some (kind, n) →
      Lexeme.read (c :: cs.take n) kind = none → motive column (c :: cs))
    (step : ∀ column c cs kind n piece,
      Lexeme.longest c cs = some (kind, n) →
      Lexeme.read (c :: cs.take n) kind = some piece →
      motive (column + byteLength (c :: cs.take n)) (cs.drop n) →
      motive column (c :: cs))
    (column : Nat) (cs : List Char) : motive column cs := by
  induction column, cs using pieces.induct with
  | case1 column => exact done column
  | case2 column c cs h => exact unmatched column c cs h
  | case3 column c cs kind n h text large =>
      exact tooLarge column c cs kind n h large
  | case4 column c cs kind n h text piece small rest _ ih =>
      exact step column c cs kind n piece h small ih
  | case5 column c cs kind n h text piece small cause _ ih =>
      exact step column c cs kind n piece h small ih

/-- What `tokenize` makes of the rest of a source. -/
def continued (before : List Char) (emitted : List Token) (after : List Char) :
    Except LexicalError (List Token) :=
  match pieces (column before) after with
  | .ok pieces => .ok (emitted ++
      assemble (emitted.getLast?.any Token.endsOperand) pieces ++ [.finish])
  | .error cause => .error cause

theorem tokenize_eq_continued (source : String) :
    tokenize source = continued [] [] source.toList := by
  rw [tokenize, continued, show column [] = 1 from rfl]
  rfl

theorem continued_nil (before : List Char) (emitted : List Token) :
    continued before emitted [] = .ok (emitted ++ [.finish]) := by
  simp [continued, pieces, assemble]

theorem continued_unmatched {c : Char} {rest : List Char}
    (h : Unmatched (c :: rest)) (before : List Char) (emitted : List Token) :
    continued before emitted (c :: rest) = .error
      (.unexpectedCharacter (String.singleton c) (column before)) := by
  rw [continued, pieces_unmatched (Lexeme.longest_eq_none_iff.mpr h)]
  simp only [String.singleton_eq_ofList]

/-- One lexeme, and on with the rest. -/
theorem continued_selects {text rest : List Char} {pattern : Pattern}
    (h : Selects (text ++ rest) pattern text) (before : List Char)
    (emitted : List Token) :
    continued before emitted (text ++ rest) =
      match pattern.meaning emitted text with
      | .skipped => continued (before ++ text) emitted rest
      | .token t => continued (before ++ text) (emitted ++ [t]) rest
      | .tooLarge => .error
          (.literalTooLarge (String.ofList text) (column before)) := by
  cases text with
  | nil => exact absurd rfl h.nonempty
  | cons c text =>
      have meaning := Lexeme.meaningOf_read h emitted
      rw [List.cons_append] at h ⊢
      have found := Lexeme.longest_of_selects h
      have lexeme : (text ++ rest).take text.length = text := List.take_left
      have behind : (text ++ rest).drop text.length = rest := List.drop_left
      simp only [continued]
      rw [← meaning]
      cases read : Lexeme.read (c :: text) pattern.kind with
      | none =>
          rw [← lexeme] at read
          rw [pieces_tooLarge found read, lexeme]
          rfl
      | some piece =>
          rw [← lexeme] at read
          rw [pieces_step found read, lexeme, behind, column_append]
          cases pieces (column before + byteLength (c :: text)) rest with
          | error cause => cases piece <;> rfl
          | ok following =>
              cases piece with
              | nothing => rfl
              | dash =>
                  simp only [Lexeme.meaningOf, Except.map, assemble,
                    List.getLast?_concat, Option.any_some, List.append_assoc,
                    List.cons_append]
                  split
                  · rfl
                  · rfl
              | token t =>
                  simp only [Lexeme.meaningOf, Except.map, assemble,
                    List.getLast?_concat, Option.any_some, List.append_assoc,
                    List.cons_append, List.nil_append]

end Source

/-! ## Sources have one reading -/

namespace Reading

theorem eq_continued {before after : List Char} {emitted : List Token}
    {result : Except LexicalError (List Token)}
    (h : Reading before emitted after result) :
    result = Source.continued before emitted after := by
  induction h with
  | finish => rw [Source.continued_nil]
  | skip selected meaning _ ih =>
      rw [Source.continued_selects selected, meaning]
      exact ih
  | emit selected meaning _ ih =>
      rw [Source.continued_selects selected, meaning]
      exact ih
  | tooLarge selected meaning =>
      rw [Source.continued_selects selected, meaning]
  | unexpected unmatched => rw [Source.continued_unmatched unmatched]

theorem of_continued (before : List Char) (emitted : List Token)
    (after : List Char) :
    Reading before emitted after (Source.continued before emitted after) := by
  induction size : after.length using Nat.strongRecOn
    generalizing before emitted after with
  | ind size' ih =>
      cases after with
      | nil =>
          rw [Source.continued_nil]
          exact .finish
      | cons c cs =>
          cases found : Lexeme.longest c cs with
          | none =>
              have unmatched := Lexeme.longest_eq_none_iff.mp found
              rw [Source.continued_unmatched unmatched]
              exact .unexpected unmatched
          | some lexeme =>
              obtain ⟨kind, n⟩ := lexeme
              obtain ⟨pattern, selected⟩ := Lexeme.selects_of_longest found
              have split : c :: cs = (c :: cs.take n) ++ cs.drop n := by
                rw [List.cons_append, List.take_append_drop]
              have shorter : (cs.drop n).length < size' := by
                rw [← size, List.length_drop, List.length_cons]
                omega
              rw [split] at selected ⊢
              rw [Source.continued_selects selected]
              cases meaning : pattern.meaning emitted (c :: cs.take n) with
              | skipped =>
                  exact .skip selected meaning (ih _ shorter _ _ _ rfl)
              | token t =>
                  exact .emit selected meaning (ih _ shorter _ _ _ rfl)
              | tooLarge => exact .tooLarge selected meaning

end Reading

/-- **Maximal munch.**  `tokenize` gives the reading of its source and
nothing else. -/
theorem tokenize_eq_iff_reading (source : String)
    (result : Except LexicalError (List Token)) :
    tokenize source = result ↔ Reading [] [] source.toList result := by
  rw [Source.tokenize_eq_continued]
  constructor
  · rintro rfl
    exact Reading.of_continued [] [] source.toList
  · intro h
    exact h.eq_continued.symm

/-- A dash behind an operand, a name that begins like an operator, a comment
that ends with its line, and a dash that opens the next one. -/
example : tokenize "$-xored//-\n-" = .ok [.reference 1, .minus,
    .name "xored", .separator, .negate, .finish] := by cbv

end Reckoner
