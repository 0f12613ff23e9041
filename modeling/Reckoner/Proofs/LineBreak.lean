/-
# Line breaks part sources

A line feed is a lexeme of its own and occurs in no other, so no lexeme
reaches across one: what `longest` finds before a line feed is what it finds
at the end of the text.  A source with a line feed therefore gives the
contributions of the two lines with a separator between them.  Columns of
the second line count from the start of the source, and a dash that opens
the second line negates, because a separator ends no operand.

Blanks part lexemes in the same way, except that a comment goes on past them
and that several of them are one lexeme.
-/
import Reckoner.Proofs.MaximalMunch

namespace Reckoner

/-- The error of a source that begins `bytes` further on. -/
def LexicalError.shift (bytes : Nat) : LexicalError → LexicalError
  | unexpectedCharacter text column => unexpectedCharacter text (column + bytes)
  | literalTooLarge text column => literalTooLarge text (column + bytes)

open scoped Computability

namespace Pattern

/-! ## Line breaks and blanks in lexemes -/

/-- The characters at which lexemes end: the line feed and the blanks. -/
def breaks : List Char := ['\n', ' ', '\t', '\r', '\x0c']

theorem mem_breaks_of_isBlank {x : Char} (blank : Lexeme.isBlank x = true) :
    x ∈ breaks := by
  simp only [Lexeme.isBlank, Bool.or_eq_true, beq_iff_eq] at blank
  rcases blank with ((rfl | rfl) | rfl) | rfl
  all_goals decide

section Break

variable {x : Char} (parts : x ∈ breaks)

include parts

theorem break_not_mem_of {p : Char → Bool} {text : List Char}
    (inside : ∀ c ∈ text, p c = true) (outside : breaks.any p = false) :
    x ∉ text := by
  intro h
  exact List.any_eq_false.mp outside x parts (inside x h)

theorem break_ne {c : Char} (other : c ∉ breaks) : x ≠ c := by
  rintro rfl
  exact other parts

theorem break_not_mem_digits {text : List Char}
    (h : text ∈ digit * digit∗) : x ∉ text :=
  break_not_mem_of parts (mem_digits.mp h).2 rfl

theorem break_not_mem_fraction {text : List Char}
    (h : text ∈ 1 + fraction) : x ∉ text := by
  rcases mem_one_add.mp h with rfl | h
  · exact List.not_mem_nil
  · obtain ⟨digits, hdigits, rfl⟩ := mem_fraction.mp h
    exact List.not_mem_cons_of_ne_of_not_mem (break_ne parts (by decide))
      (break_not_mem_digits parts hdigits)

theorem break_not_mem_exponent {text : List Char}
    (h : text ∈ 1 + exponent) : x ∉ text := by
  rcases mem_one_add.mp h with rfl | h
  · exact List.not_mem_nil
  · obtain ⟨c, sign, digits, hdigits, hc, hsign, rfl⟩ := mem_exponent.mp h
    have clean := break_not_mem_digits parts hdigits
    have clean_sign : x ∉ c :: sign := by
      refine List.not_mem_cons_of_ne_of_not_mem ?_ ?_
      · rcases hc with rfl | rfl
        · exact break_ne parts (by decide)
        · exact break_ne parts (by decide)
      · rcases hsign with rfl | rfl | rfl
        · exact List.not_mem_nil
        · exact List.mem_singleton.not.mpr (break_ne parts (by decide))
        · exact List.mem_singleton.not.mpr (break_ne parts (by decide))
    intro h
    exact (List.mem_append.mp h).elim clean_sign clean

/-- Behind its first character a lexeme holds a break only if it is a run of
blanks, or a comment that goes on past blanks. -/
theorem break_not_mem {pattern : Pattern}
    (no_blanks : Lexeme.isBlank x = true → pattern ≠ .blanks)
    (no_comment : Lexeme.isCommentChar x = true → pattern ≠ .comment)
    {c : Char} {text : List Char} (h : c :: text ∈ pattern.language) :
    x ∉ text := by
  cases pattern with
  | decimal =>
      obtain ⟨-, h⟩ := cons_mem_decimal.mp h
      obtain ⟨number, hnumber, power, hpower, rfl⟩ := Language.mem_mul.mp h
      obtain ⟨whole, hwhole, part, hpart, rfl⟩ := Language.mem_mul.mp hnumber
      have clean : x ∉ whole :=
        break_not_mem_of parts (Lexeme.isDigit_of_mem hwhole) rfl
      simp only [List.mem_append, not_or]
      exact ⟨⟨clean, break_not_mem_fraction parts hpart⟩,
        break_not_mem_exponent parts hpower⟩
  | pointed =>
      obtain ⟨part, hpart, power, hpower, same⟩ := Language.mem_mul.mp h
      obtain ⟨digits, hdigits, rfl⟩ := mem_fraction.mp hpart
      obtain ⟨rfl, rfl⟩ := List.cons.inj same
      intro h
      exact (List.mem_append.mp h).elim (break_not_mem_digits parts hdigits)
        (break_not_mem_exponent parts hpower)
  | radix r =>
      obtain ⟨mark, digits, hmark, -, inside, same⟩ := mem_radix.mp h
      obtain ⟨rfl, rfl⟩ := List.cons.inj same
      refine List.not_mem_cons_of_ne_of_not_mem ?_ ?_
      · rintro rfl
        fin_cases parts
        all_goals cases hmark
      · exact break_not_mem_of parts inside (by cases r <;> rfl)
  | reference =>
      obtain ⟨digits, inside, same⟩ := mem_reference.mp h
      obtain ⟨rfl, rfl⟩ := List.cons.inj same
      exact break_not_mem_of parts inside rfl
  | xor =>
      have same : c :: text = ['x', 'o', 'r'] := by
        simpa using mem_spelled.mp h
      obtain ⟨rfl, rfl⟩ := List.cons.inj same
      exact List.not_mem_cons_of_ne_of_not_mem (break_ne parts (by decide))
        (List.not_mem_cons_of_ne_of_not_mem (break_ne parts (by decide))
          List.not_mem_nil)
  | identifier =>
      exact break_not_mem_of parts (cons_mem_identifier.mp h).2 rfl
  | comment =>
      obtain ⟨body, inside, same⟩ := mem_comment.mp h
      obtain ⟨rfl, rfl⟩ := List.cons.inj same
      refine List.not_mem_cons_of_ne_of_not_mem
        (break_ne parts (by decide)) fun among => ?_
      exact no_comment (inside x among) rfl
  | blanks =>
      intro among
      exact no_blanks ((cons_mem_blanks.mp h).2 x among) rfl
  | dash =>
      have same : c :: text = ['-'] := by
        simpa using mem_spelled.mp h
      obtain ⟨rfl, rfl⟩ := List.cons.inj same
      exact List.not_mem_nil
  | fixed spelling token =>
      obtain ⟨listed, same⟩ := mem_fixed.mp h
      fin_cases listed
      all_goals simp only [String.reduceToList, List.cons.injEq] at same
      all_goals rw [same.2]
      all_goals fin_cases parts
      all_goals decide

end Break

end Pattern

namespace Lexeme

/-- A lexeme that ends in front of further text is the lexeme that is there
without that text. -/
theorem longest_append {c : Char} {cs ds : List Char}
    (within : ∀ kind n, longest c (cs ++ ds) = some (kind, n) →
      n ≤ cs.length) :
    longest c (cs ++ ds) = longest c cs := by
  have more : c :: cs <+: c :: (cs ++ ds) :=
    List.cons_prefix_cons.mpr ⟨rfl, List.prefix_append _ _⟩
  cases found : longest c (cs ++ ds) with
  | none =>
      have unmatched := longest_eq_none_iff.mp found
      refine (longest_eq_none_iff.mpr ?_).symm
      intro pattern text matched nonempty front
      exact unmatched pattern text matched nonempty (front.trans more)
  | some lexeme =>
      obtain ⟨kind, n⟩ := lexeme
      obtain ⟨pattern, selected⟩ := selects_of_longest found
      rw [List.take_append_of_le_length (within kind n found)] at selected
      have alone : Selects (c :: cs) pattern (c :: cs.take n) :=
        { matched := selected.matched
          nonempty := selected.nonempty
          front := List.cons_prefix_cons.mpr ⟨rfl, List.take_prefix n cs⟩
          longest := fun h front => selected.longest h (front.trans more)
          keyword := selected.keyword }
      rw [← found, longest_of_selects selected, longest_of_selects alone]

/-- A lexeme without `x` behind its first character ends in front of it. -/
theorem length_le_of_not_mem {x : Char} {cs ds : List Char} {n : Nat}
    (clean : x ∉ (cs ++ x :: ds).take n) : n ≤ cs.length := by
  refine Nat.le_of_not_lt fun longer => clean ?_
  refine List.mem_take_iff_getElem.mpr ⟨cs.length, ?_, ?_⟩
  · exact Nat.lt_min.mpr ⟨longer, by simp⟩
  · simp

/-- No lexeme reaches across a line feed. -/
theorem longest_append_newline (c : Char) (cs ds : List Char) :
    longest c (cs ++ '\n' :: ds) = longest c cs := by
  refine longest_append fun kind n found => ?_
  obtain ⟨-, pattern, -, matched⟩ := finds_longest found
  exact length_le_of_not_mem
    (Pattern.break_not_mem (x := '\n') (by decide) nofun nofun matched)

/-- A blank ends every lexeme that means something. -/
theorem longest_append_blank {pattern : Pattern} {c : Char} {cs : List Char}
    (matched : c :: cs ∈ pattern.language) (means : pattern.kind ≠ .skipped)
    {b : Char} (blank : isBlank b = true) (ds : List Char) :
    longest c (cs ++ b :: ds) = some (pattern.kind, cs.length) := by
  have alone := longest_of_mem matched
  -- a lexeme that means nothing would have been found without the blank too
  have skipped {n : Nat} (found : longest c cs = some (.skipped, n)) : False :=
    means (Prod.mk.inj (Option.some.inj (alone.symm.trans found))).1
  refine (longest_append fun kind n found => ?_).trans alone
  obtain ⟨-, other, -, reached⟩ := finds_longest found
  refine length_le_of_not_mem (Pattern.break_not_mem
    (Pattern.mem_breaks_of_isBlank blank) ?_ ?_ reached)
  · rintro - rfl
    exact skipped
      (longest_of_isBlank (Pattern.cons_mem_blanks.mp reached).1 cs)
  · rintro - rfl
    obtain ⟨body, -, same⟩ := Pattern.mem_comment.mp reached
    obtain ⟨rfl, second⟩ := List.cons.inj same
    cases cs with
    | nil =>
        cases n with
        | zero => cases second
        | succ n =>
            obtain ⟨rfl, -⟩ := List.cons.inj second
            exact absurd blank (by decide)
    | cons d cs =>
        cases n with
        | zero => cases second
        | succ n =>
            obtain ⟨rfl, -⟩ := List.cons.inj second
            exact skipped (n := 1 + run isCommentChar cs) rfl

theorem read_ne_finish {text : List Char} {pattern : Pattern}
    (h : text ∈ pattern.language) :
    read text pattern.kind ≠ some (.token .finish) := by
  intro finish
  cases pattern with
  | fixed spelling token =>
      cases Option.some.inj finish
      have listed := (Pattern.mem_fixed.mp h).1
      simp [Pattern.spellings] at listed
  | radix r =>
      obtain ⟨n, -, same⟩ := Option.map_eq_some_iff.mp finish
      cases same
  | reference =>
      obtain ⟨digits, -, rfl⟩ := Pattern.mem_reference.mp h
      cases digits with
      | nil => cases finish
      | cons d digits =>
          obtain ⟨n, -, same⟩ := Option.map_eq_some_iff.mp finish
          cases same
  | xor | identifier =>
      have same := Option.some.inj finish
      simp only [Piece.token.injEq] at same
      split at same
      · cases same
      · cases same
  | decimal | pointed | comment | blanks | dash => cases finish

end Lexeme

/-! ## Contributions of two lines -/

namespace Source

/-- What a text contributes does not depend on where it begins; the column
of its error does. -/
theorem pieces_shift (bytes column : Nat) (cs : List Char) :
    pieces (column + bytes) cs =
      (pieces column cs).mapError (LexicalError.shift bytes) := by
  induction column, cs using pieces_induction with
  | done column => simp [pieces, Except.mapError]
  | unmatched column c cs h =>
      rw [pieces_unmatched h, pieces_unmatched h]
      rfl
  | tooLarge column c cs kind n h large =>
      rw [pieces_tooLarge h large, pieces_tooLarge h large]
      rfl
  | step column c cs kind n piece h small ih =>
      rw [pieces_step h small, pieces_step h small, Nat.add_right_comm, ih]
      cases pieces (column + byteLength (c :: cs.take n)) (cs.drop n) with
      | ok rest => rfl
      | error cause => rfl

/-- **Lines are cut apart from each other.** -/
theorem pieces_append_newline (column : Nat) (cs ds : List Char) :
    pieces column (cs ++ '\n' :: ds) =
      (pieces column cs).bind fun first =>
        (pieces (column + byteLength cs + 1) ds).map fun second =>
          first ++ .token .separator :: second := by
  induction column, cs using pieces_induction with
  | done column =>
      have newline : Lexeme.longest '\n' ds = some (.fixed .separator, 0) := rfl
      rw [List.nil_append, pieces_step newline rfl]
      simp only [pieces]
      rfl
  | unmatched column c cs h =>
      have h' := (Lexeme.longest_append_newline c cs ds).trans h
      rw [List.cons_append, pieces_unmatched h, pieces_unmatched h']
      rfl
  | tooLarge column c cs kind n h large =>
      have h' := (Lexeme.longest_append_newline c cs ds).trans h
      have within := (Lexeme.finds_longest h).1
      rw [List.cons_append, pieces_tooLarge h large, pieces_tooLarge h']
      · rw [List.take_append_of_le_length within]
        rfl
      · rw [List.take_append_of_le_length within]
        exact large
  | step column c cs kind n piece h small ih =>
      have h' := (Lexeme.longest_append_newline c cs ds).trans h
      have within := (Lexeme.finds_longest h).1
      have small' : Lexeme.read (c :: (cs ++ '\n' :: ds).take n) kind =
          some piece := by
        rw [List.take_append_of_le_length within]
        exact small
      have whole : byteLength (c :: cs) =
          byteLength (c :: cs.take n) + byteLength (cs.drop n) := by
        rw [← byteLength_append, List.cons_append, List.take_append_drop]
      rw [List.cons_append, pieces_step h small, pieces_step h' small',
        List.take_append_of_le_length within,
        List.drop_append_of_le_length within, ih, whole, Nat.add_assoc column]
      cases pieces (column + byteLength (c :: cs.take n)) (cs.drop n) with
      | ok first =>
          cases pieces (column + (byteLength (c :: cs.take n) +
              byteLength (cs.drop n)) + 1) ds with
          | ok second => rfl
          | error cause => rfl
      | error cause => rfl

theorem finish_not_mem_pieces {column : Nat} {cs : List Char}
    {contributions : List Lexeme.Piece}
    (h : pieces column cs = .ok contributions) :
    .token .finish ∉ contributions := by
  induction column, cs using pieces_induction generalizing contributions with
  | done column =>
      rw [pieces] at h
      cases h
      exact List.not_mem_nil
  | unmatched column c cs none_here =>
      rw [pieces_unmatched none_here] at h
      cases h
  | tooLarge column c cs kind n found large =>
      rw [pieces_tooLarge found large] at h
      cases h
  | step column c cs kind n piece found small ih =>
      rw [pieces_step found small] at h
      obtain ⟨-, pattern, rfl, matched⟩ := Lexeme.finds_longest found
      have differs := Lexeme.read_ne_finish matched
      cases rest : pieces (column + byteLength (c :: cs.take n)) (cs.drop n) with
      | error cause =>
          rw [rest] at h
          cases h
      | ok rest' =>
          rw [rest] at h
          cases h
          rintro (_ | ⟨_, later⟩)
          · exact differs small
          · exact ih rest later

/-! ## Tokens of two lines -/

theorem assemble_append_separator (behindOperand : Bool)
    (first second : List Lexeme.Piece) :
    assemble behindOperand (first ++ .token .separator :: second) =
      assemble behindOperand first ++ .separator :: assemble false second := by
  induction first generalizing behindOperand with
  | nil => rfl
  | cons piece first ih =>
      cases piece with
      | nothing => exact ih behindOperand
      | dash => exact congrArg _ (ih false)
      | token t => exact congrArg _ (ih t.endsOperand)

theorem finish_not_mem_assemble {behindOperand : Bool}
    {contributions : List Lexeme.Piece}
    (h : .token .finish ∉ contributions) :
    .finish ∉ assemble behindOperand contributions := by
  induction contributions generalizing behindOperand with
  | nil => exact List.not_mem_nil
  | cons piece rest ih =>
      obtain ⟨here, later⟩ := not_or.mp (mt List.mem_cons.mpr h)
      cases piece with
      | nothing => exact ih later
      | dash =>
          refine List.not_mem_cons_of_ne_of_not_mem ?_ (ih later)
          cases behindOperand with
          | true => decide
          | false => decide
      | token t =>
          refine List.not_mem_cons_of_ne_of_not_mem ?_ (ih later)
          rintro rfl
          exact here rfl

end Source

/-- The tokens of a source: a `finish` at the end and nowhere else. -/
theorem tokenize_eq_ok {source : String} {tokens : List Token}
    (h : tokenize source = .ok tokens) :
    ∃ pieces, Source.pieces 1 source.toList = .ok pieces ∧
      tokens = Source.assemble false pieces ++ [.finish] ∧
      .finish ∉ Source.assemble false pieces := by
  rw [tokenize] at h
  cases cut : Source.pieces 1 source.toList with
  | error cause =>
      rw [cut] at h
      cases h
  | ok pieces =>
      rw [cut] at h
      exact ⟨pieces, rfl, (Except.ok.inj h).symm,
        Source.finish_not_mem_assemble (Source.finish_not_mem_pieces cut)⟩

theorem Source.pieces_of_tokenize_error {source : String}
    {cause : LexicalError} (h : tokenize source = .error cause) :
    pieces 1 source.toList = .error cause := by
  rw [tokenize] at h
  cases cut : pieces 1 source.toList with
  | error other =>
      rw [cut] at h
      exact congrArg Except.error (Except.error.inj h)
  | ok pieces =>
      rw [cut] at h
      cases h

/-- What two lines contribute, each cut by itself.  Columns of the second
line move on by the bytes of the first and of the line feed. -/
theorem Source.pieces_lines (first second : String) :
    pieces 1 (first ++ "\n" ++ second).toList =
      (pieces 1 first.toList).bind fun xs =>
        ((pieces 1 second.toList).mapError
          (LexicalError.shift (first.utf8ByteSize + 1))).map fun ys =>
            xs ++ .token .separator :: ys := by
  have text : (first ++ "\n" ++ second).toList =
      first.toList ++ '\n' :: second.toList := by
    simp
  have bytes : byteLength first.toList = first.utf8ByteSize := by
    rw [byteLength_eq, String.ofList_toList]
  rw [text, pieces_append_newline, bytes, Nat.add_assoc, pieces_shift]

/-- The tokens of two lines: those of the first, a separator, and those of
the second. -/
theorem tokenize_lines {first second : String} {xs ys : List Token}
    (hfirst : tokenize first = .ok (xs ++ [.finish]))
    (hsecond : tokenize second = .ok ys) :
    tokenize (first ++ "\n" ++ second) = .ok (xs ++ .separator :: ys) := by
  obtain ⟨pieces, cut, same, -⟩ := tokenize_eq_ok hfirst
  obtain ⟨pieces', cut', rfl, -⟩ := tokenize_eq_ok hsecond
  obtain rfl := List.append_cancel_right same
  rw [tokenize, Source.pieces_lines, cut, cut']
  simp only [Except.bind, Except.map, Except.mapError]
  rw [Source.assemble_append_separator, List.append_assoc, List.cons_append]

/-- **A source is cut into tokens line by line.**  The tokens of a first line
close with a `finish`, which gives way to a separator in front of the tokens
of the second line.  An error of the first line is the error of both; an
error of the second is the same, its column moved on by the bytes in front of
the line. -/
theorem tokenize_append_newline (first second : String) :
    (∀ xs, tokenize first = .ok xs → xs.getLast? = some .finish) ∧
      tokenize (first ++ "\n" ++ second) =
        match tokenize first, tokenize second with
        | .ok xs, .ok ys => .ok (xs.dropLast ++ .separator :: ys)
        | .error cause, _ => .error cause
        | .ok _, .error cause =>
          .error (cause.shift (first.utf8ByteSize + 1)) := by
  constructor
  · intro xs whole
    obtain ⟨pieces, -, rfl, -⟩ := tokenize_eq_ok whole
    exact List.getLast?_concat
  · cases hfirst : tokenize first with
    | error cause =>
        have cut := Source.pieces_of_tokenize_error hfirst
        rw [tokenize, Source.pieces_lines, cut]
        rfl
    | ok xs =>
        obtain ⟨pieces, cut, rfl, -⟩ := tokenize_eq_ok hfirst
        cases hsecond : tokenize second with
        | error cause =>
            have cut' := Source.pieces_of_tokenize_error hsecond
            rw [tokenize, Source.pieces_lines, cut, cut']
            rfl
        | ok ys =>
            simp only [List.dropLast_concat]
            exact tokenize_lines hfirst hsecond

/-- A comment ends with its line, and a dash that opens a line negates. -/
example : tokenize "x // y\n-z" = .ok [.name "x", .separator, .negate,
    .name "z", .finish] := by cbv

end Reckoner
