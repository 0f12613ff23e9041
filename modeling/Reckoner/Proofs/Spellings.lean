/-
# Which tokens come from a source

A token other than `finish` has its spellings: a name spells itself, a number
has every literal of its value, a minus and a negation are both a dash.  A
list of tokens comes from a source exactly if every token in it has a
spelling, every dash is the one that the token before it asks for, and a
`finish` closes the list and stands nowhere else.

In one direction this is read off a reading, lexeme by lexeme.  In the other
any spellings of the tokens, with blanks between them, make a source: a blank
ends the lexeme in front of it and belongs to no lexeme behind it, so every
spelling is taken whole and none is taken together with its neighbour.  Which
spelling a token gets, and which blanks part it from the next, makes no
difference.
-/
import Reckoner.Proofs.LineBreak
import Reckoner.Proofs.PrintedDigits

namespace Reckoner

open scoped Computability

/-! ## Spellings -/

/-- `Numeral text v`: the text is a literal that is worth `v`. -/
inductive Numeral : List Char → Float → Prop
  | decimal {text : List Char} :
      text ∈ Pattern.decimal.language + Pattern.pointed.language →
      Numeral text (Decimal.ofLiteral text).toFloat
  | radix {r : Pattern.Radix} {text : List Char} :
      text ∈ (Pattern.radix r).language →
      Digits.ofList r.base (text.drop 2) < 2 ^ 64 →
      Numeral text (Binary.ofNat (Digits.ofList r.base (text.drop 2)))

/-- `Spells text t`: the text is a spelling of the token. -/
inductive Spells : List Char → Token → Prop
  | number {text : List Char} {v : Float} :
      Numeral text v → Spells text (.number v)
  | name {name : String} :
      name.toList ∈ Pattern.identifier.language → name ≠ "xor" →
      Spells name.toList (.name name)
  | latest : Spells ['$'] (.reference 1)
  | reference {digits : List Char} :
      digits ≠ [] → (∀ c ∈ digits, Lexeme.isDigit c = true) →
      Digits.ofList 10 digits < 2 ^ 64 →
      Spells ('$' :: digits) (.reference (Digits.ofList 10 digits))
  | xor : Spells ['x', 'o', 'r'] .bitXor
  | minus : Spells ['-'] .minus
  | negate : Spells ['-'] .negate
  | fixed {spelling : String} {token : Token} :
      (spelling, token) ∈ Pattern.spellings →
      Spells spelling.toList token

/-- Whether a token can stand behind the tokens `front`: a minus behind an
operand only, a negation elsewhere only. -/
def Token.Fits (front : List Token) : Token → Prop
  | minus => front.getLast?.any endsOperand = true
  | negate => front.getLast?.any endsOperand = false
  | _ => True

theorem Token.exists_fits (t : Token) : ∃ front, t.Fits front := by
  cases t with
  | minus => exact ⟨[.closing], rfl⟩
  | negate => exact ⟨[], rfl⟩
  | _ => exact ⟨[], trivial⟩

theorem Token.fits_of_mem_spellings {spelling : String} {token : Token}
    (listed : (spelling, token) ∈ Pattern.spellings) (front : List Token) :
    token.Fits front := by
  fin_cases listed
  all_goals trivial

/-! ## Spellings and patterns -/

section Patterns

variable {text : List Char} {t : Token}

/-- A spelling is matched by a pattern that reads it as its token. -/
theorem Spells.exists_pattern (spells : Spells text t) :
    ∃ pattern : Pattern, text ∈ pattern.language ∧
      (pattern = .identifier → text ∉ Pattern.xor.language) ∧
      ∀ emitted, t.Fits emitted →
        pattern.meaning emitted text = .token t := by
  cases spells with
  | number numeral =>
      cases numeral with
      | decimal matched =>
          rcases (Language.mem_add _ _ _).mp matched with whole | pointed
          · exact ⟨.decimal, whole, by simp, fun _ _ => rfl⟩
          · exact ⟨.pointed, pointed, by simp, fun _ _ => rfl⟩
      | radix matched small =>
          exact ⟨.radix _, matched, by simp, fun _ _ => if_pos small⟩
  | @name name matched other =>
      refine ⟨.identifier, matched, fun _ keyword => ?_, fun _ _ => ?_⟩
      · exact other (String.toList_inj.mp (Pattern.mem_spelled.mp keyword))
      · rw [Pattern.meaning, String.ofList_toList]
  | latest =>
      exact ⟨.reference, Pattern.mem_reference.mpr ⟨[], by simp, rfl⟩,
        by simp, fun _ _ => by rw [Pattern.meaning, if_pos rfl]⟩
  | @reference digits nonempty inside small =>
      refine ⟨.reference, Pattern.mem_reference.mpr ⟨_, inside, rfl⟩,
        by simp, fun _ _ => ?_⟩
      rw [Pattern.meaning, if_neg (by simpa using nonempty)]
      exact if_pos small
  | xor => exact ⟨.xor, rfl, by simp, fun _ _ => rfl⟩
  | minus =>
      refine ⟨.dash, rfl, by simp, fun emitted fits => ?_⟩
      have behind : emitted.getLast?.any Token.endsOperand = true := fits
      rw [Pattern.meaning, if_pos behind]
  | negate =>
      refine ⟨.dash, rfl, by simp, fun emitted fits => ?_⟩
      have behind : emitted.getLast?.any Token.endsOperand = false := fits
      rw [Pattern.meaning, if_neg (Bool.eq_false_iff.mp behind)]
  | fixed listed =>
      exact ⟨.fixed _ _, Pattern.mem_fixed.mpr ⟨listed, rfl⟩, by simp,
        fun _ _ => rfl⟩

/-- What makes a token is not skipped. -/
theorem Pattern.kind_ne_skipped {pattern : Pattern} {emitted : List Token}
    (means : pattern.meaning emitted text = .token t) :
    pattern.kind ≠ .skipped := by
  intro skipped
  cases pattern with
  | comment | blanks => cases means
  | decimal | pointed | radix | reference | xor | identifier | dash
  | fixed => cases skipped

/-- A number in 64 bits is the only one that makes a token. -/
theorem Meaning.ofNat_eq_token {token : Nat → Token} {n : Nat}
    (h : Meaning.ofNat token n = .token t) : n < 2 ^ 64 ∧ token n = t := by
  unfold Meaning.ofNat at h
  split at h
  · rename_i small
    exact ⟨small, Meaning.token.inj h⟩
  · cases h

/-- A selected lexeme that makes a token spells it, and the token fits. -/
theorem Selects.spells {source : List Char} {pattern : Pattern}
    (selected : Selects source pattern text) {emitted : List Token}
    (means : pattern.meaning emitted text = .token t) :
    t.Fits emitted ∧ Spells text t := by
  have matched := selected.matched
  cases pattern with
  | decimal =>
      cases means
      exact ⟨trivial, .number (.decimal (Or.inl matched))⟩
  | pointed =>
      cases means
      exact ⟨trivial, .number (.decimal (Or.inr matched))⟩
  | radix r =>
      rw [Pattern.meaning] at means
      obtain ⟨small, rfl⟩ := Meaning.ofNat_eq_token means
      exact ⟨trivial, .number (.radix matched small)⟩
  | reference =>
      obtain ⟨digits, inside, rfl⟩ := Pattern.mem_reference.mp matched
      cases digits with
      | nil =>
          cases means
          exact ⟨trivial, .latest⟩
      | cons d digits =>
          rw [Pattern.meaning, if_neg (by simp)] at means
          obtain ⟨small, rfl⟩ := Meaning.ofNat_eq_token means
          exact ⟨trivial, .reference (List.cons_ne_nil _ _) inside small⟩
  | xor =>
      cases means
      have same : text = ['x', 'o', 'r'] := Pattern.mem_spelled.mp matched
      exact ⟨trivial, same ▸ .xor⟩
  | identifier =>
      obtain ⟨name, rfl⟩ : ∃ name : String, text = name.toList :=
        ⟨String.ofList text, String.toList_ofList.symm⟩
      rw [Pattern.meaning, String.ofList_toList] at means
      cases means
      refine ⟨trivial, .name matched fun keyword => ?_⟩
      exact selected.keyword rfl
        (Pattern.mem_spelled.mpr (congrArg String.toList keyword))
  | comment | blanks => cases means
  | dash =>
      have same : text = ['-'] := Pattern.mem_spelled.mp matched
      rw [Pattern.meaning] at means
      cases behind : emitted.getLast?.any Token.endsOperand with
      | true =>
          rw [behind] at means
          cases means
          exact ⟨behind, same ▸ .minus⟩
      | false =>
          rw [behind] at means
          cases means
          exact ⟨behind, same ▸ .negate⟩
  | fixed spelling token =>
      cases means
      obtain ⟨listed, rfl⟩ := Pattern.mem_fixed.mp matched
      exact ⟨Token.fits_of_mem_spellings listed emitted, .fixed listed⟩

end Patterns

/-! ## Lists of tokens -/

/-- What a list of tokens satisfies if it stands in front of the `finish` of
some source. -/
structure Writable (tokens : List Token) : Prop where
  finish : .finish ∉ tokens
  minus (front rest : List Token) : tokens = front ++ .minus :: rest →
    front.getLast?.any Token.endsOperand = true
  negate (front rest : List Token) : tokens = front ++ .negate :: rest →
    front.getLast?.any Token.endsOperand = false
  name (text : String) : .name text ∈ tokens →
    text.toList ∈ Pattern.identifier.language ∧ text ≠ "xor"
  reference (offset : Nat) : .reference offset ∈ tokens → offset < 2 ^ 64
  number (v : Float) : .number v ∈ tokens → ∃ text, Numeral text v

namespace Writable

theorem nil : Writable [] where
  finish := List.not_mem_nil
  minus _ _ split := by simp at split
  negate _ _ split := by simp at split
  name _ among := absurd among List.not_mem_nil
  reference _ among := absurd among List.not_mem_nil
  number _ among := absurd among List.not_mem_nil

/-- Writable lists grow by tokens that have a spelling and fit. -/
theorem concat {front : List Token} {t : Token} {text : List Char}
    (writable : Writable front) (fits : t.Fits front)
    (spells : Spells text t) : Writable (front ++ [t]) := by
  have among {u : Token} (h : u ∈ front ++ [t]) : u ∈ front ∨ t = u :=
    (List.mem_append.mp h).imp_right fun last =>
      (List.mem_singleton.mp last).symm
  have split {u : Token} {before rest : List Token}
      (h : front ++ [t] = before ++ u :: rest) :
      t = u ∧ front = before ∨ ∃ rest, front = before ++ u :: rest := by
    rcases rest.eq_nil_or_concat' with rfl | ⟨rest, last, rfl⟩
    · obtain ⟨same, last⟩ := List.append_inj' h rfl
      exact .inl ⟨(List.cons.inj last).1, same⟩
    · rw [← List.cons_append, ← List.append_assoc] at h
      exact .inr ⟨rest, (List.append_inj' h rfl).1⟩
  constructor
  · intro h
    rcases among h with before | rfl
    · exact writable.finish before
    · cases spells with
      | fixed listed => simp [Pattern.spellings] at listed
  · intro before rest h
    rcases split h with ⟨rfl, rfl⟩ | ⟨rest, earlier⟩
    · exact fits
    · exact writable.minus before rest earlier
  · intro before rest h
    rcases split h with ⟨rfl, rfl⟩ | ⟨rest, earlier⟩
    · exact fits
    · exact writable.negate before rest earlier
  · intro name h
    rcases among h with before | rfl
    · exact writable.name name before
    · cases spells with
      | name matched other => exact ⟨matched, other⟩
      | fixed listed => simp [Pattern.spellings] at listed
  · intro offset h
    rcases among h with before | rfl
    · exact writable.reference offset before
    · cases spells with
      | latest => decide
      | reference _ _ small => exact small
      | fixed listed => simp [Pattern.spellings] at listed
  · intro v h
    rcases among h with before | rfl
    · exact writable.number v before
    · cases spells with
      | number numeral => exact ⟨_, numeral⟩
      | fixed listed => simp [Pattern.spellings] at listed

theorem fits {tokens front rest : List Token} {t : Token}
    (writable : Writable tokens) (split : tokens = front ++ t :: rest) :
    t.Fits front := by
  cases t with
  | minus => exact writable.minus front rest split
  | negate => exact writable.negate front rest split
  | _ => trivial

theorem exists_spells_of_listed {t : Token}
    (listed : t ∈ Pattern.spellings.map Prod.snd) : ∃ text, Spells text t := by
  obtain ⟨⟨spelling, token⟩, among, rfl⟩ := List.mem_map.mp listed
  exact ⟨_, .fixed among⟩

/-- Every token of a writable list has a spelling. -/
theorem exists_spells {tokens : List Token} (writable : Writable tokens)
    {t : Token} (among : t ∈ tokens) : ∃ text, Spells text t := by
  cases t with
  | number v =>
      obtain ⟨text, numeral⟩ := writable.number v among
      exact ⟨text, .number numeral⟩
  | name text =>
      obtain ⟨matched, other⟩ := writable.name text among
      exact ⟨_, .name matched other⟩
  | reference offset =>
      have denoted := Digits.ofList_toDigits_ten offset
      have spells := @Spells.reference (Nat.toDigits 10 offset)
        Nat.toDigits_ne_nil
        (Digits.isDigit_toDigits_ten offset)
        (denoted.symm ▸ writable.reference offset among)
      rw [denoted] at spells
      exact ⟨_, spells⟩
  | finish => exact absurd among writable.finish
  | bitXor => exact ⟨_, .xor⟩
  | minus => exact ⟨_, .minus⟩
  | negate => exact ⟨_, .negate⟩
  | plus | times | divide | modulo | shiftLeft | shiftRight | bitAnd | bitOr
  | complement | power | factorial | literal | opening | closing | assign
  | separator => exact exists_spells_of_listed (by decide)

end Writable

/-- What is emitted along a reading is writable. -/
theorem Reading.writable {before after : List Char} {emitted : List Token}
    {result : Except LexicalError (List Token)}
    (reading : Reading before emitted after result)
    (writable : Writable emitted) {tokens : List Token}
    (succeeds : result = .ok tokens) :
    ∃ front, tokens = front ++ [.finish] ∧ Writable front := by
  induction reading with
  | finish =>
      cases succeeds
      exact ⟨_, rfl, writable⟩
  | skip _ _ _ ih => exact ih writable succeeds
  | emit selected means _ ih =>
      obtain ⟨fits, spells⟩ := selected.spells means
      exact ih (writable.concat fits spells) succeeds
  | tooLarge => cases succeeds
  | unexpected => cases succeeds

/-! ## Written lists -/

/-- `Written tokens text`: the text consists of spellings of the tokens with
blanks between them. -/
inductive Written : List Token → List Char → Prop
  | none : Written [] []
  | last {t : Token} {text : List Char} : Spells text t → Written [t] text
  | more {t u : Token} {tokens : List Token} {text gap rest : List Char} :
      Spells text t → gap ∈ Pattern.blanks.language →
      Written (u :: tokens) rest →
      Written (t :: u :: tokens) (text ++ (gap ++ rest))

/-- A spelling is selected in front of a blank and at the end, and it is
read as its token. -/
theorem Spells.exists_selects {text : List Char} {t : Token}
    (spells : Spells text t) {rest : List Char}
    (parted : ∀ b ∈ rest.head?, Lexeme.isBlank b = true)
    {emitted : List Token} (fits : t.Fits emitted) :
    ∃ pattern : Pattern, Selects (text ++ rest) pattern text ∧
      pattern.meaning emitted text = .token t := by
  obtain ⟨pattern, matched, keyword, reads⟩ := spells.exists_pattern
  have means := reads emitted fits
  refine ⟨pattern, ?_, means⟩
  cases text with
  | nil => exact absurd rfl (Pattern.ne_nil_of_mem matched)
  | cons c cs =>
      have found : Lexeme.longest c (cs ++ rest) =
          some (pattern.kind, cs.length) := by
        cases rest with
        | nil =>
            rw [List.append_nil]
            exact Lexeme.longest_of_mem matched
        | cons b rest =>
            exact Lexeme.longest_append_blank matched
              (Pattern.kind_ne_skipped means) (parted b rfl) rest
      exact Lexeme.selects_of_mem matched (List.prefix_append cs rest) found
        keyword

/-- A spelling begins with a character that is no blank. -/
theorem Spells.isBlank_head {text : List Char} {t : Token}
    (spells : Spells text t) :
    ∃ c cs, text = c :: cs ∧ Lexeme.isBlank c = false := by
  obtain ⟨pattern, matched, -, reads⟩ := spells.exists_pattern
  obtain ⟨emitted, fits⟩ := t.exists_fits
  cases text with
  | nil => exact absurd rfl (Pattern.ne_nil_of_mem matched)
  | cons c cs =>
      refine ⟨c, cs, rfl, Bool.eq_false_iff.mpr fun blank =>
        Pattern.kind_ne_skipped (reads emitted fits) ?_⟩
      have alone := Lexeme.longest_of_mem matched
      rw [Lexeme.longest_of_isBlank blank] at alone
      exact (Prod.mk.inj (Option.some.inj alone)).1.symm

/-- A run of blanks is selected whole in front of what is no blank. -/
theorem selects_blanks {gap : List Char}
    (matched : gap ∈ Pattern.blanks.language) {c : Char} {cs : List Char}
    (other : Lexeme.isBlank c = false) :
    Selects (gap ++ c :: cs) .blanks gap := by
  cases gap with
  | nil => exact absurd rfl (Pattern.ne_nil_of_mem matched)
  | cons b gap =>
      obtain ⟨blank, inside⟩ := Pattern.cons_mem_blanks.mp matched
      have found : Lexeme.longest b (gap ++ c :: cs) =
          some (.skipped, gap.length) := by
        rw [Lexeme.longest_of_isBlank blank, Lexeme.run,
          List.takeWhile_append_of_pos inside, List.takeWhile_cons, other,
          if_neg Bool.false_ne_true, List.append_nil]
      exact Lexeme.selects_of_mem matched (List.prefix_append gap (c :: cs))
        found (by simp)

namespace Written

theorem isBlank_head {u : Token} {tokens : List Token} {text : List Char}
    (written : Written (u :: tokens) text) :
    ∃ c cs, text = c :: cs ∧ Lexeme.isBlank c = false := by
  cases written with
  | last spells => exact spells.isBlank_head
  | more spells _ _ =>
      obtain ⟨c, cs, rfl, other⟩ := spells.isBlank_head
      exact ⟨c, _, rfl, other⟩

/-- A list of tokens that have spellings can be written. -/
theorem exists_of_spells {tokens : List Token}
    (spelled : ∀ t ∈ tokens, ∃ text, Spells text t) :
    ∃ text, Written tokens text := by
  induction tokens with
  | nil => exact ⟨[], .none⟩
  | cons t tokens ih =>
      obtain ⟨⟨text, spells⟩, later⟩ := List.forall_mem_cons.mp spelled
      obtain ⟨rest, written⟩ := ih later
      cases tokens with
      | nil => exact ⟨text, .last spells⟩
      | cons u tokens =>
          have gap : [' '] ∈ Pattern.blanks.language :=
            Pattern.cons_mem_blanks.mpr ⟨rfl, nofun⟩
          exact ⟨_, .more spells gap written⟩

/-- What is written behind emitted tokens is read behind them. -/
theorem reading {tokens : List Token} {text : List Char}
    (written : Written tokens text) (emitted : List Token)
    (writable : Writable (emitted ++ tokens)) (before : List Char) :
    Reading before emitted text (.ok (emitted ++ tokens ++ [.finish])) := by
  induction written generalizing emitted before with
  | none =>
      rw [List.append_nil]
      exact .finish
  | @last t text spells =>
      have parted : ∀ b ∈ ([] : List Char).head?, Lexeme.isBlank b = true :=
        nofun
      obtain ⟨pattern, selected, means⟩ :=
        spells.exists_selects parted (writable.fits rfl)
      rw [← List.append_nil text]
      exact .emit selected means .finish
  | @more t u tokens text gap rest spells blanks written ih =>
      obtain ⟨c, cs, rfl, other⟩ := written.isBlank_head
      have parted : ∀ b ∈ (gap ++ c :: cs).head?, Lexeme.isBlank b = true := by
        cases gap with
        | nil => exact absurd rfl (Pattern.ne_nil_of_mem blanks)
        | cons b gap =>
            intro d first
            cases first
            exact (Pattern.cons_mem_blanks.mp blanks).1
      obtain ⟨pattern, selected, means⟩ :=
        spells.exists_selects parted (writable.fits rfl)
      have again : emitted ++ t :: u :: tokens =
          emitted ++ [t] ++ u :: tokens := by
        simp
      rw [again] at writable ⊢
      exact .emit selected means
        (.skip (selects_blanks blanks other) rfl (ih _ writable _))

end Written

/-- **The tokens that come from sources.**  A list of tokens comes from a
source exactly if it is a writable list with a `finish` behind it.  Every
writable list can be written, and whatever spellings it is written in and
whatever blanks stand between them, the text is cut into the same tokens
again. -/
theorem exists_tokenize_iff_writable :
    (∀ tokens, (∃ source, tokenize source = .ok tokens) ↔
      ∃ front, tokens = front ++ [.finish] ∧ Writable front) ∧
    ∀ front, Writable front →
      (∃ text, Written front text) ∧
        ∀ text, Written front text →
          tokenize (String.ofList text) = .ok (front ++ [.finish]) := by
  have written {front : List Token} (writable : Writable front)
      {text : List Char} (h : Written front text) :
      tokenize (String.ofList text) = .ok (front ++ [.finish]) := by
    rw [Source.tokenize_eq_continued, String.toList_ofList]
    exact (h.reading [] writable []).eq_continued.symm
  refine ⟨fun tokens => ⟨?_, ?_⟩, fun front writable => ⟨?_, ?_⟩⟩
  · rintro ⟨source, cut⟩
    rw [Source.tokenize_eq_continued] at cut
    exact (Reading.of_continued [] [] source.toList).writable .nil cut
  · rintro ⟨front, rfl, writable⟩
    obtain ⟨text, h⟩ := Written.exists_of_spells fun t among =>
      writable.exists_spells among
    exact ⟨String.ofList text, written writable h⟩
  · exact Written.exists_of_spells fun t among =>
      writable.exists_spells among
  · intro text h
    exact written writable h

theorem exists_tokenize_iff_writable_dashes :
    let front : List Token := [.name "x", .minus, .negate, .reference 1]
    tokenize "x--$" = .ok (front ++ [.finish]) ∧ Writable front ∧
      tokenize "x -\t\t-\r $" = .ok (front ++ [.finish]) := by
  intro front
  have cut : tokenize "x--$" = .ok (front ++ [.finish]) := by cbv
  obtain ⟨found, same, writable⟩ :=
    (exists_tokenize_iff_writable.1 _).mp ⟨_, cut⟩
  obtain rfl : front = found := List.append_cancel_right same
  have name := writable.name "x" List.mem_cons_self
  have blanks {b : Char} {gap : List Char}
      (inside : (b :: gap).all Lexeme.isBlank = true) :
      b :: gap ∈ Pattern.blanks.language :=
    Pattern.cons_mem_blanks.mpr
      (List.forall_mem_cons.mp (List.all_eq_true.mp inside))
  have text : Written front "x -\t\t-\r $".toList :=
    .more (.name name.1 name.2) (@blanks ' ' [] rfl)
      (.more .minus (@blanks '\t' ['\t'] rfl)
        (.more .negate (@blanks '\r' [' '] rfl) (.last .latest)))
  exact ⟨cut, writable,
    (exists_tokenize_iff_writable.2 front writable).2 _ text⟩

end Reckoner
