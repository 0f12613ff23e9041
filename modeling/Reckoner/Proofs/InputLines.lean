/-
# Lines of input

Lines that are written one below the other are read back as they were, but
for a carriage return at their end, which is taken for a part of the line
break.  It makes no difference.  A carriage return is a blank and only ever
part of a run of blanks, so behind a line it either makes a run longer or is
one itself, and blanks contribute nothing: the line has the same tokens with
it and without it, and the same error if it has no tokens.
-/
import Reckoner.CommandLine
import Reckoner.Proofs.LineBreak

namespace Reckoner

/-! ## A carriage return behind a line -/

namespace Lexeme

theorem run_append_of_lt {p : Char → Bool} {cs : List Char}
    (stops : run p cs < cs.length) (ds : List Char) :
    run p (cs ++ ds) = run p cs := by
  have whole : (cs.takeWhile p).length ≠ cs.length := Nat.ne_of_lt stops
  rw [run, List.takeWhile_append, if_neg whole, run]

/-- A carriage return behind a text lengthens a lexeme only if that is a run
of blanks up to the end. -/
theorem longest_append_return (c : Char) (cs : List Char) :
    longest c (cs ++ ['\r']) = longest c cs ∨
      longest c cs = some (.skipped, cs.length) ∧
        longest c (cs ++ ['\r']) = some (.skipped, cs.length + 1) := by
  by_cases blank : isBlank c = true
  · rw [longest_of_isBlank blank, longest_of_isBlank blank]
    rcases Nat.lt_or_eq_of_le (run_le_length isBlank cs) with lt | eq
    · rw [run_append_of_lt lt]
      exact Or.inl rfl
    · have inside : ∀ d ∈ cs ++ ['\r'], isBlank d = true := by
        intro d among
        rcases List.mem_append.mp among with before | here
        · rw [← List.take_length (l := cs), ← eq] at before
          exact mem_take_run d before
        · rw [List.mem_singleton.mp here]
          rfl
      rw [eq, run_of_forall inside, List.length_append]
      exact Or.inr ⟨rfl, rfl⟩
  · refine Or.inl (longest_append fun kind n found => ?_)
    obtain ⟨-, pattern, -, matched⟩ := finds_longest found
    -- what does not begin with a blank is no run of blanks
    have no_blanks : pattern ≠ .blanks := by
      rintro rfl
      exact blank (Pattern.cons_mem_blanks.mp matched).1
    exact length_le_of_not_mem
      (Pattern.break_not_mem (x := '\r') (by decide) (fun _ => no_blanks)
        (fun inside => absurd inside (by decide)) matched)

end Lexeme

namespace Source

theorem pieces_return (column : Nat) : pieces column ['\r'] = .ok [.nothing] := by
  have blank : Lexeme.longest '\r' [] = some (.skipped, 0) := rfl
  rw [pieces_step blank rfl]
  simp only [List.drop_nil, pieces]
  rfl

/-- A carriage return behind a text contributes nothing. -/
theorem pieces_append_return (column : Nat) (cs : List Char) :
    pieces column (cs ++ ['\r']) = pieces column cs ∨
      pieces column (cs ++ ['\r']) =
        (pieces column cs).map (· ++ [.nothing]) := by
  induction column, cs using pieces_induction with
  | done column =>
      refine Or.inr ((pieces_return column).trans ?_)
      rw [pieces]
      rfl
  | unmatched column c cs h =>
      refine Or.inl ?_
      rcases Lexeme.longest_append_return c cs with same | ⟨blanks, -⟩
      · rw [List.cons_append, pieces_unmatched h,
          pieces_unmatched (same.trans h)]
      · rw [h] at blanks
        cases blanks
  | tooLarge column c cs kind n h large =>
      refine Or.inl ?_
      have within := (Lexeme.finds_longest h).1
      rcases Lexeme.longest_append_return c cs with same | ⟨blanks, -⟩
      · rw [List.cons_append, pieces_tooLarge h large,
          pieces_tooLarge (same.trans h)]
        · rw [List.take_append_of_le_length within]
        · rw [List.take_append_of_le_length within]
          exact large
      · rw [h] at blanks
        cases blanks
        cases large
  | step column c cs kind n piece h small ih =>
      have within := (Lexeme.finds_longest h).1
      rcases Lexeme.longest_append_return c cs with same | ⟨blanks, longer⟩
      · have small' : Lexeme.read (c :: (cs ++ ['\r']).take n) kind =
            some piece := by
          rw [List.take_append_of_le_length within]
          exact small
        rw [List.cons_append, pieces_step h small,
          pieces_step (same.trans h) small',
          List.take_append_of_le_length within,
          List.drop_append_of_le_length within]
        rcases ih with eq | eq
        · exact Or.inl (by rw [eq])
        · refine Or.inr ?_
          rw [eq]
          cases pieces (column + byteLength (c :: cs.take n)) (cs.drop n) with
          | ok rest => rfl
          | error cause => rfl
      · refine Or.inl ?_
        rw [List.cons_append, pieces_step longer rfl, pieces_step blanks rfl]
        simp [pieces]

theorem assemble_append_nothing (behindOperand : Bool)
    (contributions : List Lexeme.Piece) :
    assemble behindOperand (contributions ++ [.nothing]) =
      assemble behindOperand contributions := by
  induction contributions generalizing behindOperand with
  | nil => rfl
  | cons piece rest ih =>
      cases piece with
      | nothing => exact ih behindOperand
      | dash => exact congrArg (List.cons _) (ih false)
      | token t => exact congrArg (List.cons _) (ih t.endsOperand)

end Source

/-- A line has the same tokens with a carriage return behind it. -/
theorem tokenize_append_return (line : String) :
    tokenize (line ++ "\r") = tokenize line := by
  have text : (line ++ "\r").toList = line.toList ++ ['\r'] := by simp
  rw [tokenize, tokenize, text]
  rcases Source.pieces_append_return 1 line.toList with same | longer
  · rw [same]
  · rw [longer]
    cases Source.pieces 1 line.toList with
    | ok pieces =>
        simp only [Except.map, Source.assemble_append_nothing]
    | error cause => rfl

/-! ## Lines below each other -/

namespace CommandLine

namespace LineBreak

variable {α : Type} (lineBreak : LineBreak α)

/-- Nothing is cut in front of the next line feed. -/
theorem cut_append {text : List α}
    (clean : ∀ x ∈ text, lineBreak.isFeed x = false) (line rest : List α) :
    lineBreak.cut line (text ++ rest) =
      lineBreak.cut (text.reverse ++ line) rest := by
  induction text generalizing line with
  | nil => rfl
  | cons x text ih =>
      obtain ⟨here, later⟩ := List.forall_mem_cons.mp clean
      rw [List.cons_append, cut, here, if_neg Bool.false_ne_true, ih later,
        List.reverse_cons, List.append_assoc, List.singleton_append]

/-- A line loses at most a carriage return at its end. -/
theorem complete_reverse (text : List Char) :
    ofText.complete text.reverse = text ∨
      ofText.complete text.reverse ++ ['\r'] = text := by
  rcases text.eq_nil_or_concat' with rfl | ⟨front, last, rfl⟩
  · exact Or.inl rfl
  · rw [List.reverse_concat, complete]
    by_cases back : last = '\r'
    · have here : ofText.isReturn last = true := beq_iff_eq.mpr back
      rw [if_pos here, List.reverse_reverse, back]
      exact Or.inr rfl
    · have here : ofText.isReturn last = false := beq_eq_false_iff_ne.mpr back
      rw [here, if_neg Bool.false_ne_true, List.reverse_cons,
        List.reverse_reverse]
      exact Or.inl rfl

end LineBreak

/-- A line as it is read back: without the carriage return at its end. -/
def readBack (line : String) : String :=
  String.ofList (LineBreak.ofText.complete line.toList.reverse)

theorem tokenize_readBack (line : String) :
    tokenize (readBack line) = tokenize line := by
  rcases LineBreak.complete_reverse line.toList with same | shorter
  · rw [readBack, same, String.ofList_toList]
  · have longer : readBack line ++ "\r" = line := by
      rw [← String.toList_inj, String.toList_append, readBack,
        String.toList_ofList]
      exact shorter
    rw [← tokenize_append_return, longer]

/-- The text that holds lines below each other, each one ended. -/
def written (lines : List String) : String := String.join (lines.map asLine)

theorem toList_written_cons (line : String) (lines : List String) :
    (written (line :: lines)).toList =
      line.toList ++ '\n' :: (written lines).toList := by
  simp [written, asLine]

/-- Written lines are read back. -/
theorem textLines_written {lines : List String}
    (clean : ∀ line ∈ lines, '\n' ∉ line.toList) :
    textLines (written lines) = lines.map readBack := by
  induction lines with
  | nil => rfl
  | cons line rest ih =>
      obtain ⟨here, later⟩ := List.forall_mem_cons.mp clean
      have no_feed : ∀ x ∈ line.toList, LineBreak.ofText.isFeed x = false := by
        intro x among
        refine beq_eq_false_iff_ne.mpr ?_
        rintro rfl
        exact here among
      have feed : LineBreak.ofText.isFeed '\n' = true := rfl
      have behind : textLines (written rest) = _ := ih later
      rw [textLines] at behind ⊢
      rw [toList_written_cons, LineBreak.cut_append _ no_feed, LineBreak.cut,
        if_pos feed, List.map_cons, behind, List.append_nil, List.map_cons,
        readBack]

theorem fromUTF8?_toUTF8 (text : String) :
    String.fromUTF8? text.toUTF8 = some text :=
  dif_pos text.isValidUTF8

/-- A stream of written lines brings the lines of the text. -/
theorem streamLines_written {lines : List String}
    (clean : ∀ line ∈ lines, '\n' ∉ line.toList) :
    streamLines (written lines).toUTF8 =
      (lines.map readBack).map some := by
  simp only [streamLines, fromUTF8?_toUTF8, textLines_written clean]

end CommandLine

end Reckoner
