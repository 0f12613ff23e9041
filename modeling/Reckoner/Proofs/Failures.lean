/-
# Every failure counts once

A line fails in one of two ways.  It cannot be cut into tokens: then it comes
to one lexical error, and but for the count of failures the session is what
it was, whatever the line says before the bad place.  Or one of its
statements fails: then its error, an evaluation error, is the last outcome,
and what stands behind that statement might as well be anything else.

So an outcome that failed is the last of its line, a line has at most one of
them, and the count of a session is the number of those it has given.
-/
import Reckoner.Proofs.JoinedLines

namespace Reckoner

theorem countP_isFailed_of_succeeded {outcomes : List Outcome}
    (succeeded : ∀ outcome ∈ outcomes, outcome.isFailed = false) :
    outcomes.countP Outcome.isFailed = 0 := by
  refine List.countP_eq_zero.mpr ?_
  intro outcome among
  exact Bool.eq_false_iff.mp (succeeded outcome among)

namespace Session

/-! ## Statements -/

/-- A statement fails with an evaluation error. -/
theorem runStatement_error {session : Session} {s : Cursor}
    (failed : (session.runStatement s).outcome.isFailed = true) :
    ∃ error, (session.runStatement s).outcome =
      .failed (.evaluation error) := by
  rcases (session.context.reply s).value_or_failure with
    ⟨v, after, rest, came⟩ | ⟨error, after, rest, came⟩
  · rw [isFailed_of_value came] at failed
    refine ⟨.trailingToken rest.current, ?_⟩
    rw [runStatement_of_value came, if_neg]
    intro ends
    rw [ends] at failed
    cases failed
  · refine ⟨error, ?_⟩
    rw [runStatement_of_failure came]

/-- Statements succeed, all of them or all but the last. -/
theorem runStatements_succeed_or_fail (session : Session) (s : Cursor) :
    (∀ outcome ∈ (session.runStatements s).1, outcome.isFailed = false) ∨
      ∃ earlier error,
        (session.runStatements s).1 =
          earlier ++ [.failed (.evaluation error)] ∧
        ∀ outcome ∈ earlier, outcome.isFailed = false := by
  induction session, s using runStatements_induction with
  | nil session =>
      rw [runStatements_nil]
      exact Or.inl fun _ among => absurd among List.not_mem_nil
  | finish session rest =>
      rw [runStatements_finish]
      exact Or.inl fun _ among => absurd among List.not_mem_nil
  | separator session tail ih =>
      rw [runStatements_separator]
      exact ih
  | failed session token tail begins failed =>
      obtain ⟨error, cause⟩ := runStatement_error failed
      rw [runStatements_failed begins failed, cause]
      exact Or.inr ⟨[], error, rfl,
        fun _ among => absurd among List.not_mem_nil⟩
  | succeeded session token tail begins succeeded ih =>
      rw [runStatements_succeeded begins succeeded]
      rcases ih with all | ⟨earlier, error, others, all⟩
      · refine Or.inl ?_
        intro outcome among
        rcases List.mem_cons.mp among with rfl | later
        · exact succeeded
        · exact all outcome later
      · refine Or.inr ⟨_ :: earlier, error, congrArg _ others, ?_⟩
        intro outcome among
        rcases List.mem_cons.mp among with rfl | later
        · exact succeeded
        · exact all outcome later

/-- Behind a failure nothing is run: statements that fail before a separator
come to the same whatever follows it. -/
theorem runStatements_of_failed_front (session : Session) {front : Cursor}
    (no_finish : .finish ∉ front)
    (fails : ∃ outcome ∈ (session.runStatements (front ++ [.finish])).1,
      outcome.isFailed = true) (behind behind' : Cursor) :
    session.runStatements (front ++ .separator :: behind) =
      session.runStatements (front ++ .separator :: behind') := by
  have failure : (session.runStatements (front ++ [.finish])).1.any
      Outcome.isFailed = true := List.any_eq_true.mpr fails
  have spliced (more : Cursor) :
      session.runStatements (front ++ .separator :: more) =
        ((session.runStatements (front ++ [.finish])).1.map Outcome.followed,
          (session.runStatements (front ++ [.finish])).2) := by
    rw [← Cursor.splice_concat_finish no_finish, runStatements_splice]
    simp only [failure, if_true]
  rw [spliced, spliced]

/-! ## Lines -/

/-- The `finish` of a line stands behind all of its separators. -/
theorem finish_not_mem_front {line : String} {front behind : List Token}
    (cut : tokenize line = .ok (front ++ .separator :: behind)) :
    .finish ∉ front := by
  obtain ⟨pieces, -, tokens, clean⟩ := tokenize_eq_ok cut
  have whole : front <+: Source.assemble false pieces ++ [.finish] :=
    tokens ▸ List.prefix_append _ _
  have shorter : front.length ≤ (Source.assemble false pieces).length := by
    have lengths := congrArg List.length tokens
    simp only [List.length_append, List.length_cons, List.length_nil]
      at lengths
    omega
  have inside : front <+: Source.assemble false pieces :=
    List.prefix_of_prefix_length_le whole (List.prefix_append _ _) shorter
  intro among
  exact clean (inside.subset among)

theorem runLines_failures (session : Session) (lines : List String) :
    (session.runLines lines).2.failures =
      session.failures +
        (session.runLines lines).1.flatten.countP Outcome.isFailed := by
  induction lines generalizing session with
  | nil => rfl
  | cons line rest ih =>
      have first := session.runLine_failures line
      have others := ih (session.runLine line).2
      show ((session.runLine line).2.runLines rest).2.failures =
        session.failures + ((session.runLine line).1 ++
          ((session.runLine line).2.runLines rest).1.flatten).countP
            Outcome.isFailed
      rw [others, first, List.countP_append, Nat.add_assoc]

/-- **Every failure counts once, and ends its line.**  A line that cannot be
cut into tokens is one failure and does nothing else.  In any other line at
most the last outcome failed, with an evaluation error, and the count grows
by one exactly if it did; what follows the separator behind the failed
statement makes no difference.  So the failures of a session are the failed
outcomes it has given. -/
theorem failures_counted :
    (∀ (session : Session) (line : String),
      (∀ cause : LexicalError, tokenize line = .error cause →
        session.runLine line =
          ([.failed (.lexical cause)],
            { session with failures := session.failures + 1 })) ∧
      (∀ tokens : List Token, tokenize line = .ok tokens →
        (((∀ outcome ∈ (session.runLine line).1, outcome.isFailed = false) ∧
            (session.runLine line).2.failures = session.failures) ∨
          ∃ (earlier : List Outcome) (error : EvalError),
            (session.runLine line).1 =
              earlier ++ [.failed (.evaluation error)] ∧
            (∀ outcome ∈ earlier, outcome.isFailed = false) ∧
            (session.runLine line).2.failures = session.failures + 1) ∧
        ∀ front behind : List Token, tokens = front ++ .separator :: behind →
          (∃ outcome ∈ (session.runStatements (front ++ [.finish])).1,
            outcome.isFailed = true) →
          ∀ (line' : String) (behind' : List Token),
            tokenize line' = .ok (front ++ .separator :: behind') →
            session.runLine line' = session.runLine line)) ∧
    ∀ (settings : Settings) (lines : List String),
      ((ofSettings settings).runLines lines).2.failures =
        ((ofSettings settings).runLines lines).1.flatten.countP
          Outcome.isFailed := by
  refine ⟨?_, ?_⟩
  · intro session line
    refine ⟨?_, ?_⟩
    · intro cause unreadable
      exact runLine_error unreadable session
    · intro tokens readable
      refine ⟨?_, ?_⟩
      · have count := session.runLine_failures line
        have ran : (session.runLine line).1 =
            (session.runStatements tokens).1 := by
          rw [runLine_ok readable]
        rcases session.runStatements_succeed_or_fail tokens with
          all | ⟨earlier, error, outcomes, all⟩
        · rw [ran] at count ⊢
          rw [countP_isFailed_of_succeeded all] at count
          exact Or.inl ⟨all, count⟩
        · rw [ran, outcomes, List.countP_append,
            countP_isFailed_of_succeeded all] at count
          exact Or.inr ⟨earlier, error, ran.trans outcomes, all, count⟩
      · intro front behind split fails line' behind' readable'
        subst split
        have no_finish := finish_not_mem_front readable
        rw [runLine_ok readable, runLine_ok readable',
          session.runStatements_of_failed_front no_finish fails behind'
            behind]
  · intro settings lines
    rw [runLines_failures]
    exact Nat.zero_add _

theorem failures_counted_divide :
    let session := ofSettings {}
    session.runLine "x = 1; 2 @ 3" =
        ([.failed (.lexical (.unexpectedCharacter "@" 10))],
          { session with failures := 1 }) ∧
      session.runLine "x = 1; 2 / 0; quit; $9" =
        session.runLine "x = 1; 2 / 0; x = 3" := by
  intro session
  let front : List Token :=
    [.name "x", .assign, .number 1, .separator, .number 2, .divide, .number 0]
  let behind : List Token := [.name "x", .assign, .number 3, .finish]
  let others : List Token :=
    [.name "quit", .separator, .reference 9, .finish]
  have unreadable : tokenize "x = 1; 2 @ 3" =
      .error (.unexpectedCharacter "@" 10) := by decide +kernel
  have readable : tokenize "x = 1; 2 / 0; x = 3" =
      .ok (front ++ .separator :: behind) := by decide +kernel
  have readable' : tokenize "x = 1; 2 / 0; quit; $9" =
      .ok (front ++ .separator :: others) := by decide +kernel
  have fails : .failed (.evaluation .divideByZero) ∈
      (session.runStatements (front ++ [.finish])).1 := by decide +kernel
  obtain ⟨lexical, -⟩ := failures_counted.1 session "x = 1; 2 @ 3"
  obtain ⟨-, evaluation⟩ := failures_counted.1 session "x = 1; 2 / 0; x = 3"
  constructor
  · exact lexical _ unreadable
  · obtain ⟨-, ends⟩ := evaluation (front ++ .separator :: behind) readable
    exact ends front behind rfl ⟨_, fails, rfl⟩ "x = 1; 2 / 0; quit; $9" others
      readable'

end Session

end Reckoner
