/-
# Statements in turn

The loop of a line without its termination proof: one equation for each way
in which a token can stand at its head, and the induction along them.  A
statement reads and writes a context only.  What else a session holds takes
no part in it: settings and the wish to end stay, and failures are counted
from the outcomes.
-/
import Reckoner.Proofs.Reply
import Reckoner.Session

namespace Reckoner

/-! ## What evaluations leave alone -/

/-- Contexts that differ in their variables, requests and stored results
only. -/
structure Context.Kindred (a b : Context) : Prop where
  functions : b.functions = a.functions
  modifiers : b.modifiers = a.modifiers
  policy : b.policy = a.policy
  capacity : b.history.capacity = a.history.capacity

namespace Context

theorem Kindred.refl (a : Context) : Kindred a a :=
  ⟨rfl, rfl, rfl, rfl⟩

theorem Kindred.trans {a b c : Context} (first : Kindred a b)
    (second : Kindred b c) : Kindred a c :=
  ⟨second.functions.trans first.functions,
    second.modifiers.trans first.modifiers,
    second.policy.trans first.policy,
    second.capacity.trans first.capacity⟩

end Context

theorem Token.ne_of_begins {token : Token}
    (begins : token.endsStatement = false) :
    token ≠ .separator ∧ token ≠ .finish := by
  constructor
  · rintro rfl
    cases begins
  · rintro rfl
    cases begins

theorem Token.begins_of_ne {token : Token} (no_separator : token ≠ .separator)
    (no_finish : token ≠ .finish) : token.endsStatement = false := by
  cases token with
  | separator => exact absurd rfl no_separator
  | finish => exact absurd rfl no_finish
  | _ => rfl

namespace Session

open Context (Kindred)

theorem runStatement_of_failure {session : Session} {s rest : Cursor}
    {error : EvalError} {after : Effects}
    (came : session.context.reply s = .failure error after rest) :
    session.runStatement s =
      ⟨.failed (.evaluation error),
        { session with context := session.context.after after }, rest⟩ := by
  rw [runStatement, Context.evaluate_eq]
  simp only [Lookahead.start, came]
  rfl

/-- A statement that has a value succeeds if it has been read to its end. -/
theorem runStatement_of_value {session : Session} {s rest : Cursor}
    {v : Float} {after : Effects}
    (came : session.context.reply s = .value v after rest) :
    session.runStatement s =
      if rest.current.endsStatement then
        ⟨if after.silent then .silent else .value v,
          { session with
            context := { session.context.after after with
              history := session.context.history.push v } }, rest⟩
      else
        ⟨.failed (.evaluation (.trailingToken rest.current)),
          { session with context := session.context.after after }, rest⟩ := by
  rw [runStatement, Context.evaluate_eq]
  simp only [Lookahead.start, came, conclude, Reply.value]
  split
  · rfl
  · rfl

/-- A statement that has a value fails only if tokens are left over. -/
theorem isFailed_of_value {session : Session} {s rest : Cursor} {v : Float}
    {after : Effects}
    (came : session.context.reply s = .value v after rest) :
    (session.runStatement s).outcome.isFailed = !rest.current.endsStatement := by
  rw [runStatement_of_value came]
  cases rest.current.endsStatement with
  | true =>
      cases after.silent with
      | true => rfl
      | false => rfl
  | false => rfl

theorem runStatement_vars (session : Session) (s : Cursor) :
    (session.runStatement s).session.context.vars =
      (session.context.reply s).effects.vars := by
  rcases (session.context.reply s).value_or_failure with
    ⟨v, after, rest, came⟩ | ⟨error, after, rest, came⟩
  · rw [runStatement_of_value came, came]
    split
    · rfl
    · rfl
  · rw [runStatement_of_failure came, came]
    rfl

/-- The value that the statement at the current token yields if it
succeeds, shown or not. -/
def value? (session : Session) (s : Cursor) : Option Float :=
  if (session.runStatement s).outcome.isFailed then none
  else (session.context.evaluate .positioned s).result.toOption

theorem value?_of_failure {session : Session} {s rest : Cursor}
    {error : EvalError} {after : Effects}
    (came : session.context.reply s = .failure error after rest) :
    session.value? s = none := by
  rw [value?, runStatement_of_failure came]
  rfl

theorem value?_of_value {session : Session} {s rest : Cursor} {v : Float}
    {after : Effects}
    (came : session.context.reply s = .value v after rest) :
    session.value? s = if rest.current.endsStatement then some v else none := by
  rw [value?, isFailed_of_value came, Context.evaluate_eq]
  simp only [Lookahead.start, came]
  cases rest.current.endsStatement with
  | true => rfl
  | false => rfl

/-- A statement yields a value exactly if it does not fail. -/
theorem isSome_value? (session : Session) (s : Cursor) :
    (session.value? s).isSome = !(session.runStatement s).outcome.isFailed := by
  rcases (session.context.reply s).value_or_failure with
    ⟨v, after, rest, came⟩ | ⟨error, after, rest, came⟩
  · rw [value?_of_value came, isFailed_of_value came]
    cases rest.current.endsStatement with
    | true => rfl
    | false => rfl
  · rw [value?_of_failure came, runStatement_of_failure came]
    rfl

theorem value?_of_failed {session : Session} {s : Cursor}
    (failed : (session.runStatement s).outcome.isFailed = true) :
    session.value? s = none := by
  refine Option.not_isSome_iff_eq_none.mp ?_
  rw [isSome_value?, failed]
  exact Bool.false_ne_true

theorem runStatement_kindred (session : Session) (s : Cursor) :
    Kindred session.context (session.runStatement s).session.context := by
  rcases (session.context.reply s).value_or_failure with
    ⟨v, after, rest, came⟩ | ⟨error, after, rest, came⟩
  · rw [runStatement_of_value came]
    split
    · exact ⟨rfl, rfl, rfl, rfl⟩
    · exact ⟨rfl, rfl, rfl, rfl⟩
  · rw [runStatement_of_failure came]
    exact ⟨rfl, rfl, rfl, rfl⟩

theorem runStatement_of_context {session session' : Session}
    (same : session'.context = session.context) (s : Cursor) :
    session'.runStatement s =
      ⟨(session.runStatement s).outcome,
        { session' with context := (session.runStatement s).session.context },
        (session.runStatement s).rest⟩ := by
  unfold runStatement
  rw [same]

/-! ## The loop -/

theorem runStatements_nil (session : Session) :
    session.runStatements [] = ([], session) := by
  rw [runStatements]

theorem runStatements_finish (session : Session) (rest : Cursor) :
    session.runStatements (.finish :: rest) = ([], session) := by
  rw [runStatements, if_pos rfl]

theorem runStatements_separator (session : Session) (tail : Cursor) :
    session.runStatements (.separator :: tail) =
      session.runStatements tail := by
  rw [runStatements, if_neg (by decide), if_pos rfl]

theorem runStatements_failed {session : Session} {token : Token}
    {tail : Cursor} (begins : token.endsStatement = false)
    (failed : (session.runStatement (token :: tail)).outcome.isFailed = true) :
    session.runStatements (token :: tail) =
      ([(session.runStatement (token :: tail)).outcome],
        (session.runStatement (token :: tail)).session.fail) := by
  obtain ⟨no_separator, no_finish⟩ := Token.ne_of_begins begins
  rw [runStatements, if_neg no_finish, if_neg no_separator]
  simp only [failed, if_true]

theorem runStatements_succeeded {session : Session} {token : Token}
    {tail : Cursor} (begins : token.endsStatement = false)
    (succeeded :
      (session.runStatement (token :: tail)).outcome.isFailed = false) :
    session.runStatements (token :: tail) =
      let ran := session.runStatement (token :: tail)
      let others := ran.session.runStatements ran.rest
      (ran.outcome :: others.1, others.2) := by
  obtain ⟨no_separator, no_finish⟩ := Token.ne_of_begins begins
  rw [runStatements, if_neg no_finish, if_neg no_separator]
  simp only [succeeded, Bool.false_eq_true, if_false]

/-- What holds of every line if it passes along each statement. -/
@[elab_as_elim]
theorem runStatements_induction {motive : Session → Cursor → Prop}
    (nil : ∀ session, motive session [])
    (finish : ∀ session rest, motive session (.finish :: rest))
    (separator : ∀ session tail, motive session tail →
      motive session (.separator :: tail))
    (failed : ∀ session token tail, token.endsStatement = false →
      (session.runStatement (token :: tail)).outcome.isFailed = true →
      motive session (token :: tail))
    (succeeded : ∀ session token tail, token.endsStatement = false →
      (session.runStatement (token :: tail)).outcome.isFailed = false →
      motive (session.runStatement (token :: tail)).session
        (session.runStatement (token :: tail)).rest →
      motive session (token :: tail))
    (session : Session) (s : Cursor) : motive session s := by
  induction session, s using runStatements.induct with
  | case1 session => exact nil session
  | case2 session tail => exact finish session tail
  | case3 session tail _ ih => exact separator session tail ih
  | case4 session token tail no_finish no_separator ran fails =>
      exact failed session token tail
        (Token.begins_of_ne no_separator no_finish) fails
  | case5 session token tail no_finish no_separator ran succeeds _ _ _ ih =>
      exact succeeded session token tail
        (Token.begins_of_ne no_separator no_finish)
        (Bool.eq_false_iff.mpr succeeds) ih

theorem runStatements_kindred (session : Session) (s : Cursor) :
    Kindred session.context (session.runStatements s).2.context := by
  induction session, s using runStatements_induction with
  | nil session =>
      rw [runStatements_nil]
      exact .refl _
  | finish session rest =>
      rw [runStatements_finish]
      exact .refl _
  | separator session tail ih =>
      rw [runStatements_separator]
      exact ih
  | failed session token tail begins failed =>
      rw [runStatements_failed begins failed]
      exact session.runStatement_kindred _
  | succeeded session token tail begins succeeded ih =>
      rw [runStatements_succeeded begins succeeded]
      exact (session.runStatement_kindred _).trans ih

/-- **Statements read and write the context.**  A session with the same
context has the same outcomes and comes to the same context; its settings
and its wish to end stay, and every failure is counted. -/
theorem runStatements_of_context {session session' : Session}
    (same : session'.context = session.context) (s : Cursor) :
    session'.runStatements s =
      ((session.runStatements s).1,
        { session' with
          context := (session.runStatements s).2.context
          failures := session'.failures +
            (session.runStatements s).1.countP Outcome.isFailed }) := by
  induction session, s using runStatements_induction generalizing session' with
  | nil session =>
      rw [runStatements_nil, runStatements_nil]
      exact congrArg (Prod.mk _) (by cases session'; cases same; rfl)
  | finish session rest =>
      rw [runStatements_finish, runStatements_finish]
      exact congrArg (Prod.mk _) (by cases session'; cases same; rfl)
  | separator session tail ih =>
      rw [runStatements_separator, runStatements_separator]
      exact ih same
  | failed session token tail begins failed =>
      have ran := runStatement_of_context same (token :: tail)
      have failed' :
          (session'.runStatement (token :: tail)).outcome.isFailed = true := by
        rw [ran]
        exact failed
      rw [runStatements_failed begins failed,
        runStatements_failed begins failed', ran]
      simp only [fail, List.countP_singleton, failed, if_true]
  | succeeded session token tail begins succeeded ih =>
      have ran := runStatement_of_context same (token :: tail)
      have succeeded' :
          (session'.runStatement (token :: tail)).outcome.isFailed = false := by
        rw [ran]
        exact succeeded
      let next : Session := { session' with
        context := (session.runStatement (token :: tail)).session.context }
      have others := ih (show next.context = _ from rfl)
      rw [runStatements_succeeded begins succeeded,
        runStatements_succeeded begins succeeded', ran]
      simp only [next] at others ⊢
      rw [others]
      simp only [List.countP_cons, succeeded, Bool.false_eq_true, if_false,
        Nat.add_zero]

theorem runStatements_settings (session : Session) (s : Cursor) :
    (session.runStatements s).2.settings = session.settings := by
  rw [runStatements_of_context (Eq.refl session.context)]

theorem runStatements_finished (session : Session) (s : Cursor) :
    (session.runStatements s).2.finished = session.finished := by
  rw [runStatements_of_context (Eq.refl session.context)]

theorem runStatements_failures (session : Session) (s : Cursor) :
    (session.runStatements s).2.failures = session.failures +
      (session.runStatements s).1.countP Outcome.isFailed :=
  congrArg (fun ran : List Outcome × Session => ran.2.failures)
    (runStatements_of_context (Eq.refl session.context) s)

/-- Only the last statement of a line can fail. -/
theorem runStatements_dropLast (session : Session) (s : Cursor) :
    ∀ outcome ∈ (session.runStatements s).1.dropLast,
      outcome.isFailed = false := by
  induction session, s using runStatements_induction with
  | nil session =>
      rw [runStatements_nil]
      intro outcome h
      cases h
  | finish session rest =>
      rw [runStatements_finish]
      intro outcome h
      cases h
  | separator session tail ih =>
      rw [runStatements_separator]
      exact ih
  | failed session token tail begins failed =>
      rw [runStatements_failed begins failed]
      intro outcome h
      cases h
  | succeeded session token tail begins succeeded ih =>
      rw [runStatements_succeeded begins succeeded]
      simp only
      intro outcome h
      cases others : ((session.runStatement (token :: tail)).session.runStatements
          (session.runStatement (token :: tail)).rest).1 with
      | nil =>
          rw [others] at h
          cases h
      | cons second rest =>
          rw [others] at h ih
          rw [List.dropLast_cons_of_ne_nil (List.cons_ne_nil _ _)] at h
          rcases List.mem_cons.mp h with rfl | h
          · exact succeeded
          · exact ih outcome h

/-! ## Lines -/

/-- The requests that are pending when the statements of a line have been
run and the session has not yet acted on them. -/
def requested (session : Session) (line : String) : Requests :=
  match tokenize line with
  | .ok tokens => (session.runStatements tokens).2.context.requests
  | .error _ => session.context.requests

theorem runLine_ok {line : String} {tokens : List Token}
    (readable : tokenize line = .ok tokens) (session : Session) :
    session.runLine line =
      ((session.runStatements tokens).1,
        (session.runStatements tokens).2.applyRequests) := by
  rw [runLine, readable]

/-- A line that is one statement with a value shows that value. -/
theorem runLine_of_value {session : Session} {line : String} {token : Token}
    {tail : Cursor} (readable : tokenize line = .ok (token :: tail))
    (begins : token.endsStatement = false) {v : Float}
    (came : session.context.reply (token :: tail) =
      .value v session.context.effects [.finish]) :
    (session.runLine line).1 = [.value v] := by
  have succeeded : (session.runStatement
      (token :: tail)).outcome.isFailed = false :=
    isFailed_of_value came
  have ends : (Cursor.current [.finish]).endsStatement = true := rfl
  have ran := runStatement_of_value came
  rw [if_pos ends] at ran
  rw [runLine_ok readable, runStatements_succeeded begins succeeded]
  simp only [ran, runStatements_finish]
  rfl

theorem runLine_error {line : String} {cause : LexicalError}
    (unreadable : tokenize line = .error cause) (session : Session) :
    session.runLine line = ([.failed (.lexical cause)], session.fail) := by
  rw [runLine, unreadable]

theorem applyRequests_kindred (session : Session) :
    Kindred session.context session.applyRequests.context := by
  show Kindred _ (if session.context.requests.clear then _ else _)
  split
  · exact ⟨rfl, rfl, rfl, rfl⟩
  · exact ⟨rfl, rfl, rfl, rfl⟩

theorem runLine_kindred (session : Session) (line : String) :
    Kindred session.context (session.runLine line).2.context := by
  cases cut : tokenize line with
  | error cause =>
      rw [runLine_error cut]
      exact .refl _
  | ok tokens =>
      rw [runLine_ok cut]
      exact (session.runStatements_kindred tokens).trans
        (applyRequests_kindred _)

theorem applyRequests_of_context {session session' : Session}
    (same : session'.context = session.context) :
    session'.applyRequests.context = session.applyRequests.context := by
  simp only [applyRequests, same]

/-- A line reads and writes the context. -/
theorem runLine_of_context {session session' : Session}
    (same : session'.context = session.context) (line : String) :
    (session'.runLine line).1 = (session.runLine line).1 ∧
      (session'.runLine line).2.context = (session.runLine line).2.context := by
  cases cut : tokenize line with
  | error cause =>
      rw [runLine_error cut, runLine_error cut]
      exact ⟨rfl, same⟩
  | ok tokens =>
      rw [runLine_ok cut, runLine_ok cut, runStatements_of_context same]
      exact ⟨rfl, applyRequests_of_context rfl⟩

/-- No request outlives a line. -/
theorem runLine_requests {session : Session}
    (idle : session.context.requests = .none) (line : String) :
    (session.runLine line).2.context.requests = .none := by
  cases cut : tokenize line with
  | error cause =>
      rw [runLine_error cut]
      exact idle
  | ok tokens =>
      rw [runLine_ok cut]
      show Context.requests (if _ then _ else _) = _
      split
      · rfl
      · rfl

/-- A line ends the session exactly if it asks for the end. -/
theorem runLine_finished {session : Session}
    (idle : session.context.requests = .none) (line : String) :
    (session.runLine line).2.finished =
      (session.finished || (session.requested line).quit) := by
  unfold requested
  cases cut : tokenize line with
  | error cause =>
      rw [runLine_error cut]
      simp only [idle]
      exact (Bool.or_false session.finished).symm
  | ok tokens =>
      rw [runLine_ok cut]
      simp only [applyRequests, runStatements_finished]

/-- Every failed outcome of a line is counted. -/
theorem runLine_failures (session : Session) (line : String) :
    (session.runLine line).2.failures = session.failures +
      (session.runLine line).1.countP Outcome.isFailed := by
  cases cut : tokenize line with
  | error cause =>
      rw [runLine_error cut]
      rfl
  | ok tokens =>
      rw [runLine_ok cut]
      exact session.runStatements_failures tokens

/-! ## Runs of lines -/

/-- Runs lines one after the other, whether or not the end is asked for. -/
def runLines (session : Session) : List String → List (List Outcome) × Session
  | [] => ([], session)
  | line :: rest =>
    let (outcomes, next) := session.runLine line
    let (others, last) := next.runLines rest
    (outcomes :: others, last)

theorem runLines_concat (session : Session) (lines : List String)
    (line : String) :
    (session.runLines (lines ++ [line])).2 =
      ((session.runLines lines).2.runLine line).2 := by
  induction lines generalizing session with
  | nil => rfl
  | cons first rest ih => exact ih (session.runLine first).2

/-- A line and the session that it is run in. -/
structure LineRun where
  session : Session
  line : String

/-- What becomes of the line. -/
def LineRun.outcomes (run : LineRun) : List Outcome :=
  (run.session.runLine run.line).1

/-- What the line asks for. -/
def LineRun.requests (run : LineRun) : Requests :=
  run.session.requested run.line

/-- The lines of a run, each with the session that it finds. -/
def passage (session : Session) : List String → List LineRun
  | [] => []
  | line :: rest => ⟨session, line⟩ :: (session.runLine line).2.passage rest

theorem passage_concat (session : Session) (lines : List String)
    (line : String) :
    session.passage (lines ++ [line]) =
      session.passage lines ++ [⟨(session.runLines lines).2, line⟩] := by
  induction lines generalizing session with
  | nil => rfl
  | cons first rest ih => exact congrArg (List.cons _) (ih _)

theorem runLines_kindred (session : Session) (lines : List String) :
    Kindred session.context (session.runLines lines).2.context := by
  induction lines generalizing session with
  | nil => exact .refl _
  | cons line rest ih => exact (session.runLine_kindred line).trans (ih _)

theorem runLines_requests {session : Session}
    (idle : session.context.requests = .none) (lines : List String) :
    (session.runLines lines).2.context.requests = .none := by
  induction lines generalizing session with
  | nil => exact idle
  | cons line rest ih => exact ih (runLine_requests idle line)

/-- Lines read and write the context. -/
theorem runLines_of_context {session session' : Session}
    (same : session'.context = session.context) (lines : List String) :
    (session'.runLines lines).1 = (session.runLines lines).1 ∧
      (session'.runLines lines).2.context =
        (session.runLines lines).2.context := by
  induction lines generalizing session session' with
  | nil => exact ⟨rfl, same⟩
  | cons line rest ih =>
      obtain ⟨outcomes, next⟩ := runLine_of_context same line
      obtain ⟨others, last⟩ := ih next
      exact ⟨congrArg₂ List.cons outcomes others, last⟩

end Session

end Reckoner
