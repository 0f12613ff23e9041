/-
# Every line ends

Two things could keep a line from ending: an evaluation that calls itself
without end, and a loop over statements that stays where it is.

The first is ruled out by the chains of calls, which are no longer than ten
for each token and a little more.  A count of tokens alone would not do.  A
primary may be nothing, and then the operators behind it are tried at the
same token; and at a `finish` there is no moving on.  It is the rank of the
goal that goes down there.

The second is ruled out by progress.  A primary that is nothing is followed
by the operator that it stands for, so no expression has a value unless a
token was read (`length_lt_of_level`).
-/
import Reckoner.Proofs.Calls
import Reckoner.Proofs.Statements

namespace Reckoner

namespace Reply

variable {v : Float} {effects after : Effects} {s rest : Cursor}

theorem failure_ne_value {error : EvalError} :
    failure error effects s ≠ value v after rest :=
  fun eq => absurd (congrArg result eq) nofun

/-- A value in parentheses stood in front of a `)`. -/
theorem of_close_eq_value {u : Float}
    (came : close u effects s = value v after rest) :
    s = .closing :: rest := by
  unfold close at came
  split at came
  · obtain rfl := congrArg Reply.rest came
    rfl
  · exact absurd came failure_ne_value

end Reply

namespace Environment

variable {env : Environment} {effects after : Effects} {s rest : Cursor}
  {v : Float}

/-! ## Progress -/

/-- A token that is read, with nothing read behind it, is one token less. -/
theorem length_lt_of_value {u : Float} {mid : Effects} {token : Token}
    {tail : Cursor} (came : Reply.value u mid tail = .value v after rest) :
    rest.length < (token :: tail).length := by
  obtain rfl : tail = rest := congrArg Reply.rest came
  exact Nat.lt_succ_self _

/-- Behind a token that is read, an evaluation leaves fewer tokens than there
were with it. -/
theorem length_lt_of_reply {goal : Goal} {token : Token} {tail : Cursor}
    (came : env.reply goal effects tail = .value v after rest) :
    rest.length < (token :: tail).length :=
  Nat.lt_succ_of_le (env.rest_suffix_of_reply came).length_le

theorem length_lt_of_name {name : String} {tail : Cursor}
    (came : env.reply .primary effects (.name name :: tail) =
      .value v after rest) :
    rest.length < (Token.name name :: tail).length := by
  cases bound : env.binding name with
  | function f =>
      rw [env.reply_call bound] at came
      obtain ⟨u, mid, t, first, last⟩ := Reply.of_andThen_eq_value came
      obtain rfl : t = rest := congrArg Reply.rest last
      exact length_lt_of_reply first
  | modifier m =>
      rw [env.reply_modifier bound] at came
      exact length_lt_of_value came
  | _ =>
      by_cases assigns : ∃ body, tail = .assign :: body
      · obtain ⟨body, rfl⟩ := assigns
        rw [env.reply_assign bound] at came
        obtain ⟨u, mid, t, first, last⟩ := Reply.of_andThen_eq_value came
        obtain rfl : t = rest := congrArg Reply.rest last
        exact Nat.lt_succ_of_lt (length_lt_of_reply first)
      · have no_assign : tail.current ≠ .assign := by
          intro here
          cases tail with
          | nil => cases here
          | cons token body =>
              obtain rfl : token = .assign := here
              exact assigns ⟨body, rfl⟩
        rw [env.reply_variable bound no_assign] at came
        cases known : effects.vars.get? name with
        | some u =>
            rw [known] at came
            exact length_lt_of_value came
        | none =>
            rw [known] at came
            exact absurd came Reply.failure_ne_value

/-- A primary reads a token, or is nothing in front of an operator. -/
theorem primary_progress
    (came : env.reply .primary effects s = .value v after rest) :
    rest.length < s.length ∨
      rest = s ∧ ∃ op, UnaryOperator.ofToken? s.current = some op := by
  cases here : UnaryOperator.ofToken? s.current with
  | some op =>
      rw [env.reply_nothing here] at came
      exact Or.inr ⟨(congrArg Reply.rest came).symm, op, rfl⟩
  | none =>
      left
      by_cases begins : s.current.beginsPrimary = true
      · cases s with
        | nil => cases begins
        | cons token tail =>
            cases token with
            | number u =>
                rw [reply_number] at came
                exact length_lt_of_value came
            | factorial =>
                rw [reply_stray] at came
                exact length_lt_of_value came
            | name name => exact length_lt_of_name came
            | opening =>
                rw [reply_opening] at came
                obtain ⟨u, mid, t, first, last⟩ :=
                  Reply.of_andThen_eq_value came
                obtain rfl := Reply.of_close_eq_value last
                exact Nat.lt_of_succ_lt (length_lt_of_reply first)
            | reference offset =>
                rw [reply_reference] at came
                cases found : env.history.recent? offset with
                | some u =>
                    rw [found] at came
                    exact length_lt_of_value came
                | none =>
                    rw [found] at came
                    exact absurd came Reply.failure_ne_value
            | complement | literal | power | negate => cases here
            | _ => cases begins
      · rw [env.reply_unexpected (Bool.eq_false_iff.mpr begins)] at came
        exact absurd came Reply.failure_ne_value

/-- An operator of one primary is read. -/
theorem length_lt_of_moreUnary {operand : Operand} {op : UnaryOperator}
    (here : UnaryOperator.ofToken? s.current = some op)
    (came : env.reply (.moreUnary operand) effects s = .value v after rest) :
    rest.length < s.length := by
  cases s with
  | nil => cases here
  | cons token tail =>
      have here : UnaryOperator.ofToken? token = some op := here
      rw [env.reply_moreUnary_step here] at came
      obtain ⟨u, mid, t, first, last⟩ := Reply.of_andThen_eq_value came
      have behind := (env.rest_suffix_of_reply last).length_le
      exact Nat.lt_of_le_of_lt behind (length_lt_of_reply first)

theorem length_lt_of_unary
    (came : env.reply .unary effects s = .value v after rest) :
    rest.length < s.length := by
  rw [reply_unary] at came
  obtain ⟨u, mid, t, first, last⟩ := Reply.of_andThen_eq_value came
  rcases primary_progress first with read | ⟨rfl, op, here⟩
  · exact Nat.lt_of_le_of_lt (env.rest_suffix_of_reply last).length_le read
  · exact length_lt_of_moreUnary here last

/-- A level reads a token if its operands do. -/
theorem length_lt_of_operand {l : Level}
    (operand : ∀ {v after rest},
      env.reply (.operand l) effects s = .value v after rest →
      rest.length < s.length)
    (came : env.reply (.level l) effects s = .value v after rest) :
    rest.length < s.length := by
  rw [reply_level] at came
  obtain ⟨u, mid, t, first, last⟩ := Reply.of_andThen_eq_value came
  exact Nat.lt_of_le_of_lt (env.rest_suffix_of_reply last).length_le
    (operand first)

/-- **An expression that has a value has read a token.** -/
theorem length_lt_of_level {l : Level}
    (came : env.reply (.level l) effects s = .value v after rest) :
    rest.length < s.length := by
  have bitwise {v after rest}
      (came : env.reply (.level .bitwise) effects s = .value v after rest) :
      rest.length < s.length :=
    length_lt_of_operand length_lt_of_unary came
  have product {v after rest}
      (came : env.reply (.level .product) effects s = .value v after rest) :
      rest.length < s.length :=
    length_lt_of_operand bitwise came
  cases l with
  | bitwise => exact bitwise came
  | product => exact product came
  | sum => exact length_lt_of_operand product came

end Environment

namespace Context

/-- One expression, evaluated no deeper than `depth` calls; nothing if that
is not enough. -/
def evaluateWithin (depth : Nat) (context : Context) (lookahead : Lookahead)
    (s : Cursor) : Option Evaluation :=
  (context.within depth
      ⟨.level .sum, context.effects, lookahead.start s⟩).map fun reply =>
    { result := reply.result
      silent := reply.effects.silent
      context := context.after reply.effects
      rest := reply.rest }

/-- A depth of ten for each token and nine more is enough. -/
theorem evaluateWithin_eq {depth : Nat} {s : Cursor}
    (enough : 10 * s.length + 9 ≤ depth) (context : Context)
    (lookahead : Lookahead) :
    context.evaluateWithin depth lookahead s =
      some (context.evaluate lookahead s) := by
  have shorter := (lookahead.start_suffix s).length_le
  have small : Task.measure
      ⟨.level .sum, context.effects, lookahead.start s⟩ < depth := by
    simp only [Task.measure, Goal.measure, Goal.rank]
    omega
  rw [evaluateWithin, context.within_eq_perform small, context.evaluate_eq]
  rfl

/-- **An expression that has a value moves the cursor on.** -/
theorem length_rest_lt_of_ok {context : Context} {lookahead : Lookahead}
    {s : Cursor} {v : Float}
    (succeeds : (context.evaluate lookahead s).result = .ok v) :
    (context.evaluate lookahead s).rest.length < s.length := by
  have shorter := (lookahead.start_suffix s).length_le
  rw [context.evaluate_eq] at succeeds ⊢
  rcases (context.reply (lookahead.start s)).value_or_failure with
    ⟨u, after, rest, came⟩ | ⟨error, after, rest, came⟩
  · rw [came]
    exact Nat.lt_of_lt_of_le (Environment.length_lt_of_level came) shorter
  · rw [came] at succeeds
    cases succeeds

end Context

namespace Session

/-- The statements of a line, run in no more than `rounds` rounds of the loop
and evaluated no deeper than `depth` calls; nothing if that is not enough. -/
def runStatementsWithin (depth : Nat) :
    Nat → Session → Cursor → Option (List Outcome × Session)
  | 0, _, _ => none
  | _ + 1, session, [] => some ([], session)
  | rounds + 1, session, token :: tail =>
    if token = .finish then some ([], session)
    else if token = .separator then runStatementsWithin depth rounds session tail
    else
      match session.context.evaluateWithin depth .positioned (token :: tail) with
      | none => none
      | some evaluation =>
        let (outcome, context) := conclude evaluation
        let session := { session with context }
        if outcome.isFailed then some ([outcome], session.fail)
        else
          (runStatementsWithin depth rounds session evaluation.rest).map
            fun (outcomes, last) => (outcome :: outcomes, last)

/-- A round with a statement in it, evaluated deep enough. -/
theorem runStatementsWithin_statement {depth : Nat} {token : Token}
    {tail : Cursor} (begins : token.endsStatement = false)
    (deep : 10 * (token :: tail).length + 9 ≤ depth) (session : Session)
    (rounds : Nat) :
    session.runStatementsWithin depth (rounds + 1) (token :: tail) =
      let ran := session.runStatement (token :: tail)
      if ran.outcome.isFailed then some ([ran.outcome], ran.session.fail)
      else
        (ran.session.runStatementsWithin depth rounds ran.rest).map
          fun (outcomes, last) => (ran.outcome :: outcomes, last) := by
  obtain ⟨no_separator, no_finish⟩ := Token.ne_of_begins begins
  rw [runStatementsWithin, if_neg no_finish, if_neg no_separator,
    Context.evaluateWithin_eq deep]
  rfl

/-- A round for each token and one more are enough. -/
theorem runStatementsWithin_eq {depth rounds : Nat} (session : Session)
    {s : Cursor} (deep : 10 * s.length + 9 ≤ depth)
    (long : s.length < rounds) :
    session.runStatementsWithin depth rounds s =
      some (session.runStatements s) := by
  -- each round reads a token, so the rounds that are left stay enough
  induction session, s using runStatements_induction generalizing rounds with
  | nil session =>
      obtain ⟨rounds, rfl⟩ := Nat.exists_eq_add_of_lt long
      rw [runStatements_nil]
      rfl
  | finish session rest =>
      obtain ⟨rounds, rfl⟩ := Nat.exists_eq_add_of_lt long
      rw [runStatements_finish, runStatementsWithin, if_pos rfl]
  | separator session tail ih =>
      cases rounds with
      | zero => exact absurd long (Nat.not_lt_zero _)
      | succ rounds =>
          rw [runStatements_separator, runStatementsWithin,
            if_neg (by decide), if_pos rfl]
          refine ih ?_ (Nat.lt_of_succ_lt_succ long)
          exact Nat.le_trans
            (Nat.add_le_add_right (Nat.mul_le_mul_left 10 (Nat.le_succ _)) 9)
            deep
  | failed session token tail begins failed =>
      cases rounds with
      | zero => exact absurd long (Nat.not_lt_zero _)
      | succ rounds =>
          rw [runStatementsWithin_statement begins deep,
            runStatements_failed begins failed]
          simp only [failed, if_true]
  | succeeded session token tail begins succeeded ih =>
      cases rounds with
      | zero => exact absurd long (Nat.not_lt_zero _)
      | succ rounds =>
          have shorter := runStatement_rest_lt begins succeeded
          rw [runStatementsWithin_statement begins deep,
            runStatements_succeeded begins succeeded]
          simp only [succeeded, Bool.false_eq_true, if_false]
          rw [ih (by omega) (by omega)]
          rfl

/-! ## Outcomes and separators -/

/-- The statements of a line are divided by separators.  The last one may
have none behind it. -/
theorem length_runStatements_le (session : Session) (s : Cursor) :
    (session.runStatements s).1.length ≤
      s.count .separator + if s.current.endsStatement then 0 else 1 := by
  induction session, s using runStatements_induction with
  | nil session =>
      rw [runStatements_nil]
      exact Nat.zero_le _
  | finish session rest =>
      rw [runStatements_finish]
      exact Nat.zero_le _
  | separator session tail ih =>
      rw [runStatements_separator]
      refine Nat.le_trans ih ?_
      rw [List.count_cons_self]
      split
      · exact Nat.le_succ _
      · exact Nat.le_refl _
  | failed session token tail begins failed =>
      rw [runStatements_failed begins failed]
      simp [Cursor.current, begins]
  | succeeded session token tail begins succeeded ih =>
      rw [runStatements_succeeded begins succeeded]
      have ends : (session.runStatement (token :: tail)).rest.current.endsStatement
          = true :=
        conclude_endsStatement succeeded
      have suffix : (session.runStatement (token :: tail)).rest <:+
          token :: tail :=
        session.context.evaluate_rest_suffix .positioned _
      have fewer := suffix.sublist.count_le .separator
      rw [ends, if_pos rfl] at ih
      simp only [List.length_cons, Cursor.current, begins]
      exact Nat.succ_le_succ (Nat.le_trans ih fewer)

/-- The number of separators in a line; an unreadable line has none. -/
def separators (line : String) : Nat :=
  match tokenize line with
  | .ok tokens => tokens.count .separator
  | .error _ => 0

theorem length_runLine_le (session : Session) (line : String) :
    (session.runLine line).1.length ≤ separators line + 1 := by
  unfold separators
  cases cut : tokenize line with
  | error cause =>
      rw [runLine_error cut]
      exact Nat.le_refl _
  | ok tokens =>
      rw [runLine_ok cut]
      refine Nat.le_trans (session.length_runStatements_le tokens) ?_
      split
      · exact Nat.le_succ _
      · exact Nat.le_refl _

/-- **Every line ends.**  Each call of an evaluation has a smaller measure, so
`n` tokens need no more than `10 * n + 9` calls within each other.  An
evaluation never moves back, and if it has a value it has moved on.  Hence a
line of `n` tokens needs no more than `n + 1` rounds of its loop, and it
gives at most one outcome more than it has separators. -/
theorem lines_end :
    (∀ (env : Environment) (task next : Task), env.Calls task next →
      next.measure < task.measure) ∧
    (∀ (context : Context) (lookahead : Lookahead) (s : Cursor),
      (∀ depth, 10 * s.length + 9 ≤ depth →
        context.evaluateWithin depth lookahead s =
          some (context.evaluate lookahead s)) ∧
      (context.evaluate lookahead s).rest <:+ s ∧
      ∀ v, (context.evaluate lookahead s).result = .ok v →
        (context.evaluate lookahead s).rest.length < s.length) ∧
    ∀ session : Session,
      (∀ s depth rounds, 10 * s.length + 9 ≤ depth → s.length < rounds →
        session.runStatementsWithin depth rounds s =
          some (session.runStatements s)) ∧
      ∀ line, (session.runLine line).1.length ≤ separators line + 1 := by
  refine ⟨?_, ?_, ?_⟩
  · intro env task next calls
    exact env.measure_lt_of_calls calls
  · intro context lookahead s
    refine ⟨?_, context.evaluate_rest_suffix lookahead s, ?_⟩
    · intro depth enough
      exact Context.evaluateWithin_eq enough context lookahead
    · intro v succeeds
      exact Context.length_rest_lt_of_ok succeeds
  · intro session
    refine ⟨?_, session.length_runLine_le⟩
    intro s depth rounds deep long
    exact session.runStatementsWithin_eq deep long

theorem lines_end_negated :
    let session := ofSettings {}
    let s : Cursor := [.negate, .negate, .number 5, .finish]
    (session.context.evaluate .positioned s).result = .ok (-5) ∧
      (session.context.evaluate .positioned s).rest.length < 4 ∧
      session.context.evaluateWithin 49 .positioned s =
        some (session.context.evaluate .positioned s) ∧
      session.runStatementsWithin 49 5 s =
        some (session.runStatements s) ∧
      Task.measure ⟨.primary, session.context.effects, s⟩ <
        Task.measure ⟨.unary, session.context.effects, s⟩ := by
  intro session s
  have result : (session.context.evaluate .positioned s).result =
      .ok (-5) := by decide +kernel
  obtain ⟨calls, evaluations, lines⟩ := lines_end
  obtain ⟨deep, -, moves⟩ := evaluations session.context .positioned s
  exact ⟨result, moves _ result, deep 49 (Nat.le_refl _),
    (lines session).1 s 49 5 (Nat.le_refl _) (Nat.lt_succ_self _),
    calls session.context.toEnvironment _ _ .primary⟩

end Session

end Reckoner
