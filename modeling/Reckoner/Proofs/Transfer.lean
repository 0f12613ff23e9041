/-
# Evaluations side by side

Two evaluations may begin with different requests pending and with tokens
that differ only in what ends them, and still do the same.  A **transfer**
is such a difference: a change of the requests that modifiers do not notice,
and a change of the tokens that leaves every token of a statement where it
is.  An evaluation carries a transfer along: what it comes to after the
change is the change of what it came to before.

Two transfers are used.  One puts further lines in the place of a `finish`,
the other begins with a wish to end pending.
-/
import Reckoner.Proofs.Reply

namespace Reckoner

namespace Token

theorem operator?_of_endsStatement {token : Token}
    (ends : token.endsStatement = true) (l : Level) :
    l.operator? token = none := by
  cases token with
  | separator | finish => cases l <;> rfl
  | _ => cases ends

theorem ofToken?_of_endsStatement {token : Token}
    (ends : token.endsStatement = true) :
    UnaryOperator.ofToken? token = none := by
  cases token with
  | separator | finish => rfl
  | _ => cases ends

theorem beginsPrimary_of_endsStatement {token : Token}
    (ends : token.endsStatement = true) : token.beginsPrimary = false := by
  cases token with
  | separator | finish => rfl
  | _ => cases ends

end Token

/-- A change of the pending requests and of the tokens to read that leaves
the tokens of a statement where they are. -/
structure Transfer where
  requests : Requests → Requests
  cursor : Cursor → Cursor
  /-- What the change makes of a current token. -/
  token : Token → Token
  cons {t : Token} (tail : Cursor) : t.endsStatement = false →
    cursor (t :: tail) = t :: cursor tail
  current (s : Cursor) : (cursor s).current = token s.current
  endsStatement (t : Token) : (token t).endsStatement = t.endsStatement

namespace Transfer

variable (T : Transfer)

/-- The modifiers that an environment can reach do not notice the change of
the requests. -/
def Unseen (env : Environment) : Prop :=
  ∀ name m, env.binding name = .modifier m →
    ∀ pending, m (T.requests pending) = T.requests (m pending)

def effects (effects : Effects) : Effects :=
  { effects with requests := T.requests effects.requests }

/-- The error with the changed token in the place of the one found. -/
def error : EvalError → EvalError
  | .unterminatedParenthesis found => .unterminatedParenthesis (T.token found)
  | .unexpectedToken found => .unexpectedToken (T.token found)
  | other => other

def reply (reply : Reply) : Reply :=
  ⟨reply.result.mapError T.error, T.effects reply.effects,
    T.cursor reply.rest⟩

/-! ## Tokens of a statement stay -/

theorem token_of_not_endsStatement {t : Token}
    (inside : t.endsStatement = false) : T.token t = t := by
  have here := T.current [t]
  rw [T.cons [] inside] at here
  exact here.symm

/-- A change of the current token goes unnoticed by what knows only the
tokens of statements. -/
theorem unnoticed {α : Type} {look : Token → α} {default : α}
    (blind : ∀ t, t.endsStatement = true → look t = default) (s : Cursor) :
    look (T.cursor s).current = look s.current := by
  rw [T.current]
  cases ends : s.current.endsStatement with
  | false => rw [T.token_of_not_endsStatement ends]
  | true =>
      rw [blind _ ends, blind _ ((T.endsStatement _).trans ends)]

theorem cons_of_operator {l : Level} {token : Token} {op : BinaryOperator}
    (here : l.operator? token = some op) (tail : Cursor) :
    T.cursor (token :: tail) = token :: T.cursor tail := by
  refine T.cons tail (Bool.eq_false_iff.mpr ?_)
  intro ends
  rw [Token.operator?_of_endsStatement ends] at here
  cases here

theorem cons_of_unaryOperator {token : Token} {op : UnaryOperator}
    (here : UnaryOperator.ofToken? token = some op) (tail : Cursor) :
    T.cursor (token :: tail) = token :: T.cursor tail := by
  refine T.cons tail (Bool.eq_false_iff.mpr ?_)
  intro ends
  rw [Token.ofToken?_of_endsStatement ends] at here
  cases here

theorem current_ne {t : Token} (inside : t.endsStatement = false)
    {s : Cursor} (h : s.current ≠ t) : (T.cursor s).current ≠ t := by
  intro same
  have blind (u : Token) (ends : u.endsStatement = true) :
      decide (u = t) = false := by
    refine decide_eq_false ?_
    intro eq
    rw [eq, inside] at ends
    cases ends
  have unnoticed := T.unnoticed blind s
  rw [decide_eq_true same] at unnoticed
  exact h (of_decide_eq_true unnoticed.symm)

/-! ## Replies -/

theorem reply_value (v : Float) (effects : Effects) (rest : Cursor) :
    T.reply (.value v effects rest) =
      .value v (T.effects effects) (T.cursor rest) := rfl

theorem reply_failure (error : EvalError) (effects : Effects) (rest : Cursor) :
    T.reply (.failure error effects rest) =
      .failure (T.error error) (T.effects effects) (T.cursor rest) := rfl

theorem reply_andThen {reply : Reply}
    {next next' : Float → Effects → Cursor → Reply}
    (goes_on : ∀ v after rest, reply = .value v after rest →
      next' v (T.effects after) (T.cursor rest) =
        T.reply (next v after rest)) :
    (T.reply reply).andThen next' = T.reply (reply.andThen next) := by
  rcases reply.value_or_failure with
    ⟨v, after, rest, rfl⟩ | ⟨error, after, rest, rfl⟩
  · exact goes_on v after rest rfl
  · rfl

theorem error_of_isRuntime {error : EvalError}
    (runtime : error.isRuntime = true) : T.error error = error := by
  cases error with
  | unterminatedParenthesis found | unexpectedToken found => cases runtime
  | _ => rfl

theorem reply_close (v : Float) (effects : Effects) (rest : Cursor) :
    Reply.close v (T.effects effects) (T.cursor rest) =
      T.reply (.close v effects rest) := by
  by_cases closes : ∃ tail, rest = .closing :: tail
  · obtain ⟨tail, rfl⟩ := closes
    rw [T.cons tail rfl]
    rfl
  · have open_here : rest.current ≠ .closing := by
      intro here
      cases rest with
      | nil => cases here
      | cons token tail => exact closes ⟨tail, congrArg (· :: tail) here⟩
    rw [Reply.close_of_ne open_here,
      Reply.close_of_ne (T.current_ne (t := .closing) rfl open_here), T.current]
    rfl

end Transfer

/-- **An evaluation carries a transfer along.** -/
theorem Environment.reply_transfer {env : Environment} {T : Transfer}
    (unseen : T.Unseen env) (goal : Goal) (effects : Effects) (s : Cursor) :
    env.reply goal (T.effects effects) (T.cursor s) =
      T.reply (env.reply goal effects s) := by
  induction goal, effects, s using env.evaluation_induction with
  | level l effects s operand more =>
      rw [reply_level, reply_level, operand]
      exact T.reply_andThen more
  | stop l left effects s stops =>
      have stops' : l.operator? (T.cursor s).current = none :=
        (T.unnoticed (fun _ ends => Token.operator?_of_endsStatement ends l)
          s).trans stops
      rw [env.reply_more_stop stops, env.reply_more_stop stops']
      rfl
  | step l left effects token tail op here operand more =>
      rw [T.cons_of_operator here, env.reply_more_step here,
        env.reply_more_step here, operand]
      refine T.reply_andThen ?_
      intro right after rest came
      cases applied : op.apply left right with
      | ok v => exact more right after rest v came applied
      | error error =>
          have runtime := BinaryOperator.isRuntime_of_apply applied
          rw [T.reply_failure, T.error_of_isRuntime runtime]
  | unary effects s primary more =>
      rw [reply_unary, reply_unary, primary]
      exact T.reply_andThen more
  | unaryStop operand effects s plain stops =>
      have plain' := T.current_ne (t := .factorial) rfl plain
      have stops' : UnaryOperator.ofToken? (T.cursor s).current = none :=
        (T.unnoticed (fun _ => Token.ofToken?_of_endsStatement) s).trans stops
      rw [env.reply_moreUnary_stop plain stops,
        env.reply_moreUnary_stop plain' stops']
      rfl
  | unaryFactorial operand effects tail =>
      rw [T.cons tail rfl, reply_moreUnary_factorial,
        reply_moreUnary_factorial]
      rfl
  | unaryStep operand effects token tail op here primary more =>
      rw [T.cons_of_unaryOperator here, env.reply_moreUnary_step here,
        env.reply_moreUnary_step here, primary]
      exact T.reply_andThen more
  | number v effects tail =>
      rw [T.cons tail rfl, reply_number, reply_number]
      rfl
  | stray effects tail =>
      rw [T.cons tail rfl, reply_stray, reply_stray]
      rfl
  | call name f effects tail bound argument =>
      rw [T.cons tail rfl, env.reply_call bound, env.reply_call bound,
        argument]
      exact T.reply_andThen fun _ _ _ _ => rfl
  | modifier name m effects tail bound =>
      rw [T.cons tail rfl, env.reply_modifier bound, env.reply_modifier bound]
      simp only [Transfer.effects, unseen name m bound]
      rfl
  | assign name effects body bound ih =>
      rw [T.cons _ rfl, T.cons _ rfl, env.reply_assign bound,
        env.reply_assign bound]
      have declared : T.effects
          { effects with vars := effects.vars.declare name } =
          { T.effects effects with
            vars := (T.effects effects).vars.declare name } := rfl
      rw [← declared, ih]
      exact T.reply_andThen fun v after rest _ => rfl
  | lookup name effects tail bound no_assign =>
      have no_assign' := T.current_ne (t := .assign) rfl no_assign
      rw [T.cons tail rfl, env.reply_variable bound no_assign,
        env.reply_variable bound no_assign',
        show (T.effects effects).vars = effects.vars from rfl]
      cases effects.vars.get? name with
      | some v => rfl
      | none => rfl
  | opening effects tail ih =>
      rw [T.cons tail rfl, reply_opening, reply_opening, ih]
      exact T.reply_andThen fun v after rest _ => T.reply_close v after rest
  | reference offset effects tail =>
      rw [T.cons tail rfl, reply_reference, reply_reference]
      cases env.history.recent? offset with
      | some v => rfl
      | none =>
          rw [T.reply_failure, T.cons tail rfl]
          rfl
  | nothing effects s op here =>
      have here' : UnaryOperator.ofToken? (T.cursor s).current = some op :=
        (T.unnoticed (fun _ => Token.ofToken?_of_endsStatement) s).trans here
      rw [env.reply_nothing here, env.reply_nothing here']
      rfl
  | unexpected effects s bad =>
      have bad' : (T.cursor s).current.beginsPrimary = false :=
        (T.unnoticed (fun _ => Token.beginsPrimary_of_endsStatement) s).trans
          bad
      rw [env.reply_unexpected bad, env.reply_unexpected bad', T.current]
      rfl

end Reckoner
