/-
# What stands behind an expression

An expression that has a value was read from its own tokens.  Of what stands
behind them each level has looked at one token only, to see that it goes on
with nothing: that it is no operator of the level, no operator of one
primary, and no `=` behind a name.  A token is **neutral** if all of them
would say so.  Any text that begins with a neutral token can take the place
of what stands behind the expression, and the evaluation does not change.

The argument follows the rules with the unread tokens `old` replaced by
`new` in every cursor on the way.  One rule could notice: a primary that is
nothing reads no token, and would be something in front of a number or a
name.  But it is nothing only in front of an operator, and the operators of
one primary then take that operator, so it cannot be the first token that is
left (`moreUnary_keeps`).

The other half of isolation is `reply_passes`: an evaluation never steps over
the end of its statement, with or without an error.
-/
import Reckoner.Proofs.Ending
import Reckoner.Proofs.Termination

namespace Reckoner

/-- Whether no expression goes on with this token. -/
def Token.isNeutral : Token → Bool
  | number _ | name _ | reference _ | opening | closing => true
  | separator | finish => true
  | _ => false

namespace Token

variable {token : Token}

theorem operator?_of_isNeutral (neutral : token.isNeutral = true)
    (l : Level) : l.operator? token = none := by
  cases token with
  | number | name | reference | opening | closing | separator | finish =>
      cases l <;> rfl
  | _ => cases neutral

theorem not_isUnary_of_isNeutral (neutral : token.isNeutral = true) :
    token.isUnary = false := by
  cases token with
  | number | name | reference | opening | closing | separator | finish => rfl
  | _ => cases neutral

theorem ne_assign_of_isNeutral (neutral : token.isNeutral = true) :
    token ≠ .assign := by
  rintro rfl
  cases neutral

end Token

/-- The tokens of `s` in front of `old`, and `new` in the place of `old`. -/
def Cursor.swap (old new s : Cursor) : Cursor := s.passed old ++ new

namespace Cursor

variable {old new : Cursor}

theorem swap_self (old new : Cursor) : swap old new old = new := by
  rw [swap, passed_self]
  rfl

theorem swap_cons {tail : Cursor} (kept : old <:+ tail) (token : Token) :
    swap old new (token :: tail) = token :: swap old new tail := by
  rw [swap, passed_cons kept]
  rfl

/-- The current token stays, unless it is the first one of what is put in the
place of another. -/
theorem current_swap {s : Cursor} (kept : old <:+ s) :
    s = old ∨ (swap old new s).current = s.current := by
  obtain ⟨front, rfl⟩ := kept
  cases front with
  | nil => exact Or.inl rfl
  | cons token front =>
      refine Or.inr ?_
      rw [List.cons_append, swap_cons (List.suffix_append front old)]
      rfl

/-- What holds of the current token and of the one that is put in the place
of another holds after the swap. -/
theorem holds_current_swap {s : Cursor} (kept : old <:+ s)
    {P : Token → Prop} (here : P s.current) (there : P new.current) :
    P (swap old new s).current := by
  rcases @current_swap old new s kept with rfl | same
  · rw [swap_self]
    exact there
  · rw [same]
    exact here

end Cursor

theorem Goal.operand_ne_primary (l : Level) : operand l ≠ primary := by
  intro eq
  cases l <;> cases eq

namespace Environment

variable {env : Environment} {effects after : Effects} {s rest : Cursor}
  {v : Float}

/-- Operators of one primary that read nothing have no operator to read. -/
theorem moreUnary_keeps {operand : Operand}
    (came : env.reply (.moreUnary operand) effects s = .value v after rest)
    (nothing_read : s <:+ rest) : UnaryOperator.ofToken? s.current = none := by
  cases here : UnaryOperator.ofToken? s.current with
  | none => rfl
  | some op =>
      have read : rest.length < s.length := length_lt_of_moreUnary here came
      exact absurd nothing_read.length_le (Nat.not_le.mpr read)

/-- **A value does not depend on what stands behind it.**  A primary must not
end in front of one of its own operators. -/
theorem reply_swap {old new : Cursor}
    (neutral : new.current.isNeutral = true) {goal : Goal}
    (came : env.reply goal effects s = .value v after rest)
    (kept : old <:+ rest)
    (settled : goal = .primary → rest = old →
      UnaryOperator.ofToken? old.current = none) :
    env.reply goal effects (Cursor.swap old new s) =
      .value v after (Cursor.swap old new rest) := by
  have no_operator (l : Level) : l.operator? new.current = none :=
    Token.operator?_of_isNeutral neutral l
  have no_unary : new.current.isUnary = false :=
    Token.not_isUnary_of_isNeutral neutral
  induction goal, effects, s using env.evaluation_induction
    generalizing v after rest with
  | level l effects s operand more =>
      rw [reply_level] at came
      obtain ⟨u, mid, t, first, last⟩ := Reply.of_andThen_eq_value came
      have kept_first : old <:+ t := kept.trans (env.rest_suffix_of_reply last)
      have operand := operand first kept_first fun eq =>
        absurd eq (Goal.operand_ne_primary l)
      rw [reply_level, operand]
      exact more u mid t first last kept fun eq => by cases eq
  | stop l left effects s stops =>
      rw [env.reply_more_stop stops] at came
      cases came
      have stops' : l.operator? (Cursor.swap old new s).current = none :=
        Cursor.holds_current_swap (P := fun token => l.operator? token = none)
          kept stops (no_operator l)
      exact env.reply_more_stop stops' left effects
  | step l left effects token tail op here operand more =>
      rw [env.reply_more_step here] at came
      obtain ⟨right, mid, t, first, last⟩ := Reply.of_andThen_eq_value came
      cases applied : op.apply left right with
      | error error =>
          rw [applied] at last
          cases last
      | ok u =>
          rw [applied] at last
          have kept_first : old <:+ t :=
            kept.trans (env.rest_suffix_of_reply last)
          have operand := operand first kept_first fun eq =>
            absurd eq (Goal.operand_ne_primary l)
          rw [Cursor.swap_cons
              (kept_first.trans (env.rest_suffix_of_reply first)),
            env.reply_more_step here, operand]
          simp only [Reply.andThen, Reply.value, applied]
          exact more right mid t u first applied last kept fun eq => by cases eq
  | unary effects s primary more =>
      rw [reply_unary] at came
      obtain ⟨u, mid, t, first, last⟩ := Reply.of_andThen_eq_value came
      have kept_first : old <:+ t := kept.trans (env.rest_suffix_of_reply last)
      have primary := primary first kept_first ?_
      · rw [reply_unary, primary]
        exact more u mid t first last kept fun eq => by cases eq
      · -- a primary that ends at `old` is followed by operators that read nothing
        rintro - rfl
        exact moreUnary_keeps last kept
  | unaryStop operand effects s plain stops =>
      rw [env.reply_moreUnary_stop plain stops] at came
      cases came
      have not_unary : (Cursor.swap old new s).current.isUnary = false :=
        Cursor.holds_current_swap (P := fun token => token.isUnary = false) kept
          (Token.isUnary_eq_false plain stops) no_unary
      exact env.reply_moreUnary_stop
        (Token.ne_factorial_of_not_isUnary not_unary)
        (Token.ofToken?_of_not_isUnary not_unary) operand effects
  | unaryFactorial operand effects tail =>
      rw [reply_moreUnary_factorial] at came
      cases came
      rw [Cursor.swap_cons kept, reply_moreUnary_factorial]
  | unaryStep operand effects token tail op here primary more =>
      rw [env.reply_moreUnary_step here] at came
      obtain ⟨u, mid, t, first, last⟩ := Reply.of_andThen_eq_value came
      have kept_first : old <:+ t := kept.trans (env.rest_suffix_of_reply last)
      have primary := primary first kept_first ?_
      · rw [Cursor.swap_cons
            (kept_first.trans (env.rest_suffix_of_reply first)),
          env.reply_moreUnary_step here, primary]
        exact more u mid t first last kept fun eq => by cases eq
      · rintro - rfl
        exact moreUnary_keeps last kept
  | number u effects tail =>
      rw [reply_number] at came
      cases came
      rw [Cursor.swap_cons kept, reply_number]
  | stray effects tail =>
      rw [reply_stray] at came
      cases came
      rw [Cursor.swap_cons kept, reply_stray]
  | call name f effects tail bound argument =>
      rw [env.reply_call bound] at came
      obtain ⟨u, mid, t, first, last⟩ := Reply.of_andThen_eq_value came
      cases last
      -- the argument ends where the call does, and may be nothing there as well
      have argument := argument first kept fun _ => settled rfl
      rw [Cursor.swap_cons (kept.trans (env.rest_suffix_of_reply first)),
        env.reply_call bound, argument]
      rfl
  | modifier name m effects tail bound =>
      rw [env.reply_modifier bound] at came
      cases came
      rw [Cursor.swap_cons kept, env.reply_modifier bound]
  | assign name effects body bound ih =>
      rw [env.reply_assign bound] at came
      obtain ⟨u, mid, t, first, last⟩ := Reply.of_andThen_eq_value came
      cases last
      have kept_body : old <:+ body :=
        kept.trans (env.rest_suffix_of_reply first)
      rw [Cursor.swap_cons (kept_body.trans (List.suffix_cons _ _)),
        Cursor.swap_cons kept_body, env.reply_assign bound,
        ih first kept fun eq => by cases eq]
      rfl
  | lookup name effects tail bound no_assign =>
      rw [env.reply_variable bound no_assign] at came
      cases known : effects.vars.get? name with
      | none =>
          rw [known] at came
          cases came
      | some u =>
          rw [known] at came
          cases came
          have no_assign' : (Cursor.swap old new tail).current ≠ .assign :=
            Cursor.holds_current_swap (P := fun token => token ≠ .assign) kept
              no_assign (Token.ne_assign_of_isNeutral neutral)
          rw [Cursor.swap_cons kept, env.reply_variable bound no_assign', known]
  | opening effects tail ih =>
      rw [reply_opening] at came
      obtain ⟨u, mid, t, first, last⟩ := Reply.of_andThen_eq_value came
      obtain rfl := Reply.of_close_eq_value last
      cases last
      have kept_closing : old <:+ .closing :: rest :=
        kept.trans (List.suffix_cons _ _)
      have body := ih first kept_closing fun eq => by cases eq
      rw [Cursor.swap_cons
          (kept_closing.trans (env.rest_suffix_of_reply first)),
        reply_opening, body, Cursor.swap_cons kept]
      rfl
  | reference offset effects tail =>
      rw [reply_reference] at came
      cases found : env.history.recent? offset with
      | none =>
          rw [found] at came
          cases came
      | some u =>
          rw [found] at came
          cases came
          rw [Cursor.swap_cons kept, reply_reference, found]
  | nothing effects s op here =>
      rw [env.reply_nothing here] at came
      cases came
      -- here alone the first token of `new` would be read in the place of `old`
      rcases @Cursor.current_swap old new s kept with rfl | same
      · rw [settled rfl rfl] at here
        cases here
      · exact env.reply_nothing (same ▸ here) effects
  | unexpected effects s bad =>
      rw [env.reply_unexpected bad] at came
      cases came

end Environment

namespace Context

/-- **Statements are isolated.**  An evaluation passes tokens of its own
statement only, whether it succeeds or fails.  If it succeeds, what stands
behind the tokens it has passed makes no difference: with any other text
there that begins with a neutral token, the value, the silence and the
context are the same, and that text is left to read. -/
theorem evaluate_isolated (context : Context) (s : Cursor) :
    let evaluation := context.evaluate .positioned s
    let passed := s.passed evaluation.rest
    s = passed ++ evaluation.rest ∧ passed <+: s.statement ∧
      ∀ v, evaluation.result = .ok v → ∀ tail : Cursor,
        tail.current.isNeutral = true →
        context.evaluate .positioned (passed ++ tail) =
          { evaluation with rest := tail } := by
  intro evaluation passed
  have passes : s.Passes evaluation.rest :=
    context.evaluate_passes .positioned s
  refine ⟨(Cursor.passed_append_self passes.suffix).symm,
    passes.passed_front, ?_⟩
  intro v succeeds tail neutral
  rcases (context.reply s).value_or_failure with
    ⟨u, after, rest, came⟩ | ⟨error, after, rest, came⟩
  · have left : evaluation.rest = rest := congrArg Reply.rest came
    have swapped : context.reply (passed ++ tail) = .value u after tail := by
      have swapped := Environment.reply_swap neutral came
        (List.suffix_refl rest) nofun
      rw [Cursor.swap_self] at swapped
      simp only [passed, left]
      exact swapped
    simp only [evaluation, evaluate_eq, Lookahead.start, came, swapped]
    rfl
  · have fails : evaluation.result = .error error :=
      congrArg Reply.result came
    rw [fails] at succeeds
    cases succeeds

theorem evaluate_isolated_leftover :
    let context := withHistory (.ofCapacity 0)
    let s : Cursor := [.opening, .number 2, .plus, .number 3, .closing,
      .factorial, .negate, .number 1, .finish]
    let tail : Cursor := [.number 7, .separator]
    let evaluation := context.evaluate .positioned s
    evaluation.result = .ok 120 ∧
      evaluation.rest = [.negate, .number 1, .finish] ∧
      context.evaluate .positioned (s.passed evaluation.rest ++ tail) =
        { evaluation with rest := tail } := by
  intro context s tail evaluation
  have result : evaluation.result = .ok 120 := by decide +kernel
  have rest : evaluation.rest = [.negate, .number 1, .finish] := by
    decide +kernel
  exact ⟨result, rest, (evaluate_isolated context s).2.2 120 result tail rfl⟩

end Context

end Reckoner
