/-
# The fraction policies agree on words

Under one policy the bitwise level cuts every value that passes through it,
under the other only what a bitwise operator takes.  An evaluation passes
through that level again and again, in parentheses, arguments and the right
sides of assignments, and a value that is cut on the way can turn up as a
divisor, in a variable or as another branch of the run.

Still the policies have only one place to differ.  If an operator follows, it
takes the same bits either way; if none follows, the level returns the value,
and cutting it makes no difference where it is a word's.  So if that is true
of everything that the bitwise level returns in the run with fractions, the
run without them is the same run.  Of values inside the bitwise level nothing
is asked: `(7 / 2) << 1` is one run under both policies.

Whether the condition holds is decided by evaluating, `Calls` being the
recursive uses of the evaluation and nothing else.
-/
import Reckoner.Proofs.Calls
import Reckoner.Proofs.WordChains

namespace Reckoner

deriving instance DecidableEq for Goal

namespace Environment

variable (env : Environment)

/-- The environment with fractions cut off. -/
def cutting : Environment := { env with policy := .truncate }

/-- The environment with fractions kept. -/
def preserving : Environment := { env with policy := .preserve }

/-- If the task is one of the bitwise level and has a value, the value stays
the same when it is cut to a word.  Negative zero does not: what comes out is
zero, and a function or a power can tell them apart. -/
def ReturnsWord (task : Task) : Prop :=
  task.goal = .level .bitwise →
    ∀ v ∈ (env.perform task).result.toOption, (Word.truncate v).value = v

instance : DecidablePred env.ReturnsWord := fun task =>
  inferInstanceAs (Decidable (task.goal = .level .bitwise → _))

variable {env}

theorem ReturnsWord.value_truncate {effects after : Effects} {s rest : Cursor}
    {v : Float} (word : env.ReturnsWord ⟨.level .bitwise, effects, s⟩)
    (came : env.reply (.level .bitwise) effects s = .value v after rest) :
    (Word.truncate v).value = v := by
  refine word rfl v ?_
  rw [perform, came]
  rfl

/-- An operator of the bitwise level takes no more than the bits. -/
theorem reply_more_of_bits {s : Cursor} {op : BinaryOperator}
    (here : Level.bitwise.operator? s.current = some op) {u v : Float}
    (same : Word.bits u = Word.bits v) (effects : Effects) :
    env.reply (.more .bitwise u) effects s =
      env.reply (.more .bitwise v) effects s := by
  cases s with
  | nil => cases here
  | cons token tail =>
      have here : Level.bitwise.operator? token = some op := here
      have bitwise := BinaryOperator.level_of_operator? here
      rw [env.reply_more_step here, env.reply_more_step here]
      refine Reply.andThen_congr ?_
      intro right after rest _
      rw [BinaryOperator.apply_bitwise bitwise,
        BinaryOperator.apply_bitwise bitwise, same]

/-- What enters a level that returns words may be cut or not. -/
theorem reply_more_enter {l : Level} {effects after : Effects}
    {s rest : Cursor} {v : Float}
    (word : env.preserving.ReturnsWord ⟨.level l, effects, s⟩)
    (came : env.preserving.reply (.operand l) effects s = .value v after rest) :
    env.cutting.reply (.more l (env.cutting.enter l v)) after rest =
      env.cutting.reply (.more l (env.preserving.enter l v)) after rest := by
  cases l with
  | sum | product => rfl
  | bitwise =>
      cases here : Level.bitwise.operator? rest.current with
      | some op =>
          refine reply_more_of_bits here ?_ after
          rw [bits_enter, bits_enter]
      | none =>
          have returned : env.preserving.reply (.level .bitwise) effects s =
              .value v after rest := by
            rw [reply_level, came]
            exact reply_more_stop _ here v after
          have same : env.cutting.enter .bitwise v = v :=
            word.value_truncate returned
          rw [same]
          rfl

/-- **Where the bitwise level returns words, the policy does not matter.** -/
theorem reply_cutting {goal : Goal} {effects : Effects} {s : Cursor}
    (words : env.preserving.Throughout env.preserving.ReturnsWord
      ⟨goal, effects, s⟩) :
    env.cutting.reply goal effects s = env.preserving.reply goal effects s := by
  revert words
  induction goal, effects, s using env.preserving.evaluation_induction with
  | level l effects s operand more =>
      intro words
      rw [env.cutting.reply_level, env.preserving.reply_level,
        operand (words.call .operand)]
      refine Reply.andThen_congr ?_
      intro v after rest came
      rw [reply_more_enter words.here came]
      exact more v after rest came (words.call (.more came))
  | stop l left effects s stops =>
      intro _
      rw [reply_more_stop _ stops, reply_more_stop _ stops]
  | step l left effects token tail op here operand more =>
      intro words
      rw [env.cutting.reply_more_step here, env.preserving.reply_more_step here,
        operand (words.call (.right here))]
      refine Reply.andThen_congr ?_
      intro right after rest came
      cases applied : op.apply left right with
      | ok v =>
          exact more right after rest v came applied
            (words.call (.moreAgain here came applied))
      | error error => rfl
  | unary effects s primary more =>
      intro words
      rw [env.cutting.reply_unary, env.preserving.reply_unary,
        primary (words.call .primary)]
      refine Reply.andThen_congr ?_
      intro v after rest came
      exact more v after rest came (words.call (.moreUnary came))
  | unaryStop operand effects s plain stops =>
      intro _
      rw [reply_moreUnary_stop _ plain stops, reply_moreUnary_stop _ plain stops]
  | unaryFactorial operand effects tail =>
      intro _
      rw [reply_moreUnary_factorial, reply_moreUnary_factorial]
  | unaryStep operand effects token tail op here primary more =>
      intro words
      rw [env.cutting.reply_moreUnary_step here,
        env.preserving.reply_moreUnary_step here,
        primary (words.call (.next here))]
      refine Reply.andThen_congr ?_
      intro v after rest came
      exact more v after rest came (words.call (.unaryAgain here came))
  | number v effects tail =>
      intro _
      rw [reply_number, reply_number]
  | stray effects tail =>
      intro _
      rw [reply_stray, reply_stray]
  | call name f effects tail bound argument =>
      intro words
      rw [env.cutting.reply_call bound, env.preserving.reply_call bound,
        argument (words.call (.argument bound))]
  | modifier name m effects tail bound =>
      intro _
      rw [env.cutting.reply_modifier bound, env.preserving.reply_modifier bound]
  | assign name effects body bound right =>
      intro words
      rw [env.cutting.reply_assign bound, env.preserving.reply_assign bound,
        right (words.call (.body bound))]
  | lookup name effects tail bound no_assign =>
      intro _
      rw [env.cutting.reply_variable bound no_assign,
        env.preserving.reply_variable bound no_assign]
  | opening effects tail inside =>
      intro words
      rw [env.cutting.reply_opening, env.preserving.reply_opening,
        inside (words.call .inside)]
  | reference offset effects tail =>
      intro _
      rw [reply_reference, reply_reference]
      rfl
  | nothing effects s op here =>
      intro _
      rw [reply_nothing _ here, reply_nothing _ here]
  | unexpected effects s bad =>
      intro _
      rw [reply_unexpected _ bad, reply_unexpected _ bad]

end Environment

namespace Context

/-- **The fraction policies differ only on values that cutting changes.**  If
everything that the bitwise level returns while fractions are preserved stays
the same when it is cut to a word, the evaluation that cuts has the same
result, changes the same and stops at the same token. -/
theorem evaluate_policies_agree (context : Context) {lookahead : Lookahead}
    {s : Cursor}
    (words : context.preserving.Throughout context.preserving.ReturnsWord
      ⟨.level .sum, context.effects, lookahead.start s⟩) :
    let preserved := { context with policy := .preserve }.evaluate lookahead s
    let cut := { context with policy := .truncate }.evaluate lookahead s
    cut.result = preserved.result ∧ cut.silent = preserved.silent ∧
      cut.context.vars = preserved.context.vars ∧
      cut.context.requests = preserved.context.requests ∧
      cut.rest = preserved.rest := by
  intro preserved cut
  have same : context.cutting.reply (.level .sum) context.effects
        (lookahead.start s) =
      context.preserving.reply (.level .sum) context.effects
        (lookahead.start s) :=
    Environment.reply_cutting words
  exact ⟨congrArg Reply.result same,
    congrArg (·.effects.silent) same, congrArg (·.effects.vars) same,
    congrArg (·.effects.requests) same, congrArg Reply.rest same⟩

/-- The source is `x = (7 / 2) << 1`: one policy cuts the fraction when the
shift takes it, the other already when it comes out of the parentheses. -/
theorem evaluate_policies_agree_shift :
    let context := withHistory (.ofCapacity 0)
    let s : Cursor := [.name "x", .assign, .opening, .number 7, .divide,
      .number 2, .closing, .shiftLeft, .number 1, .finish]
    let preserved := { context with policy := .preserve }.evaluate .positioned s
    let cut := { context with policy := .truncate }.evaluate .positioned s
    context.preserving.Throughout context.preserving.ReturnsWord
        ⟨.level .sum, context.effects, s⟩ ∧
      preserved.context.vars.get? "x" = some 6 ∧
      cut.result = preserved.result ∧
      cut.context.vars = preserved.context.vars ∧
      cut.rest = preserved.rest := by
  intro context s preserved cut
  have words : context.preserving.Throughout context.preserving.ReturnsWord
      ⟨.level .sum, context.effects, s⟩ := by
    decide +kernel
  have stored : preserved.context.vars.get? "x" = some 6 := by
    decide +kernel
  obtain ⟨result, -, vars, -, rest⟩ :=
    @evaluate_policies_agree context .positioned s words
  exact ⟨words, stored, result, vars, rest⟩

/-- Without the shift the bitwise level returns the fraction itself. -/
example :
    let context := withHistory (.ofCapacity 0)
    let s : Cursor :=
      [.opening, .number 7, .divide, .number 2, .closing, .finish]
    ¬ context.preserving.Throughout context.preserving.ReturnsWord
      ⟨.level .sum, context.effects, s⟩ := by
  decide +kernel

end Context

end Reckoner
