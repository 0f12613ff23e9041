/-
# Chains of numbers at one level

A chain is a number, an operator, a number, and so on, with all operators of
one level.  Evaluating it is folding the operators over the numbers from the
left, whatever the level: every number enters as what the bitwise level makes
of it, except that the bitwise level itself takes the numbers behind its
operators as they are.  The fold ends at the first operation that fails.

`reply_chain` says this of a whole expression, effects and rest included, for
chains of any length.  What the fold comes to is the business of the level.
-/
import Reckoner.Proofs.Ending

namespace Reckoner

namespace BinaryOperator

/-- The level of an operator. -/
def level : BinaryOperator → Level
  | add | subtract => .sum
  | multiply | divide | modulo => .product
  | shiftLeft | shiftRight | bitAnd | bitOr | bitXor => .bitwise

/-- The token that stands for an operator. -/
def token : BinaryOperator → Token
  | add => .plus
  | subtract => .minus
  | multiply => .times
  | divide => .divide
  | modulo => .modulo
  | shiftLeft => .shiftLeft
  | shiftRight => .shiftRight
  | bitAnd => .bitAnd
  | bitOr => .bitOr
  | bitXor => .bitXor

/-- The token of an operator stands for it at its own level only. -/
theorem operator?_token (op : BinaryOperator) (l : Level) :
    l.operator? op.token = if op.level = l then some op else none := by
  cases op <;> cases l <;> rfl

theorem level_of_operator? {l : Level} {token : Token} {op : BinaryOperator}
    (here : l.operator? token = some op) : op.level = l := by
  cases l <;> cases token <;> cases here <;> rfl

theorem isUnary_token (op : BinaryOperator) : op.token.isUnary = false := by
  cases op <;> rfl

end BinaryOperator

namespace Cursor

/-- Operators, each with the number behind it. -/
def links : List (BinaryOperator × Float) → Cursor → Cursor
  | [], behind => behind
  | (op, v) :: rest, behind => op.token :: .number v :: links rest behind

/-- A first number and what follows it. -/
def chain (first : Float) (rest : List (BinaryOperator × Float))
    (behind : Cursor) : Cursor :=
  .number first :: links rest behind

section Current

variable {l : Level} {rest : List (BinaryOperator × Float)}
  (same : ∀ link ∈ rest, link.1.level = l) {behind : Cursor}
  (ends : behind.current.endsStatement = true)

include ends

theorem isUnary_current_links : (links rest behind).current.isUnary = false := by
  cases rest with
  | nil => exact Token.isUnary_of_endsStatement ends
  | cons link rest => exact link.1.isUnary_token

include same

/-- In front of a link stands no operator of another level. -/
theorem operator?_current_links {other : Level} (ne : other ≠ l) :
    other.operator? (links rest behind).current = none := by
  cases rest with
  | nil => exact Token.operator?_of_endsStatement ends other
  | cons link rest =>
      have here : link.1.level = l := same link List.mem_cons_self
      refine (link.1.operator?_token other).trans (if_neg ?_)
      rw [here]
      exact ne.symm

end Current

end Cursor

theorem Level.ne_of_mem_tighter {l t : Level} (tighter : t ∈ l.tighter) :
    t ≠ l := by
  rintro rfl
  cases t <;> simp [Level.tighter] at tighter

namespace Reply

/-- The reply has this result and leaves the effects alone.  A value leaves
the tokens `behind`. -/
def ComesTo (reply : Reply) (result : Except EvalError Float)
    (effects : Effects) (behind : Cursor) : Prop :=
  match result with
  | .ok v => reply = value v effects behind
  | .error error => ∃ rest, reply = failure error effects rest

variable {reply : Reply} {result : Except EvalError Float} {effects : Effects}
  {behind : Cursor}

theorem ComesTo.result_eq (came : reply.ComesTo result effects behind) :
    reply.result = result := by
  cases result with
  | ok v => exact congrArg Reply.result came
  | error error =>
      obtain ⟨rest, rfl⟩ := came
      rfl

theorem ComesTo.effects_eq (came : reply.ComesTo result effects behind) :
    reply.effects = effects := by
  cases result with
  | ok v => exact congrArg Reply.effects came
  | error error =>
      obtain ⟨rest, rfl⟩ := came
      rfl

theorem ComesTo.rest_eq (came : reply.ComesTo result effects behind)
    {v : Float} (succeeds : reply.result = .ok v) : reply.rest = behind := by
  obtain rfl := came.result_eq.symm.trans succeeds
  exact congrArg Reply.rest came

/-- A step that keeps values and leaves errors alone keeps the result. -/
theorem ComesTo.andThen (came : reply.ComesTo result effects behind)
    {next : Float → Effects → Cursor → Reply}
    (keeps : ∀ v, next v effects behind = value v effects behind) :
    (reply.andThen next).ComesTo result effects behind := by
  cases result with
  | ok v =>
      obtain rfl := came
      exact keeps v
  | error error =>
      obtain ⟨rest, rfl⟩ := came
      exact ⟨rest, rfl⟩

end Reply

namespace Environment

variable (env : Environment)

/-- What a number is as an operand of a level. -/
def numberAt : Level → Float → Float
  | .bitwise, v => v
  | _, v => env.enter .bitwise v

theorem enter_numberAt (l : Level) (v : Float) :
    env.enter l (env.numberAt l v) = env.enter .bitwise v := by
  cases l <;> rfl

/-- One operation of a chain: an operator and the number behind it, applied to
the running value. -/
def operate (l : Level) (left : Float) (link : BinaryOperator × Float) :
    Except EvalError Float :=
  link.1.apply left (env.numberAt l link.2)

/-- A number as an operand of a level. -/
theorem reply_operand_number {l : Level} {rest : Cursor}
    (no_operator : ∀ t ∈ l.tighter, t.operator? rest.current = none)
    (no_unary : rest.current.isUnary = false) (v : Float)
    (effects : Effects) :
    env.reply (.operand l) effects (.number v :: rest) =
      .value (env.numberAt l v) effects rest := by
  cases l with
  | sum => exact reply_level_number no_operator no_unary v effects
  | product => exact reply_level_number no_operator no_unary v effects
  | bitwise => exact reply_unary_number no_unary v effects

/-- A wider level keeps what its operand comes to at the end of a statement. -/
theorem comesTo_level {l : Level} {effects : Effects} {s behind : Cursor}
    {result : Except EvalError Float}
    (ends : behind.current.endsStatement = true) (wider : l ≠ .bitwise)
    (came : (env.reply (.operand l) effects s).ComesTo result effects behind) :
    (env.reply (.level l) effects s).ComesTo result effects behind := by
  have enters (v : Float) : env.enter l v = v := by
    cases l with
    | bitwise => exact absurd rfl wider
    | _ => rfl
  rw [reply_level]
  refine came.andThen fun v => ?_
  rw [enters]
  exact env.reply_more_stop (Token.operator?_of_endsStatement ends l) v effects

variable {l : Level} {rest : List (BinaryOperator × Float)}
  (same : ∀ link ∈ rest, link.1.level = l) {behind : Cursor}
  (ends : behind.current.endsStatement = true)

include same ends

theorem reply_operand_of_links (v : Float) (effects : Effects) :
    env.reply (.operand l) effects (.number v :: Cursor.links rest behind) =
      .value (env.numberAt l v) effects (Cursor.links rest behind) := by
  refine env.reply_operand_number (fun t tighter => ?_)
    (Cursor.isUnary_current_links ends) v effects
  exact Cursor.operator?_current_links same ends
    (Level.ne_of_mem_tighter tighter)

/-- The operators behind a first value are folded over it. -/
theorem reply_more_links (left : Float) (effects : Effects) :
    (env.reply (.more l left) effects (Cursor.links rest behind)).ComesTo
      (rest.foldlM (env.operate l) left) effects behind := by
  induction rest generalizing left with
  | nil =>
      exact env.reply_more_stop (Token.operator?_of_endsStatement ends l) left
        effects
  | cons link rest ih =>
      obtain ⟨op, v⟩ := link
      obtain ⟨here, later⟩ := List.forall_mem_cons.mp same
      have stands : l.operator? op.token = some op :=
        (op.operator?_token l).trans (if_pos here)
      have folded : List.foldlM (env.operate l) left ((op, v) :: rest) =
          op.apply left (env.numberAt l v) >>= rest.foldlM (env.operate l) :=
        List.foldlM_cons
      rw [folded, Cursor.links, env.reply_more_step stands,
        env.reply_operand_of_links later ends v effects]
      simp only [Reply.andThen, Reply.value]
      cases op.apply left (env.numberAt l v) with
      | ok x => exact ih later x
      | error error => exact ⟨_, rfl⟩

/-- A chain is folded at its own level. -/
theorem reply_level_chain (first : Float) (effects : Effects) :
    (env.reply (.level l) effects (Cursor.chain first rest behind)).ComesTo
      (rest.foldlM (env.operate l) (env.enter .bitwise first)) effects
      behind := by
  rw [Cursor.chain, reply_level, env.reply_operand_of_links same ends,
    ← env.enter_numberAt l]
  exact env.reply_more_links same ends _ effects

/-- **A chain is evaluated by folding its operators from the left.** -/
theorem reply_chain (first : Float) (effects : Effects) :
    (env.reply (.level .sum) effects (Cursor.chain first rest behind)).ComesTo
      (rest.foldlM (env.operate l) (env.enter .bitwise first)) effects
      behind := by
  have own := env.reply_level_chain same ends first effects
  have sum_ne : Level.sum ≠ .bitwise := nofun
  have product_ne : Level.product ≠ .bitwise := nofun
  cases l with
  | sum => exact own
  | product => exact env.comesTo_level ends sum_ne own
  | bitwise =>
      exact env.comesTo_level ends sum_ne
        (env.comesTo_level ends product_ne own)

end Environment

/-- A chain evaluated in a context is folded up to its end and changes
nothing. -/
theorem Context.evaluate_chain (context : Context) {l : Level}
    {rest : List (BinaryOperator × Float)}
    (same : ∀ link ∈ rest, link.1.level = l) {behind : Cursor}
    (ends : behind.current.endsStatement = true) {first : Float}
    {lookahead : Lookahead} {s : Cursor}
    (begins : lookahead.start s = Cursor.chain first rest behind) :
    (context.evaluate lookahead s).result =
        rest.foldlM (context.operate l) (context.enter .bitwise first) ∧
      (context.evaluate lookahead s).context = context ∧
      ∀ v, (context.evaluate lookahead s).result = .ok v →
        (context.evaluate lookahead s).rest = behind := by
  have came := context.toEnvironment.reply_chain same ends first
    context.effects
  rw [← begins] at came
  refine ⟨came.result_eq, ?_, fun v succeeds => came.rest_eq succeeds⟩
  show context.after (context.reply (lookahead.start s)).effects = context
  rw [reply, came.effects_eq]
  rfl

end Reckoner
