/-
# Where an expression ends

An expression ends in front of a token that none of its levels takes.  At the
levels of binary operators that is certain: each of them goes on as long as
one of its operators follows.  The operators of one primary are different.
They go on until a token is none of theirs, or until a `!` has been applied,
and behind a `!` anything can follow.  So the token behind an expression is
an operator of one primary only where it stands directly behind a `!`.
-/
import Reckoner.Proofs.Progress

namespace Reckoner

/-- Whether the operators of one primary go on with this token. -/
def Token.isUnary : Token → Bool
  | complement | literal | power | negate | factorial => true
  | _ => false

namespace Token

theorem isUnary_eq_false {token : Token} (plain : token ≠ .factorial)
    (stops : UnaryOperator.ofToken? token = none) : token.isUnary = false := by
  cases token with
  | factorial => exact absurd rfl plain
  | complement | literal | power | negate => cases stops
  | _ => rfl

theorem ne_factorial_of_not_isUnary {token : Token}
    (other : token.isUnary = false) : token ≠ .factorial := by
  rintro rfl
  cases other

theorem ofToken?_of_not_isUnary {token : Token}
    (other : token.isUnary = false) : UnaryOperator.ofToken? token = none := by
  cases token with
  | complement | literal | power | negate => cases other
  | _ => rfl

theorem isUnary_of_endsStatement {token : Token}
    (ends : token.endsStatement = true) : token.isUnary = false := by
  cases token with
  | separator | finish => rfl
  | _ => cases ends

end Token

/-- The levels that bind more tightly. -/
def Level.tighter : Level → List Level
  | sum => [product, bitwise]
  | product => [bitwise]
  | bitwise => []

/-- An expression of the given levels, read from `s`, can end before
`rest`. -/
structure Ended (levels : List Level) (s rest : Cursor) : Prop where
  operators : ∀ l ∈ levels, l.operator? rest.current = none
  unary : rest.current.isUnary = true → .factorial :: rest <:+ s

theorem Ended.mono {levels : List Level} {s t rest : Cursor}
    (ended : Ended levels t rest) (suffix : t <:+ s) : Ended levels s rest :=
  ⟨ended.operators, fun unary => (ended.unary unary).trans suffix⟩

namespace Goal

/-- What is known of the end of a goal.  Behind a first value a level may
find nothing to do; then all but its own operators is known from there. -/
def Ended (s rest : Cursor) : Goal → Prop
  | level l => Reckoner.Ended (l :: l.tighter) s rest
  | more l _ =>
    l.operator? rest.current = none ∧
      (rest = s ∨ Reckoner.Ended l.tighter s rest)
  | unary => Reckoner.Ended [] s rest
  | moreUnary _ => Reckoner.Ended [] s rest
  | primary => True

theorem ended_of_operand {l : Level} {s rest : Cursor}
    (ended : (operand l).Ended s rest) : Reckoner.Ended l.tighter s rest := by
  cases l with
  | sum => exact ended
  | product => exact ended
  | bitwise => exact ended

end Goal

namespace Environment

variable {env : Environment}

/-- **Every value is followed by a token that its goal does not take.** -/
theorem ended_of_reply {goal : Goal} {effects after : Effects}
    {s rest : Cursor} {v : Float}
    (came : env.reply goal effects s = .value v after rest) :
    goal.Ended s rest := by
  induction goal, effects, s using env.evaluation_induction
    generalizing v after rest with
  | level l effects s operand more =>
      rw [reply_level] at came
      obtain ⟨u, mid, t, first, second⟩ := Reply.of_andThen_eq_value came
      have begun := Goal.ended_of_operand (operand first)
      obtain ⟨own, rfl | later⟩ := more u mid t first second
      · exact ⟨List.forall_mem_cons.mpr ⟨own, begun.operators⟩, begun.unary⟩
      · have later := later.mono (env.rest_suffix_of_reply first)
        exact ⟨List.forall_mem_cons.mpr ⟨own, later.operators⟩, later.unary⟩
  | stop l left effects s stops =>
      rw [env.reply_more_stop stops] at came
      obtain rfl : s = rest := congrArg Reply.rest came
      exact ⟨stops, .inl rfl⟩
  | step l left effects token tail op here operand more =>
      rw [env.reply_more_step here] at came
      obtain ⟨right, mid, t, first, second⟩ := Reply.of_andThen_eq_value came
      have begun := Goal.ended_of_operand (operand first)
      cases applied : op.apply left right with
      | error error =>
          rw [applied] at second
          exact absurd (congrArg Reply.result second) nofun
      | ok u =>
          rw [applied] at second
          have suffix : tail <:+ token :: tail := List.suffix_cons _ _
          obtain ⟨own, rfl | later⟩ := more right mid t u first applied second
          · exact ⟨own, .inr (begun.mono suffix)⟩
          · have before := (env.rest_suffix_of_reply first).trans suffix
            exact ⟨own, .inr (later.mono before)⟩
  | unary effects s primary more =>
      rw [reply_unary] at came
      obtain ⟨u, mid, t, first, second⟩ := Reply.of_andThen_eq_value came
      exact Ended.mono (more u mid t first second)
        (env.rest_suffix_of_reply first)
  | unaryStop operand effects s plain stops =>
      rw [env.reply_moreUnary_stop plain stops] at came
      obtain rfl : s = rest := congrArg Reply.rest came
      refine ⟨fun l h => absurd h List.not_mem_nil, fun unary => ?_⟩
      rw [Token.isUnary_eq_false plain stops] at unary
      cases unary
  | unaryFactorial operand effects tail =>
      rw [reply_moreUnary_factorial] at came
      obtain rfl : tail = rest := congrArg Reply.rest came
      exact ⟨fun l h => absurd h List.not_mem_nil, fun _ => List.suffix_rfl⟩
  | unaryStep operand effects token tail op here primary more =>
      rw [env.reply_moreUnary_step here] at came
      obtain ⟨u, mid, t, first, second⟩ := Reply.of_andThen_eq_value came
      exact Ended.mono (more u mid t first second)
        ((env.rest_suffix_of_reply first).trans (List.suffix_cons _ _))
  | number | stray | call | modifier | assign | lookup | opening
  | reference | nothing | unexpected => trivial

/-- A number with no operator of one primary behind it. -/
theorem reply_unary_number {rest : Cursor}
    (no_unary : rest.current.isUnary = false) (v : Float)
    (effects : Effects) :
    env.reply .unary effects (.number v :: rest) = .value v effects rest := by
  rw [reply_unary, reply_number]
  exact env.reply_moreUnary_stop (Token.ne_factorial_of_not_isUnary no_unary)
    (Token.ofToken?_of_not_isUnary no_unary) (.ofPrimary v) effects

/-- The value of the unary level is cut by the bitwise level, and by no
other. -/
theorem reply_level_of_unary {l : Level} {effects after : Effects}
    {s rest : Cursor} {v : Float}
    (no_operator : ∀ t ∈ l :: l.tighter, t.operator? rest.current = none)
    (came : env.reply .unary effects s = .value v after rest) :
    env.reply (.level l) effects s =
      .value (env.enter .bitwise v) after rest := by
  have bitwise (stops : Level.bitwise.operator? rest.current = none) :
      env.reply (.level .bitwise) effects s =
        .value (env.enter .bitwise v) after rest := by
    rw [reply_level, Goal.operand, came]
    exact env.reply_more_stop stops _ after
  have product (stops : Level.product.operator? rest.current = none)
      (stops' : Level.bitwise.operator? rest.current = none) :
      env.reply (.level .product) effects s =
        .value (env.enter .bitwise v) after rest := by
    rw [reply_level, Goal.operand, bitwise stops']
    exact env.reply_more_stop stops _ after
  cases l with
  | bitwise => exact bitwise (no_operator .bitwise (by decide))
  | product =>
      exact product (no_operator .product (by decide))
        (no_operator .bitwise (by decide))
  | sum =>
      rw [reply_level, Goal.operand, product (no_operator .product (by decide))
        (no_operator .bitwise (by decide))]
      exact env.reply_more_stop (no_operator .sum (by decide)) _ after

/-- A number alone is an operand of every level. -/
theorem reply_level_number {l : Level} {rest : Cursor}
    (no_operator : ∀ t ∈ l :: l.tighter, t.operator? rest.current = none)
    (no_unary : rest.current.isUnary = false) (v : Float)
    (effects : Effects) :
    env.reply (.level l) effects (.number v :: rest) =
      .value (env.enter .bitwise v) effects rest :=
  reply_level_of_unary no_operator (reply_unary_number no_unary v effects)

/-- A number in front of the end of the statement. -/
theorem reply_number_ends {rest : Cursor}
    (ends : rest.current.endsStatement = true) (v : Float)
    (effects : Effects) :
    env.reply (.level .sum) effects (.number v :: rest) =
      .value (env.enter .bitwise v) effects rest :=
  reply_level_number (fun l _ => Token.operator?_of_endsStatement ends l)
    (Token.isUnary_of_endsStatement ends) v effects

end Environment

end Reckoner
