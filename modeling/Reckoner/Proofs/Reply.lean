/-
# Replies without their proofs

An answer of `Environment.run` travels with the proof that it leaves a suffix
of its tokens; the recursion needs that proof to end, and nothing else does.
Here the proof is dropped.  `Environment.reply` is the answer itself, each
rule of the evaluation is one equation between replies, and
`evaluation_induction` is the induction along the rules; `evaluation_cases` is
the case distinction alone.

The continuation cases of the induction speak of a value only if the part
before it really came out with that value.  So a proof about an evaluation
never meets a value, an effect or a cursor that no evaluation leads to.
-/
import Mathlib
import Reckoner.Evaluation

namespace Reckoner

namespace Reply

/-- A value, with `rest` left to read. -/
def value (v : Float) (effects : Effects) (rest : Cursor) : Reply :=
  ⟨.ok v, effects, rest⟩

/-- An error, with `rest` left to read. -/
def failure (error : EvalError) (effects : Effects) (rest : Cursor) : Reply :=
  ⟨.error error, effects, rest⟩

/-- Goes on with the value of a reply; an error stays as it is. -/
def andThen (reply : Reply) (next : Float → Effects → Cursor → Reply) :
    Reply :=
  match reply with
  | ⟨.ok v, effects, rest⟩ => next v effects rest
  | ⟨.error error, effects, rest⟩ => failure error effects rest

/-- The error that ended the evaluation, if one did. -/
def error? (reply : Reply) : Option EvalError :=
  match reply.result with
  | .ok _ => none
  | .error error => some error

/-- A reply is a value or a failure. -/
theorem value_or_failure (reply : Reply) :
    (∃ v effects rest, reply = value v effects rest) ∨
      ∃ error effects rest, reply = failure error effects rest := by
  obtain ⟨result, effects, rest⟩ := reply
  cases result with
  | ok v => exact Or.inl ⟨v, effects, rest, rfl⟩
  | error error => exact Or.inr ⟨error, effects, rest, rfl⟩

theorem error?_eq_some_iff {reply : Reply} {error : EvalError} :
    reply.error? = some error ↔ reply.result = .error error := by
  obtain ⟨result, effects, rest⟩ := reply
  cases result with
  | ok v => simp [error?]
  | error cause => simp [error?]

theorem andThen_assoc (reply : Reply)
    (next after : Float → Effects → Cursor → Reply) :
    (reply.andThen next).andThen after =
      reply.andThen fun v effects rest => (next v effects rest).andThen after := by
  rcases reply.value_or_failure with
    ⟨v, effects, rest, rfl⟩ | ⟨error, effects, rest, rfl⟩
  · rfl
  · rfl

/-- Only a value that came has to be gone on with in the same way. -/
theorem andThen_congr {reply : Reply}
    {next other : Float → Effects → Cursor → Reply}
    (same : ∀ v after rest, reply = value v after rest →
      next v after rest = other v after rest) :
    reply.andThen next = reply.andThen other := by
  rcases reply.value_or_failure with
    ⟨v, after, rest, rfl⟩ | ⟨error, after, rest, rfl⟩
  · exact same v after rest rfl
  · rfl

/-- A value at the end comes from a value in between. -/
theorem of_andThen_eq_value {reply : Reply}
    {next : Float → Effects → Cursor → Reply} {v : Float} {after : Effects}
    {rest : Cursor} (came : reply.andThen next = value v after rest) :
    ∃ u mid t, reply = value u mid t ∧ next u mid t = value v after rest := by
  rcases reply.value_or_failure with
    ⟨u, mid, t, rfl⟩ | ⟨error, effects, t, rfl⟩
  · exact ⟨u, mid, t, rfl, came⟩
  · exact absurd (congrArg Reply.result came) nofun

/-- Steps over the `)` that has to follow a value in parentheses. -/
def close (v : Float) (effects : Effects) : Cursor → Reply
  | .closing :: tail => value v effects tail
  | rest => failure (.unterminatedParenthesis rest.current) effects rest

theorem close_of_ne {rest : Cursor} (open_here : rest.current ≠ .closing)
    (v : Float) (effects : Effects) :
    close v effects rest =
      failure (.unterminatedParenthesis rest.current) effects rest := by
  unfold close
  split
  · exact absurd rfl open_here
  · rfl

theorem effects_close (v : Float) (effects : Effects) (rest : Cursor) :
    (close v effects rest).effects = effects := by
  unfold close
  split
  · rfl
  · rfl

end Reply

/-- Whether a primary can begin with this token. -/
def Token.beginsPrimary : Token → Bool
  | number _ | name _ | reference _ | factorial | opening => true
  | complement | literal | power | negate => true
  | _ => false

namespace Token

theorem ofToken?_eq_none_of_not_beginsPrimary {token : Token}
    (bad : token.beginsPrimary = false) :
    UnaryOperator.ofToken? token = none := by
  cases token <;> first | rfl | exact absurd bad (by simp [beginsPrimary])

theorem beginsPrimary_eq_false {token : Token}
    (no_number : ∀ v, token ≠ .number v) (no_name : ∀ name, token ≠ .name name)
    (no_reference : ∀ offset, token ≠ .reference offset)
    (no_factorial : token ≠ .factorial) (no_opening : token ≠ .opening)
    (no_operator : UnaryOperator.ofToken? token = none) :
    token.beginsPrimary = false := by
  cases token with
  | number v => exact absurd rfl (no_number v)
  | name name => exact absurd rfl (no_name name)
  | reference offset => exact absurd rfl (no_reference offset)
  | factorial => exact absurd rfl no_factorial
  | opening => exact absurd rfl no_opening
  | complement | literal | power | negate =>
      exact absurd no_operator (by simp [UnaryOperator.ofToken?])
  | _ => rfl

end Token

/-- Whether an error comes from evaluating and not from reading. -/
def EvalError.isRuntime : EvalError → Bool
  | divideByZero | moduloByZero | undefinedName _ | historyOutOfRange _ _ =>
      true
  | _ => false

/-- An operation fails only by a division or a remainder that does not
exist. -/
theorem BinaryOperator.error_of_apply {op : BinaryOperator}
    {left right : Float} {error : EvalError}
    (failed : op.apply left right = .error error) :
    error = .divideByZero ∨ error = .moduloByZero := by
  cases op with
  | divide =>
      simp only [apply] at failed
      split at failed
      · exact Or.inl (Except.error.inj failed).symm
      · cases failed
  | modulo =>
      simp only [apply] at failed
      split at failed
      · cases failed
      · exact Or.inr (Except.error.inj failed).symm
  | _ => cases failed

theorem BinaryOperator.isRuntime_of_apply {op : BinaryOperator}
    {left right : Float} {error : EvalError}
    (failed : op.apply left right = .error error) :
    error.isRuntime = true := by
  rcases error_of_apply failed with rfl | rfl
  · rfl
  · rfl

namespace Answer

variable {s t : Cursor}

@[simp] theorem val_behind (token : Token) (answer : Answer s) :
    (answer.behind token).val = answer.val := rfl

theorem val_andThen (answer : Answer s)
    {next : Float → Effects → (rest : Cursor) → rest <:+ s → Answer s}
    {plain : Float → Effects → Cursor → Reply}
    (same : ∀ v effects rest h,
      (next v effects rest h).val = plain v effects rest) :
    (answer.andThen next).val = answer.val.andThen plain := by
  obtain ⟨⟨result, effects, rest⟩, h⟩ := answer
  cases result with
  | ok v => exact same v effects rest h
  | error error => rfl

theorem val_close (v : Float) (effects : Effects) (rest : Cursor)
    (h : rest <:+ s) :
    (close v effects rest h).val = .close v effects rest := by
  cases rest with
  | nil => rfl
  | cons token tail => cases token <;> rfl

end Answer

namespace Environment

/-- What evaluating a goal comes to. -/
def reply (env : Environment) (goal : Goal) (effects : Effects) (s : Cursor) :
    Reply :=
  (env.run goal effects s).val

variable (env : Environment)

theorem reply_rest_suffix (goal : Goal) (effects : Effects) (s : Cursor) :
    (env.reply goal effects s).rest <:+ s :=
  (env.run goal effects s).property

/-! ## Names -/

section Binding

variable {env : Environment} {name : String}

theorem functions_of_binding {f : UnaryFunction}
    (bound : env.binding name = .function f) :
    env.functions.get? name = some f := by
  unfold binding at bound
  split at bound
  · rename_i g found
    rw [found, Binding.function.inj bound]
  · split at bound
    · cases bound
    · cases bound

theorem modifiers_of_binding {m : Modifier}
    (bound : env.binding name = .modifier m) :
    env.functions.get? name = none ∧ env.modifiers.get? name = some m := by
  unfold binding at bound
  split at bound
  · cases bound
  · rename_i no_function
    split at bound
    · rename_i k found
      rw [Binding.modifier.inj bound] at found
      exact ⟨no_function, found⟩
    · cases bound

theorem unregistered_of_binding (bound : env.binding name = .variable) :
    env.functions.get? name = none ∧ env.modifiers.get? name = none := by
  unfold binding at bound
  split at bound
  · cases bound
  · rename_i no_function
    split at bound
    · cases bound
    · rename_i no_modifier
      exact ⟨no_function, no_modifier⟩

end Binding

/-! ## The rules of evaluation -/

theorem reply_level (l : Level) (effects : Effects) (s : Cursor) :
    env.reply (.level l) effects s =
      (env.reply (.operand l) effects s).andThen fun v effects rest =>
        env.reply (.more l (env.enter l v)) effects rest := by
  unfold reply
  rw [run_level]
  exact Answer.val_andThen _ (fun _ _ _ _ => rfl)

theorem reply_more_stop {l : Level} {s : Cursor}
    (stops : l.operator? s.current = none) (left : Float)
    (effects : Effects) :
    env.reply (.more l left) effects s = .value left effects s := by
  unfold reply
  cases s with
  | nil => rw [run]; rfl
  | cons token tail =>
      rw [run]
      simp only [show l.operator? token = none from stops]
      rfl

theorem reply_more_step {l : Level} {token : Token} {op : BinaryOperator}
    (here : l.operator? token = some op) (left : Float) (effects : Effects)
    (tail : Cursor) :
    env.reply (.more l left) effects (token :: tail) =
      (env.reply (.operand l) effects tail).andThen fun right effects rest =>
        match op.apply left right with
        | .ok v => env.reply (.more l v) effects rest
        | .error error => .failure error effects rest := by
  unfold reply
  rw [run]
  simp only [here, Answer.val_behind]
  refine Answer.val_andThen _ (fun right effects rest h => ?_)
  cases op.apply left right with
  | ok v => rfl
  | error error => rfl

theorem reply_unary (effects : Effects) (s : Cursor) :
    env.reply .unary effects s =
      (env.reply .primary effects s).andThen fun v effects rest =>
        env.reply (.moreUnary (.ofPrimary v)) effects rest := by
  unfold reply
  rw [run]
  exact Answer.val_andThen _ (fun _ _ _ _ => rfl)

theorem reply_moreUnary_stop {s : Cursor}
    (plain : s.current ≠ .factorial)
    (stops : UnaryOperator.ofToken? s.current = none) (operand : Operand)
    (effects : Effects) :
    env.reply (.moreUnary operand) effects s =
      .value operand.value effects s := by
  unfold reply
  cases s with
  | nil => rw [run]; rfl
  | cons token tail =>
      rw [run]
      · simp only [show UnaryOperator.ofToken? token = none from stops]
        rfl
      · exact plain

theorem reply_moreUnary_factorial (operand : Operand) (effects : Effects)
    (tail : Cursor) :
    env.reply (.moreUnary operand) effects (.factorial :: tail) =
      .value (factorial operand.value operand.start) effects tail := by
  unfold reply
  rw [run]
  rfl

theorem reply_moreUnary_step {token : Token} {op : UnaryOperator}
    (here : UnaryOperator.ofToken? token = some op) (operand : Operand)
    (effects : Effects) (tail : Cursor) :
    env.reply (.moreUnary operand) effects (token :: tail) =
      (env.reply .primary effects tail).andThen fun v effects rest =>
        env.reply (.moreUnary (operand.apply v op)) effects rest := by
  have plain : token ≠ .factorial := by
    rintro rfl
    exact absurd here (by simp [UnaryOperator.ofToken?])
  unfold reply
  rw [run]
  · simp only [here, Answer.val_behind]
    exact Answer.val_andThen _ (fun _ _ _ _ => rfl)
  · exact plain

theorem reply_number (v : Float) (effects : Effects) (tail : Cursor) :
    env.reply .primary effects (.number v :: tail) =
      .value v effects tail := by
  unfold reply
  rw [run]
  rfl

theorem reply_stray (effects : Effects) (tail : Cursor) :
    env.reply .primary effects (.factorial :: tail) =
      .value 0 effects tail := by
  unfold reply
  rw [run]
  rfl

theorem reply_call {name : String} {f : UnaryFunction}
    (bound : env.binding name = .function f) (effects : Effects)
    (tail : Cursor) :
    env.reply .primary effects (.name name :: tail) =
      (env.reply .primary effects tail).andThen fun v effects rest =>
        .value (f v) effects rest := by
  unfold reply
  by_cases assigns : ∃ body, tail = .assign :: body
  · obtain ⟨body, rfl⟩ := assigns
    rw [run]
    simp only [bound, Answer.val_behind]
    exact Answer.val_andThen _ (fun _ _ _ _ => rfl)
  · rw [run]
    · simp only [bound, Answer.val_behind]
      exact Answer.val_andThen _ (fun _ _ _ _ => rfl)
    · exact fun body eq => assigns ⟨body, eq⟩

theorem reply_modifier {name : String} {m : Modifier}
    (bound : env.binding name = .modifier m) (effects : Effects)
    (tail : Cursor) :
    env.reply .primary effects (.name name :: tail) =
      .value 0 { effects with requests := m effects.requests, silent := true }
        tail := by
  unfold reply
  by_cases assigns : ∃ body, tail = .assign :: body
  · obtain ⟨body, rfl⟩ := assigns
    rw [run]
    simp only [bound]
    rfl
  · rw [run]
    · simp only [bound]
      rfl
    · exact fun body eq => assigns ⟨body, eq⟩

/-- An assignment declares its target, evaluates, and stores through the slot
that the target had before. -/
theorem reply_assign {name : String} (bound : env.binding name = .variable)
    (effects : Effects) (body : Cursor) :
    env.reply .primary effects (.name name :: .assign :: body) =
      (env.reply (.level .sum)
          { effects with vars := effects.vars.declare name } body).andThen
        fun v after rest =>
          .value v
            { after with
              vars := after.vars.store (effects.vars.slot name) v } rest := by
  rw [reply, run]
  simp only [bound, Answer.val_behind]
  exact Answer.val_andThen _ (fun _ _ _ _ => rfl)

theorem reply_variable {name : String} (bound : env.binding name = .variable)
    {tail : Cursor} (no_assign : tail.current ≠ .assign) (effects : Effects) :
    env.reply .primary effects (.name name :: tail) =
      match effects.vars.get? name with
      | some v => .value v effects tail
      | none =>
        .failure (.undefinedName name) { effects with silent := true } tail := by
  have other : ∀ body, tail = .assign :: body → False := by
    rintro body rfl
    exact no_assign rfl
  unfold reply
  rw [run]
  · simp only [bound]
    cases effects.vars.get? name with
    | some v => rfl
    | none => rfl
  · exact other

theorem reply_opening (effects : Effects) (tail : Cursor) :
    env.reply .primary effects (.opening :: tail) =
      (env.reply (.level .sum) effects tail).andThen .close := by
  rw [reply, run, Answer.val_behind]
  exact Answer.val_andThen _ Answer.val_close

theorem reply_reference (offset : Nat) (effects : Effects) (tail : Cursor) :
    env.reply .primary effects (.reference offset :: tail) =
      match env.history.recent? offset with
      | some v => .value v effects tail
      | none =>
        .failure (.historyOutOfRange offset env.history.length) effects
          (.reference offset :: tail) := by
  unfold reply
  rw [run]
  cases env.history.recent? offset with
  | some v => rfl
  | none => rfl

/-- Where an operator of one primary stands, the primary is nothing. -/
theorem reply_nothing {s : Cursor} {op : UnaryOperator}
    (here : UnaryOperator.ofToken? s.current = some op) (effects : Effects) :
    env.reply .primary effects s = .value 0 effects s := by
  unfold reply
  cases s with
  | nil => exact absurd here (by simp [Cursor.current, UnaryOperator.ofToken?])
  | cons token tail =>
      have here : UnaryOperator.ofToken? token = some op := here
      rw [run]
      · simp only [here]
        rfl
      all_goals
        intros
        subst_vars
        simp [UnaryOperator.ofToken?] at here

theorem reply_unexpected {s : Cursor}
    (bad : s.current.beginsPrimary = false) (effects : Effects) :
    env.reply .primary effects s =
      .failure (.unexpectedToken s.current) effects s := by
  unfold reply
  cases s with
  | nil => rw [run]; rfl
  | cons token tail =>
      have bad : token.beginsPrimary = false := bad
      have no_operator := Token.ofToken?_eq_none_of_not_beginsPrimary bad
      rw [run]
      · simp only [no_operator]
        rfl
      all_goals
        intros
        subst_vars
        simp [Token.beginsPrimary] at bad

/-! ## Induction along the rules -/

theorem rest_suffix_of_reply {goal : Goal} {effects after : Effects}
    {s rest : Cursor} {v : Float}
    (came : env.reply goal effects s = .value v after rest) : rest <:+ s := by
  have suffix := env.reply_rest_suffix goal effects s
  rw [came] at suffix
  exact suffix

/-- What holds of every evaluation if it passes along each rule. -/
@[elab_as_elim]
theorem evaluation_induction {motive : Goal → Effects → Cursor → Prop}
    (level : ∀ l effects s, motive (.operand l) effects s →
      (∀ v after rest,
        env.reply (.operand l) effects s = .value v after rest →
        motive (.more l (env.enter l v)) after rest) →
      motive (.level l) effects s)
    (stop : ∀ l left effects s, l.operator? s.current = none →
      motive (.more l left) effects s)
    (step : ∀ l left effects token tail op, l.operator? token = some op →
      motive (.operand l) effects tail →
      (∀ right after rest v,
        env.reply (.operand l) effects tail = .value right after rest →
        op.apply left right = .ok v →
        motive (.more l v) after rest) →
      motive (.more l left) effects (token :: tail))
    (unary : ∀ effects s, motive .primary effects s →
      (∀ v after rest, env.reply .primary effects s = .value v after rest →
        motive (.moreUnary (.ofPrimary v)) after rest) →
      motive .unary effects s)
    (unaryStop : ∀ operand effects s, s.current ≠ .factorial →
      UnaryOperator.ofToken? s.current = none →
      motive (.moreUnary operand) effects s)
    (unaryFactorial : ∀ operand effects tail,
      motive (.moreUnary operand) effects (.factorial :: tail))
    (unaryStep : ∀ operand effects token tail op,
      UnaryOperator.ofToken? token = some op →
      motive .primary effects tail →
      (∀ v after rest, env.reply .primary effects tail = .value v after rest →
        motive (.moreUnary (operand.apply v op)) after rest) →
      motive (.moreUnary operand) effects (token :: tail))
    (number : ∀ v effects tail, motive .primary effects (.number v :: tail))
    (stray : ∀ effects tail, motive .primary effects (.factorial :: tail))
    (call : ∀ name f effects tail, env.binding name = .function f →
      motive .primary effects tail →
      motive .primary effects (.name name :: tail))
    (modifier : ∀ name m effects tail, env.binding name = .modifier m →
      motive .primary effects (.name name :: tail))
    (assign : ∀ name effects body, env.binding name = .variable →
      motive (.level .sum)
        { effects with vars := effects.vars.declare name } body →
      motive .primary effects (.name name :: .assign :: body))
    (lookup : ∀ name effects (tail : Cursor), env.binding name = .variable →
      tail.current ≠ .assign → motive .primary effects (.name name :: tail))
    (opening : ∀ effects tail, motive (.level .sum) effects tail →
      motive .primary effects (.opening :: tail))
    (reference : ∀ offset effects tail,
      motive .primary effects (.reference offset :: tail))
    (nothing : ∀ effects s op, UnaryOperator.ofToken? s.current = some op →
      motive .primary effects s)
    (unexpected : ∀ effects s, s.current.beginsPrimary = false →
      motive .primary effects s)
    (goal : Goal) (effects : Effects) (s : Cursor) : motive goal effects s := by
  induction goal, effects, s using run.induct env with
  | case1 effects s l operand more =>
      exact level l effects s operand fun v after rest came =>
        more v after rest (env.rest_suffix_of_reply came)
  | case2 effects l left => exact stop l left effects [] (by cases l <;> rfl)
  | case3 effects l left token tail none_here =>
      exact stop l left effects (token :: tail) none_here
  | case4 effects l left token tail op here operand more =>
      exact step l left effects token tail op here operand
        fun right after rest v came _ =>
          more after rest (env.rest_suffix_of_reply came) v
  | case5 effects s primary more =>
      exact unary effects s primary fun v after rest came =>
        more v after rest (env.rest_suffix_of_reply came)
  | case6 effects operand =>
      exact unaryStop operand effects [] (by simp [Cursor.current]) rfl
  | case7 effects operand tail => exact unaryFactorial operand effects tail
  | case8 effects operand token tail plain none_here =>
      exact unaryStop operand effects (token :: tail) plain none_here
  | case9 effects operand token tail _ op here primary more =>
      exact unaryStep operand effects token tail op here primary
        fun v after rest came =>
          more v after rest (env.rest_suffix_of_reply came)
  | case10 effects => exact unexpected effects [] rfl
  | case11 effects v tail => exact number v effects tail
  | case12 effects tail => exact stray effects tail
  | case13 effects name tail f bound argument =>
      exact call name f effects tail bound argument
  | case14 effects name tail m bound =>
      exact modifier name m effects tail bound
  | case15 effects name bound body _ ih =>
      exact assign name effects body bound ih
  | case16 effects name bound tail no_assign =>
      refine lookup name effects tail bound ?_
      cases tail with
      | nil => simp [Cursor.current]
      | cons token rest =>
          rintro (rfl : token = .assign)
          exact no_assign rest rfl
  | case17 effects tail ih => exact opening effects tail ih
  | case18 effects offset tail => exact reference offset effects tail
  | case19 effects offset tail => exact reference offset effects tail
  | case20 effects token tail _ _ _ _ _ op here =>
      exact nothing effects (token :: tail) op here
  | case21 effects token tail no_number no_factorial no_name no_opening
      no_reference no_operator =>
      exact unexpected effects (token :: tail)
        (Token.beginsPrimary_eq_false no_number no_name no_reference
          no_factorial no_opening no_operator)

/-- The rules one by one: each evaluation goes by one of them. -/
@[elab_as_elim]
theorem evaluation_cases {motive : Goal → Effects → Cursor → Prop}
    (level : ∀ l effects s, motive (.level l) effects s)
    (stop : ∀ l left effects s, l.operator? s.current = none →
      motive (.more l left) effects s)
    (step : ∀ l left effects token tail op, l.operator? token = some op →
      motive (.more l left) effects (token :: tail))
    (unary : ∀ effects s, motive .unary effects s)
    (unaryStop : ∀ operand effects s, s.current ≠ .factorial →
      UnaryOperator.ofToken? s.current = none →
      motive (.moreUnary operand) effects s)
    (unaryFactorial : ∀ operand effects tail,
      motive (.moreUnary operand) effects (.factorial :: tail))
    (unaryStep : ∀ operand effects token tail op,
      UnaryOperator.ofToken? token = some op →
      motive (.moreUnary operand) effects (token :: tail))
    (number : ∀ v effects tail, motive .primary effects (.number v :: tail))
    (stray : ∀ effects tail, motive .primary effects (.factorial :: tail))
    (call : ∀ name f effects tail, env.binding name = .function f →
      motive .primary effects (.name name :: tail))
    (modifier : ∀ name m effects tail, env.binding name = .modifier m →
      motive .primary effects (.name name :: tail))
    (assign : ∀ name effects body, env.binding name = .variable →
      motive .primary effects (.name name :: .assign :: body))
    (lookup : ∀ name effects (tail : Cursor), env.binding name = .variable →
      tail.current ≠ .assign → motive .primary effects (.name name :: tail))
    (opening : ∀ effects tail, motive .primary effects (.opening :: tail))
    (reference : ∀ offset effects tail,
      motive .primary effects (.reference offset :: tail))
    (nothing : ∀ effects s op, UnaryOperator.ofToken? s.current = some op →
      motive .primary effects s)
    (unexpected : ∀ effects s, s.current.beginsPrimary = false →
      motive .primary effects s)
    (goal : Goal) (effects : Effects) (s : Cursor) : motive goal effects s :=
  -- the induction with its hypotheses left out
  env.evaluation_induction (fun l effects s _ _ => level l effects s) stop
    (fun l left effects token tail op here _ _ =>
      step l left effects token tail op here)
    (fun effects s _ _ => unary effects s) unaryStop unaryFactorial
    (fun operand effects token tail op here _ _ =>
      unaryStep operand effects token tail op here)
    number stray
    (fun name f effects tail bound _ => call name f effects tail bound)
    modifier (fun name effects body bound _ => assign name effects body bound)
    lookup (fun effects tail _ => opening effects tail) reference nothing
    unexpected goal effects s

/-! ## What a whole evaluation does to the effects

A relation that does not mind sequencing relates the effects before an
evaluation to those after it as soon as it holds of the four places where an
effect changes: a modifier, a name that is not found, and the declaration and
the store of an assignment. -/

section Effects

variable (R : Effects → Effects → Prop)
  (trans : ∀ {a b c}, R a b → R b c → R a c)

include trans in
theorem effects_andThen {effects : Effects} {reply : Reply}
    {next : Float → Effects → Cursor → Reply}
    (first : R effects reply.effects)
    (goes_on : ∀ v after rest, reply = .value v after rest →
      R after (next v after rest).effects) :
    R effects (reply.andThen next).effects := by
  rcases reply.value_or_failure with
    ⟨v, after, rest, rfl⟩ | ⟨error, after, rest, rfl⟩
  · exact trans first (goes_on v after rest rfl)
  · exact first

include trans in
/-- What every change of the effects does, an evaluation does. -/
theorem effects_induction (refl : ∀ a, R a a)
    (modifier : ∀ name m (effects : Effects),
      env.binding name = .modifier m →
      R effects
        { effects with requests := m effects.requests, silent := true })
    (unknown : ∀ name (effects : Effects), env.binding name = .variable →
      effects.vars.get? name = none → R effects { effects with silent := true })
    (declare : ∀ name (effects : Effects), env.binding name = .variable →
      R effects { effects with vars := effects.vars.declare name })
    (store : ∀ name (effects after : Effects) v,
      env.binding name = .variable →
      R { effects with vars := effects.vars.declare name } after →
      R after
        { after with vars := after.vars.store (effects.vars.slot name) v })
    (goal : Goal) (effects : Effects) (s : Cursor) :
    R effects (env.reply goal effects s).effects := by
  induction goal, effects, s using env.evaluation_induction with
  | level l effects s operand more =>
      rw [reply_level]
      exact effects_andThen R trans operand more
  | stop l left effects s stops =>
      rw [env.reply_more_stop stops]
      exact refl effects
  | step l left effects token tail op here operand more =>
      rw [env.reply_more_step here]
      refine effects_andThen R trans operand fun right after rest came => ?_
      cases applied : op.apply left right with
      | ok v => exact more right after rest v came applied
      | error error => exact refl after
  | unary effects s primary more =>
      rw [reply_unary]
      exact effects_andThen R trans primary more
  | unaryStop operand effects s plain stops =>
      rw [env.reply_moreUnary_stop plain stops]
      exact refl effects
  | unaryFactorial operand effects tail =>
      rw [reply_moreUnary_factorial]
      exact refl effects
  | unaryStep operand effects token tail op here primary more =>
      rw [env.reply_moreUnary_step here]
      exact effects_andThen R trans primary more
  | number v effects tail =>
      rw [reply_number]
      exact refl effects
  | stray effects tail =>
      rw [reply_stray]
      exact refl effects
  | call name f effects tail bound argument =>
      rw [env.reply_call bound]
      exact effects_andThen R trans argument fun _ after _ _ => refl after
  | modifier name m effects tail bound =>
      rw [env.reply_modifier bound]
      exact modifier name m effects bound
  | assign name effects body bound ih =>
      rw [env.reply_assign bound]
      have declared := declare name effects bound
      rcases (env.reply (.level .sum) _ body).value_or_failure with
        ⟨v, after, rest, came⟩ | ⟨error, after, rest, came⟩
      · rw [came] at ih ⊢
        exact trans declared (trans ih (store name effects after v bound ih))
      · rw [came] at ih ⊢
        exact trans declared ih
  | lookup name effects tail bound no_assign =>
      rw [env.reply_variable bound no_assign]
      cases known : effects.vars.get? name with
      | some v => exact refl effects
      | none => exact unknown name effects bound known
  | opening effects tail ih =>
      rw [reply_opening]
      refine effects_andThen R trans ih fun v after rest _ => ?_
      rw [Reply.effects_close]
      exact refl after
  | reference offset effects tail =>
      rw [reply_reference]
      cases env.history.recent? offset with
      | some v => exact refl effects
      | none => exact refl effects
  | nothing effects s op here =>
      rw [env.reply_nothing here]
      exact refl effects
  | unexpected effects s bad =>
      rw [env.reply_unexpected bad]
      exact refl effects

end Effects

end Environment

/-! ## Evaluations -/

namespace Context

/-- The effects with which an evaluation begins. -/
def effects (context : Context) : Effects :=
  ⟨context.vars, context.requests, false⟩

/-- The context with what an evaluation has made of it. -/
def after (context : Context) (effects : Effects) : Context :=
  { context with vars := effects.vars, requests := effects.requests }

/-- What a whole expression comes to. -/
def reply (context : Context) (s : Cursor) : Reply :=
  context.toEnvironment.reply (.level .sum) context.effects s

/-- An evaluation is a reply, with its effects put back into the context. -/
theorem evaluate_eq (context : Context) (lookahead : Lookahead) (s : Cursor) :
    context.evaluate lookahead s =
      { result := (context.reply (lookahead.start s)).result
        silent := (context.reply (lookahead.start s)).effects.silent
        context := context.after (context.reply (lookahead.start s)).effects
        rest := (context.reply (lookahead.start s)).rest } := rfl

end Context

end Reckoner
