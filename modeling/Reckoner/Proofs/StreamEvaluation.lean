/-
# Evaluation on a stream

The evaluator knows its tokens by two operations only: it looks at the
current one, and it moves on to the next.  Here it does so on a stream, where
a look or a move outside the tokens comes to nothing.  The lookahead of an
expression is handed down from level to level until a primary makes the first
move; it could as well be made before the evaluation (`movesFirst_within`).

It is the evaluation at the cursor that stands for the stream.  The rules
are compared once, with the calls left open as in `Environment.unfold`: where
the calls come out as they should on streams inside their tokens, so does the
whole (`simulates_of_calls`).  What is true of one evaluation is then true of
one after the other, in whatever contexts and whatever they come to.
-/
import Reckoner.Proofs.Calls
import Reckoner.Proofs.Progress
import Reckoner.Proofs.TokenStream

namespace Reckoner

/-- What an evaluator changes. -/
structure Machine where
  effects : Effects
  stream : TokenStream

/-- A step of the evaluator.  It may end in an error, and it comes to nothing
where the stream is outside its tokens. -/
abbrev Evaluator := ExceptT EvalError (StateT Machine Option)

namespace Evaluator

/-- Looks at the current token. -/
def current : Evaluator Token := ExceptT.mk fun machine => do
  return (.ok (← machine.stream.current), machine)

/-- Moves on to the next token. -/
def next : Evaluator Token := ExceptT.mk fun machine => do
  let (token, stream) ← machine.stream.get
  return (.ok token, { machine with stream })

/-- Moves on if the first token of an expression is not current yet. -/
def start : Lookahead → Evaluator PUnit
  | .advance => do
    let _ ← next
    return
  | .positioned => return

/-- The variables as they are. -/
def vars : Evaluator Variables := return (← get).effects.vars

/-- Changes the effects. -/
def change (f : Effects → Effects) : Evaluator PUnit :=
  modify fun machine => { machine with effects := f machine.effects }

/-! ## The rules, with `call` in the place of each recursive use -/

section Rules

variable (env : Environment) (call : Goal → Lookahead → Evaluator Float)

/-- A name, which is current.  Behind a name that stands for a variable a `=`
is looked for. -/
def resolve (name : String) : Evaluator Float :=
  match env.binding name with
  | .function f => do
    let v ← call .primary .advance
    return f v
  | .modifier m => do
    change fun effects => { effects with requests := m effects.requests }
    let _ ← next
    change fun effects => { effects with silent := true }
    return 0
  | .variable => do
    match ← next with
    | .assign =>
      let slot := (← vars).slot name
      change fun effects => { effects with vars := effects.vars.declare name }
      let v ← call (.level .sum) .advance
      change fun effects => { effects with vars := effects.vars.store slot v }
      return v
    | _ =>
      match (← vars).get? name with
      | some v => return v
      | none =>
        change fun effects => { effects with silent := true }
        throw (.undefinedName name)

/-- The `)` that has to be current behind a value in parentheses. -/
def close (v : Float) : Evaluator Float := do
  match ← current with
  | .closing =>
    let _ ← next
    return v
  | other => throw (.unterminatedParenthesis other)

/-- The result `offset` places back, with the reference current. -/
def reference (offset : Nat) : Evaluator Float :=
  match env.history.recent? offset with
  | some v => do
    let _ ← next
    return v
  | none => throw (.historyOutOfRange offset env.history.length)

/-- A primary that begins with `token`, which is current. -/
def primary (token : Token) : Evaluator Float :=
  match token with
  | .number v => do
    let _ ← next
    return v
  | .factorial => do
    let _ ← next
    return 0
  | .name name => resolve env call name
  | .opening => do
    let v ← call (.level .sum) .advance
    close v
  | .reference offset => reference env offset
  | token =>
    match UnaryOperator.ofToken? token with
    | some _ => return 0
    | none => throw (.unexpectedToken token)

/-- A goal.  One that goes on behind a first value looks at the current
token, whatever the lookahead. -/
def step (goal : Goal) (lookahead : Lookahead) : Evaluator Float :=
  match goal with
  | .level l => do
    let v ← call (.operand l) lookahead
    call (.more l (env.enter l v)) .positioned
  | .more l left => do
    match l.operator? (← current) with
    | none => return left
    | some op =>
      let right ← call (.operand l) .advance
      match op.apply left right with
      | .ok v => call (.more l v) .positioned
      | .error error => throw error
  | .unary => do
    let v ← call .primary lookahead
    call (.moreUnary (.ofPrimary v)) .positioned
  | .moreUnary operand => do
    match ← current with
    | .factorial =>
      let _ ← next
      return factorial operand.value operand.start
    | token =>
      match UnaryOperator.ofToken? token with
      | none => return operand.value
      | some op =>
        let v ← call .primary .advance
        call (.moreUnary (operand.apply v op)) .positioned
  | .primary => do
    start lookahead
    primary env call (← current)

end Rules

/-- The evaluation that recurs to a fixed depth and comes to nothing where
that is not enough. -/
def within (env : Environment) : Nat → Goal → Lookahead → Evaluator Float
  | 0, _, _ => ExceptT.mk fun _ => none
  | depth + 1, goal, lookahead => step env (within env depth) goal lookahead

/-! ## The first move -/

/-- Whether the lookahead is handed down to a goal or the stream moves first
makes no difference. -/
def MovesFirst (call : Goal → Lookahead → Evaluator Float) (goal : Goal) :
    Prop :=
  call goal .advance = next >>= fun _ => call goal .positioned

section MovesFirst

variable {env : Environment} {call : Goal → Lookahead → Evaluator Float}

theorem movesFirst_primary : MovesFirst (step env call) .primary := by
  simp only [MovesFirst, step, start, bind_assoc, pure_bind]

theorem MovesFirst.unary (primary : MovesFirst call .primary) :
    MovesFirst (step env call) .unary := by
  simp only [MovesFirst, step]
  rw [primary, bind_assoc]

/-- A level hands the lookahead down to its first operand. -/
theorem MovesFirst.level {l : Level} (operand : MovesFirst call (.operand l)) :
    MovesFirst (step env call) (.level l) := by
  simp only [MovesFirst, step]
  rw [operand, bind_assoc]

/-- The goals that an expression or a part of one begins with. -/
inductive Begins : Goal → Prop
  | level (l : Level) : Begins (.level l)
  | unary : Begins .unary
  | primary : Begins .primary

theorem begins_operand (l : Level) : Begins (.operand l) := by
  cases l with
  | bitwise => exact .unary
  | product => exact .level .bitwise
  | sum => exact .level .product

/-- The first move can be made before the evaluation. -/
theorem movesFirst_within (depth : Nat) {goal : Goal} (begins : Begins goal) :
    MovesFirst (within env depth) goal := by
  induction depth generalizing goal with
  | zero =>
      -- a move before nothing at all may fail, but then nothing comes either
      funext machine
      show none = Option.bind (Option.bind machine.stream.get _) _
      cases machine.stream.get with
      | none => rfl
      | some pair => rfl
  | succ depth ih =>
      cases begins with
      | level l => exact .level (ih (begins_operand l))
      | unary => exact .unary (ih .primary)
      | primary => exact movesFirst_primary

end MovesFirst

/-! ## What a step comes to -/

section Outcome

variable {α β : Type}

/-- What a step comes to. -/
def outcome (step : Evaluator α) (machine : Machine) :
    Option (Except EvalError α × Machine) :=
  step machine

theorem outcome_bind (step : Evaluator α) (f : α → Evaluator β)
    (machine : Machine) :
    outcome (step >>= f) machine =
      (outcome step machine).bind fun
        | (.ok v, after) => outcome (f v) after
        | (.error error, after) => some (.error error, after) := by
  show Option.bind (step machine) _ = Option.bind (step machine) _
  congr 1
  funext ⟨result, after⟩
  cases result with
  | ok v => rfl
  | error error => rfl

theorem outcome_next (machine : Machine) :
    outcome next machine =
      machine.stream.get.bind fun (token, stream) =>
        some (.ok token, { machine with stream }) := rfl

theorem outcome_vars_bind (f : Variables → Evaluator α) (machine : Machine) :
    outcome (vars >>= f) machine =
      outcome (f machine.effects.vars) machine := rfl

theorem outcome_change_bind (g : Effects → Effects)
    (f : PUnit → Evaluator α) (machine : Machine) :
    outcome (change g >>= f) machine =
      outcome (f ⟨⟩) { machine with effects := g machine.effects } := rfl

variable {stored : List Token} {stream : TokenStream}
  (inside : stream.Inside stored) (effects : Effects)

include inside

theorem outcome_current_bind (f : Token → Evaluator α) :
    outcome (current >>= f) ⟨effects, stream⟩ =
      outcome (f stream.rest.current) ⟨effects, stream⟩ := by
  have here : outcome current ⟨effects, stream⟩ =
      some (.ok stream.rest.current, ⟨effects, stream⟩) := by
    show Option.bind stream.current _ = _
    rw [inside.current_eq]
    rfl
  rw [outcome_bind, here]
  rfl

/-- A primary begins with the current token. -/
theorem outcome_primary {s : Cursor} (left : stream.rest = s)
    (env : Environment) (call : Goal → Lookahead → Evaluator Float) :
    outcome (step env call .primary .positioned) ⟨effects, stream⟩ =
      outcome (primary env call s.current) ⟨effects, stream⟩ := by
  rw [step, start, pure_bind, outcome_current_bind inside, left]

theorem outcome_next_bind (f : Token → Evaluator α) :
    outcome (next >>= f) ⟨effects, stream⟩ =
      outcome (f stream.moved.rest.current) ⟨effects, stream.moved⟩ := by
  have here : outcome next ⟨effects, stream⟩ =
      some (.ok stream.moved.rest.current, ⟨effects, stream.moved⟩) := by
    rw [outcome_next, inside.get_eq]
    rfl
  rw [outcome_bind, here]
  rfl

end Outcome

/-! ## The evaluation on a stream is the evaluation -/

/-- A step on a stream of the tokens `stored` comes to the reply that is given
at the cursor, and leaves the stream inside where the rest of the reply
begins. -/
def Matches (stored : List Token)
    (outcome : Option (Except EvalError Float × Machine)) (reply : Reply) :
    Prop :=
  ∃ stream : TokenStream, stream.Inside stored ∧ stream.rest = reply.rest ∧
    outcome = some (reply.result, ⟨reply.effects, stream⟩)

section Matches

variable {stored : List Token} {stream : TokenStream}
  (inside : stream.Inside stored) (effects : Effects)

section Inside

include inside

theorem matches_pure {s : Cursor} (left : stream.rest = s) (v : Float) :
    Matches stored (outcome (pure v) ⟨effects, stream⟩)
      (.value v effects s) :=
  ⟨stream, inside, left, rfl⟩

theorem matches_throw {s : Cursor} (left : stream.rest = s)
    (error : EvalError) :
    Matches stored (outcome (throw error) ⟨effects, stream⟩)
      (.failure error effects s) :=
  ⟨stream, inside, left, rfl⟩

/-- A value and a token that is stepped over. -/
theorem matches_next {token : Token} {tail : Cursor}
    (left : stream.rest = token :: tail)
    (passed : token.endsStatement = false) (v : Float) :
    Matches stored
      (outcome (next >>= fun _ => pure v) ⟨effects, stream⟩)
      (.value v effects tail) := by
  rw [outcome_next_bind inside]
  exact matches_pure inside.moved effects
    (inside.rest_moved_of_cons left passed) v

/-- The end of an expression in parentheses. -/
theorem matches_close (v : Float) :
    Matches stored (outcome (close v) ⟨effects, stream⟩)
      (.close v effects stream.rest) := by
  rw [close, outcome_current_bind inside]
  cases left : stream.rest with
  | nil => exact absurd left inside.rest_ne_nil
  | cons token tail =>
      by_cases closes : token = .closing
      · subst closes
        exact matches_next inside effects left rfl v
      · have unclosed : Cursor.current (token :: tail) ≠ .closing := closes
        rw [Reply.close_of_ne unclosed]
        simp only [Cursor.current]
        exact matches_throw inside effects left _

end Inside

/-- One step after the other: an error ends both. -/
theorem matches_bind {step : Evaluator Float} {machine : Machine}
    {reply : Reply} (first : Matches stored (outcome step machine) reply)
    {f : Float → Evaluator Float} {g : Float → Effects → Cursor → Reply}
    (second : ∀ v after stream, stream.Inside stored →
      reply = .value v after stream.rest →
      Matches stored (outcome (f v) ⟨after, stream⟩)
        (g v after stream.rest)) :
    Matches stored (outcome (step >>= f) machine) (reply.andThen g) := by
  obtain ⟨stream, inside, left, came⟩ := first
  rw [outcome_bind, came]
  rcases reply.value_or_failure with
    ⟨v, after, rest, rfl⟩ | ⟨error, after, rest, rfl⟩
  · cases left
    exact second v after stream inside rfl
  · exact ⟨stream, inside, left, rfl⟩

end Matches

/-- On a stream that is positioned at the cursor of a task, `call` comes to
what the task comes to. -/
def Simulates (env : Environment)
    (call : Goal → Lookahead → Evaluator Float) (stored : List Token)
    (task : Task) : Prop :=
  ∀ stream : TokenStream, stream.Inside stored → stream.rest = task.cursor →
    Matches stored (outcome (call task.goal .positioned) ⟨task.effects, stream⟩)
      (env.perform task)

section Simulates

variable {env : Environment} {call : Goal → Lookahead → Evaluator Float}
  {stored : List Token}

/-- A task behind the current token. -/
theorem Simulates.matches_advance {task : Task}
    (behind : Simulates env call stored task)
    (moves : MovesFirst call task.goal) {token : Token} {stream : TokenStream}
    (inside : stream.Inside stored) (left : stream.rest = token :: task.cursor)
    (passed : token.endsStatement = false) :
    Matches stored
      (outcome (call task.goal .advance) ⟨task.effects, stream⟩)
      (env.perform task) := by
  rw [moves, outcome_next_bind inside]
  exact behind stream.moved inside.moved
    (inside.rest_moved_of_cons left passed)

/-- **The rules on a stream are the rules at a cursor.**  A task comes out
right on a stream as soon as its calls do. -/
theorem simulates_of_calls
    (moves : ∀ goal, Begins goal → MovesFirst call goal) {task : Task}
    (right : ∀ next, env.Calls task next → Simulates env call stored next) :
    Simulates env (step env call) stored task := by
  obtain ⟨goal, effects, s⟩ := task
  cases goal, effects, s using env.evaluation_cases with
  | level l effects s =>
      intro stream inside left
      simp only [Environment.perform, env.reply_level, step]
      refine matches_bind (right _ .operand stream inside left) ?_
      intro v after stream inside came
      exact right _ (.more came) stream inside rfl
  | stop l lhs effects s stops =>
      intro stream inside left
      simp only [Environment.perform, env.reply_more_stop stops, step]
      rw [outcome_current_bind inside, left]
      simp only [stops]
      exact matches_pure inside effects left lhs
  | step l lhs effects token tail op here =>
      intro stream inside left
      simp only [Environment.perform, env.reply_more_step here, step]
      rw [outcome_current_bind inside, left]
      simp only [Cursor.current, here]
      refine matches_bind ((right _ (.right here)).matches_advance
        (moves _ (begins_operand l)) inside left
        (Token.inside_of_operator here)) ?_
      intro rhs after stream inside came
      cases applied : op.apply lhs rhs with
      | ok v => exact right _ (.moreAgain here came applied) stream inside rfl
      | error error => exact matches_throw inside after rfl error
  | unary effects s =>
      intro stream inside left
      simp only [Environment.perform, env.reply_unary, step]
      refine matches_bind (right _ .primary stream inside left) ?_
      intro v after stream inside came
      exact right _ (.moreUnary came) stream inside rfl
  | unaryStop operand effects s plain stops =>
      intro stream inside left
      simp only [Environment.perform, env.reply_moreUnary_stop plain stops,
        step]
      rw [outcome_current_bind inside, left]
      split
      · contradiction
      · simp only [stops]
        exact matches_pure inside effects left operand.value
  | unaryFactorial operand effects tail =>
      intro stream inside left
      simp only [Environment.perform, env.reply_moreUnary_factorial, step]
      rw [outcome_current_bind inside, left]
      exact matches_next inside effects left rfl _
  | unaryStep operand effects token tail op here =>
      intro stream inside left
      simp only [Environment.perform, env.reply_moreUnary_step here, step]
      rw [outcome_current_bind inside, left]
      simp only [Cursor.current]
      split
      · cases here
      · simp only [here]
        refine matches_bind ((right _ (.next here)).matches_advance
          (moves _ .primary) inside left
          (Token.inside_of_unaryOperator here)) ?_
        intro v after stream inside came
        exact right _ (.unaryAgain here came) stream inside rfl
  | number v effects tail =>
      intro stream inside left
      rw [outcome_primary inside effects left]
      simp only [Environment.perform, env.reply_number]
      exact matches_next inside effects left rfl v
  | stray effects tail =>
      intro stream inside left
      rw [outcome_primary inside effects left]
      simp only [Environment.perform, env.reply_stray]
      exact matches_next inside effects left rfl 0
  | call name f effects tail bound =>
      intro stream inside left
      rw [outcome_primary inside effects left]
      simp only [Environment.perform, env.reply_call bound, Cursor.current,
        primary, resolve, bound]
      refine matches_bind ((right _ (.argument bound)).matches_advance
        (moves _ .primary) inside left rfl) ?_
      intro v after stream inside came
      exact matches_pure inside after rfl (f v)
  | modifier name m effects tail bound =>
      intro stream inside left
      rw [outcome_primary inside effects left]
      simp only [Environment.perform, env.reply_modifier bound, Cursor.current,
        primary, resolve, bound]
      rw [outcome_change_bind, outcome_next_bind inside, outcome_change_bind]
      exact matches_pure inside.moved _ (inside.rest_moved_of_cons left rfl) 0
  | assign name effects body bound =>
      intro stream inside left
      rw [outcome_primary inside effects left]
      simp only [Environment.perform, env.reply_assign bound, Cursor.current,
        primary, resolve, bound]
      -- the slot is taken, and the name declared, with the `=` current
      have moved := inside.rest_moved_of_cons left rfl
      rw [outcome_next_bind inside, moved]
      simp only [Cursor.current]
      rw [outcome_vars_bind, outcome_change_bind]
      refine matches_bind ((right _ (.body bound)).matches_advance
        (moves _ (.level .sum)) inside.moved moved rfl) ?_
      intro v after stream inside came
      rw [outcome_change_bind]
      exact matches_pure inside _ rfl v
  | lookup name effects tail bound no_assign =>
      intro stream inside left
      rw [outcome_primary inside effects left]
      simp only [Environment.perform, env.reply_variable bound no_assign,
        Cursor.current, primary, resolve, bound]
      have moved := inside.rest_moved_of_cons left rfl
      rw [outcome_next_bind inside, moved]
      split
      · contradiction
      · rw [outcome_vars_bind]
        cases effects.vars.get? name with
        | some v => exact matches_pure inside.moved effects moved v
        | none =>
            rw [outcome_change_bind]
            exact matches_throw inside.moved _ moved _
  | opening effects tail =>
      intro stream inside left
      rw [outcome_primary inside effects left]
      simp only [Environment.perform, env.reply_opening]
      refine matches_bind ((right _ .inside).matches_advance
        (moves _ (.level .sum)) inside left rfl) ?_
      intro v after stream inside came
      exact matches_close inside after v
  | reference offset effects tail =>
      intro stream inside left
      rw [outcome_primary inside effects left]
      simp only [Environment.perform, env.reply_reference, Cursor.current,
        primary, reference]
      cases env.history.recent? offset with
      | some v => exact matches_next inside effects left rfl v
      | none => exact matches_throw inside effects left _
  | nothing effects s op here =>
      intro stream inside left
      rw [outcome_primary inside effects left]
      simp only [Environment.perform, env.reply_nothing here]
      generalize s.current = token at here
      cases token with
      | complement | literal | power | negate =>
          exact matches_pure inside effects left 0
      | _ => cases here
  | unexpected effects s bad =>
      intro stream inside left
      rw [outcome_primary inside effects left]
      simp only [Environment.perform, env.reply_unexpected bad]
      generalize s.current = token at bad
      cases token with
      | number | name | reference | factorial | opening | complement | literal
      | power | negate => cases bad
      | _ => exact matches_throw inside effects left _

variable (env) in
/-- A depth greater than the measure is enough. -/
theorem simulates_within {depth : Nat} {task : Task}
    (enough : task.measure < depth) :
    Simulates env (within env depth) stored task := by
  induction depth generalizing task with
  | zero => exact absurd enough (Nat.not_lt_zero _)
  | succ depth ih =>
      refine simulates_of_calls (fun _ => movesFirst_within depth) ?_
      intro next calls
      have smaller := env.measure_lt_of_calls calls
      exact ih (Nat.lt_of_lt_of_le smaller (Nat.le_of_lt_succ enough))

end Simulates

end Evaluator

/-! ## One evaluation after the other -/

namespace Context

/-- Evaluates one expression on a stream, which is left where the evaluation
has come to.  The depth is one that its tokens do not need more of. -/
def evaluateOn (context : Context) (lookahead : Lookahead)
    (stream : TokenStream) : Option (Evaluation × TokenStream) :=
  let depth := 10 * stream.tokens.size + 9
  (Evaluator.outcome
    (Evaluator.within context.toEnvironment depth (.level .sum) lookahead)
    ⟨context.effects, stream⟩).map fun (result, machine) =>
      ({ result
         silent := machine.effects.silent
         context := context.after machine.effects
         rest := machine.stream.rest }, machine.stream)

/-- Evaluating behind the current token is a move and then an evaluation, be
the stream inside its tokens or not. -/
theorem evaluateOn_advance (context : Context) (stream : TokenStream) :
    context.evaluateOn .advance stream =
      stream.get.bind fun (_, moved) =>
        context.evaluateOn .positioned moved := by
  simp only [evaluateOn]
  rw [Evaluator.movesFirst_within _ (.level .sum), Evaluator.outcome_bind,
    Evaluator.outcome_next, TokenStream.get]
  cases stream.current with
  | none => rfl
  | some here =>
      cases stream.moved.current with
      | none => rfl
      | some token => rfl

section Inside

variable (context : Context) {stored : List Token} {stream : TokenStream}
  (inside : stream.Inside stored)

include inside

/-- On a stream inside its tokens an expression comes to what it comes to at
the cursor, and the stream stays inside. -/
theorem evaluateOn_positioned :
    ∃ after : TokenStream, after.Inside stored ∧
      context.evaluateOn .positioned stream =
        some (context.evaluate .positioned stream.rest, after) := by
  have shorter := stream.length_rest_le
  have enough : Task.measure ⟨.level .sum, context.effects, stream.rest⟩ <
      10 * stream.tokens.size + 9 := by
    simp only [Task.measure, Goal.measure, Goal.rank]
    omega
  obtain ⟨after, inside', left, came⟩ := Evaluator.simulates_within
    context.toEnvironment enough stream inside rfl
  refine ⟨after, inside', ?_⟩
  simp only [evaluateOn]
  rw [came, evaluate_eq]
  simp only [Option.map_some, left]
  rfl

theorem evaluateOn_eq (lookahead : Lookahead) :
    ∃ after : TokenStream, after.Inside stored ∧
      context.evaluateOn lookahead stream =
        some (context.evaluate lookahead stream.rest, after) := by
  cases lookahead with
  | positioned => exact context.evaluateOn_positioned inside
  | advance =>
      obtain ⟨after, inside', came⟩ :=
        context.evaluateOn_positioned inside.moved
      refine ⟨after, inside', ?_⟩
      rw [evaluateOn_advance, inside.get_eq]
      rw [inside.rest_moved] at came
      exact came

end Inside

end Context

namespace TokenStream

/-- What a stream of `tokens` becomes by moves, made directly or by
evaluations in whatever contexts, and whatever they come to. -/
inductive Reached (tokens : Array Token) : TokenStream → Prop
  | fresh : Reached tokens (ofTokens tokens)
  | get {stream moved : TokenStream} {token : Token}
      (before : Reached tokens stream)
      (came : stream.get = some (token, moved)) : Reached tokens moved
  | evaluate {stream after : TokenStream} {context : Context}
      {lookahead : Lookahead} {evaluation : Evaluation}
      (before : Reached tokens stream)
      (came : context.evaluateOn lookahead stream =
        some (evaluation, after)) : Reached tokens after

theorem Reached.inside {tokens : Array Token} {stream : TokenStream}
    (reached : Reached tokens stream) :
    stream.Inside (Cursor.ofTokens tokens.toList) := by
  induction reached with
  | fresh => exact inside_ofTokens tokens
  | get _ came ih =>
      cases ih.get_eq.symm.trans came
      exact ih.moved
  | @evaluate _ _ context lookahead _ _ came ih =>
      obtain ⟨after, inside, came'⟩ := context.evaluateOn_eq ih lookahead
      cases came'.symm.trans came
      exact inside

/-- **A stream never leaves its tokens.**  They are closed by a `finish`, and
the index is the number of moves as long as that does not pass the first one.
So there always is a current token, and one after a further move; every
evaluation on the stream is the one at the cursor, and behind the current
token it is a move followed by an evaluation. -/
theorem stays_inside {tokens : Array Token} {stream : TokenStream}
    (reached : Reached tokens stream) :
    let stored := Cursor.ofTokens tokens.toList
    let last := stored.idxOf .finish
    stream.tokens.toList = stored ∧
      stream.position ≤ last ∧ last < stored.length ∧
      stream.position = min stream.advances last ∧
      (∃ token, stored[min stream.advances last]? = some token ∧
        stream.current = some token) ∧
      (∃ token moved, stored[min (stream.advances + 1) last]? = some token ∧
        moved.advances = stream.advances + 1 ∧
        stream.get = some (token, moved)) ∧
      ∀ context : Context,
        (∀ lookahead, ∃ after, context.evaluateOn lookahead stream =
          some (context.evaluate lookahead stream.rest, after)) ∧
        context.evaluateOn .advance stream =
          stream.get.bind fun (_, moved) =>
            context.evaluateOn .positioned moved := by
  intro stored last
  have inside := reached.inside
  refine ⟨inside.kept, inside.position_le, ?_, inside.position_eq, ?_, ?_, ?_⟩
  · exact List.idxOf_lt_length_of_mem inside.closed
  · refine ⟨_, ?_, inside.current_eq⟩
    rw [← inside.position_eq, ← inside.current_eq_getElem?,
      inside.current_eq]
  · refine ⟨_, _, ?_, rfl, inside.get_eq⟩
    have next := inside.moved.current_eq_getElem?
    rw [inside.moved.position_eq, inside.moved.current_eq] at next
    exact next.symm
  · intro context
    refine ⟨fun lookahead => ?_, context.evaluateOn_advance stream⟩
    obtain ⟨after, _, came⟩ := context.evaluateOn_eq inside lookahead
    exact ⟨after, came⟩

/-- A `finish` between other tokens stops the stream for good: three moves on
it is current, and no expression begins behind it. -/
theorem stays_inside_stopped :
    let context := Context.bare (.ofCapacity 0)
    let stream : TokenStream :=
      ⟨#[.number 1, .finish, .number 2, .finish], 1, 3⟩
    Reached #[.number 1, .finish, .number 2] stream ∧
      stream.current = some .finish ∧
      ∃ evaluation after,
        context.evaluateOn .advance stream = some (evaluation, after) ∧
        evaluation.result = .error (.unexpectedToken .finish) := by
  intro context stream
  have once : Reached #[.number 1, .finish, .number 2]
      ⟨#[.number 1, .finish, .number 2, .finish], 1, 1⟩ := .get .fresh rfl
  have reached : Reached #[.number 1, .finish, .number 2] stream :=
    .get (.get once rfl) rfl
  obtain ⟨-, -, -, -, ⟨token, place, here⟩, -, evaluates⟩ :=
    stays_inside reached
  have stopped : .finish = token := Option.some.inj place
  obtain ⟨after, came⟩ := (evaluates context).1 .advance
  have fails : (context.evaluate .advance stream.rest).result =
      .error (.unexpectedToken .finish) := by
    decide +kernel
  exact ⟨reached, stopped ▸ here, _, after, came, fails⟩

end TokenStream

end Reckoner
