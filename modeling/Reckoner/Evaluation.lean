/-
# Evaluation

An expression is evaluated while its tokens are read; no tree is built.  The
parts of an expression are the goals of one recursive function: a level of
binary operators and what may follow its first operand, the operators of one
primary, and a primary.

    sum      :=  product ((+ | -) product)*
    product  :=  bitwise ((* | / | %) bitwise)*
    bitwise  :=  unary ((<< | >> | & | | | xor) unary)*
    unary    :=  primary ((~ | # | ^ | negation) primary)* [!]
    primary  :=  number | function primary | modifier | name [= sum]
              |  ( sum ) | $n | a stray ! | nothing

A primary is nothing, and counts as zero, where one of `~`, `#`, `^` or a
negation stands; the token is left to the unary goal.  So `-5` is zero
followed by a negation of five.

Every answer carries the proof that its rest is a suffix of the tokens it
began with.  Tokens are only ever left behind, and where none is, the rank
of the goal goes down; this is why the recursion ends.
-/
import Reckoner.Context
import Reckoner.Operator

namespace Reckoner

/-- What an evaluation changes. -/
structure Effects where
  vars : Variables
  requests : Requests
  /-- Whether the value is not to be shown. -/
  silent : Bool

/-- The outcome of an evaluation: its value or the error that ended it, the
effects up to there, and the tokens not yet read. -/
structure Reply where
  result : Except EvalError Float
  effects : Effects
  rest : Cursor

/-- A reply that leaves a suffix of the tokens `s`. -/
abbrev Answer (s : Cursor) := { reply : Reply // reply.rest <:+ s }

namespace Answer

variable {s t : Cursor}

/-- A value, with `rest` left to read. -/
def value (v : Float) (effects : Effects) (rest : Cursor)
    (h : rest <:+ s) : Answer s :=
  ⟨⟨.ok v, effects, rest⟩, h⟩

/-- An error, with `rest` left to read. -/
def failure (error : EvalError) (effects : Effects) (rest : Cursor)
    (h : rest <:+ s) : Answer s :=
  ⟨⟨.error error, effects, rest⟩, h⟩

/-- An answer about a suffix as one about the whole. -/
def within (answer : Answer t) (h : t <:+ s) : Answer s :=
  ⟨answer.val, answer.property.trans h⟩

/-- An answer about the tokens behind `token`. -/
def behind (token : Token) (answer : Answer s) : Answer (token :: s) :=
  answer.within (List.suffix_cons token s)

/-- Goes on with the value of an answer; an error stays as it is. -/
def andThen (answer : Answer s)
    (next : Float → Effects → (rest : Cursor) → rest <:+ s → Answer s) :
    Answer s :=
  match answer with
  | ⟨⟨.ok v, effects, rest⟩, h⟩ => next v effects rest h
  | ⟨⟨.error error, effects, rest⟩, h⟩ => failure error effects rest h

/-- Steps over the `)` that has to follow a value in parentheses. -/
def close (v : Float) (effects : Effects) :
    (rest : Cursor) → rest <:+ s → Answer s
  | .closing :: tail, h =>
    value v effects tail ((List.suffix_cons _ tail).trans h)
  | rest, h => failure (.unterminatedParenthesis rest.current) effects rest h

end Answer

/-- The part of an expression to evaluate next. -/
inductive Goal where
  /-- An operand of the level and all operators behind it. -/
  | level (l : Level)
  /-- The operators of the level behind a first value. -/
  | more (l : Level) (left : Float)
  /-- A primary and the operators behind it. -/
  | unary
  /-- The operators behind a first primary. -/
  | moreUnary (operand : Operand)
  | primary

namespace Goal

/-- The operands of a level. -/
def operand : Level → Goal
  | .sum => level .product
  | .product => level .bitwise
  | .bitwise => unary

/-- The order in which goals give way to each other at one token. -/
def rank : Goal → Nat
  | primary => 0
  | moreUnary _ => 1
  | unary => 2
  | more .bitwise _ => 3
  | level .bitwise => 4
  | more .product _ => 5
  | level .product => 6
  | more .sum _ => 7
  | level .sum => 8

/-- The measure that goes down: first the tokens, then the rank. -/
def measure (goal : Goal) (s : Cursor) : Nat := 10 * s.length + goal.rank

theorem rank_operand_lt (l : Level) : (operand l).rank < (level l).rank := by
  cases l <;> decide

theorem rank_more_lt (l : Level) (v : Float) :
    (more l v).rank < (level l).rank := by
  cases l <;> simp [rank]

theorem rank_le (goal : Goal) : goal.rank ≤ 8 := by
  cases goal with
  | level l => cases l <;> decide
  | more l => cases l <;> simp [rank]
  | unary => decide
  | moreUnary => simp [rank]
  | primary => decide

/-- At fewer tokens any goal is smaller. -/
theorem measure_lt_of_length {g h : Goal} {s t : Cursor}
    (lt : t.length < s.length) : g.measure t < h.measure s := by
  have := g.rank_le
  simp only [measure]
  omega

/-- At no more tokens a goal of lower rank is smaller. -/
theorem measure_lt_of_rank {g h : Goal} {s t : Cursor}
    (le : t.length ≤ s.length) (lt : g.rank < h.rank) :
    g.measure t < h.measure s := by
  simp only [measure]
  omega

end Goal

namespace Environment

/-- A value that enters a level of operators: the bitwise one cuts it to a
word unless fractions are preserved. -/
def enter (env : Environment) : Level → Float → Float
  | .bitwise, v =>
    match env.policy with
    | .truncate => (Word.truncate v).value
    | .preserve => v
  | _, v => v

/-- What a name stands for before variables are looked at. -/
inductive Binding where
  | function (f : UnaryFunction)
  | modifier (m : Modifier)
  | variable

/-- Resolves a name: a function hides a modifier, and both hide a
variable. -/
def binding (env : Environment) (name : String) : Binding :=
  match env.functions.get? name with
  | some f => .function f
  | none =>
    match env.modifiers.get? name with
    | some m => .modifier m
    | none => .variable

/-- Evaluates a goal at the current token.

An assignment has its slot before its right side is evaluated, so `x = x + 1`
finds a fresh `x` at zero. -/
def run (env : Environment) (goal : Goal) (effects : Effects) (s : Cursor) :
    Answer s :=
  match goal with
  | .level l =>
    (env.run (Goal.operand l) effects s).andThen fun v effects rest h =>
      (env.run (.more l (env.enter l v)) effects rest).within h
  | .more l left =>
    match s with
    | [] => .value left effects [] List.suffix_rfl
    | token :: tail =>
      match l.operator? token with
      | none => .value left effects (token :: tail) List.suffix_rfl
      | some op =>
        .behind token <|
          (env.run (Goal.operand l) effects tail).andThen
            fun right effects rest h =>
              match op.apply left right with
              | .ok v => (env.run (.more l v) effects rest).within h
              | .error error => .failure error effects rest h
  | .unary =>
    (env.run .primary effects s).andThen fun v effects rest h =>
      (env.run (.moreUnary (.ofPrimary v)) effects rest).within h
  | .moreUnary operand =>
    match s with
    | [] => .value operand.value effects [] List.suffix_rfl
    | .factorial :: tail =>
      .behind .factorial <|
        .value (factorial operand.value operand.start) effects tail
          List.suffix_rfl
    | token :: tail =>
      match UnaryOperator.ofToken? token with
      | none => .value operand.value effects (token :: tail) List.suffix_rfl
      | some op =>
        .behind token <|
          (env.run .primary effects tail).andThen fun v effects rest h =>
            (env.run (.moreUnary (operand.apply v op)) effects rest).within h
  | .primary =>
    match s with
    | [] => .failure (.unexpectedToken .finish) effects [] List.suffix_rfl
    | .number v :: tail =>
      .behind (.number v) <| .value v effects tail List.suffix_rfl
    | .factorial :: tail =>
      .behind .factorial <| .value 0 effects tail List.suffix_rfl
    | .name name :: tail =>
      match env.binding name with
      | .function f =>
        .behind (.name name) <|
          (env.run .primary effects tail).andThen fun v effects rest h =>
            .value (f v) effects rest h
      | .modifier m =>
        let requests := m effects.requests
        .behind (.name name) <|
          .value 0 { effects with requests, silent := true } tail
            List.suffix_rfl
      | .variable =>
        match tail with
        | .assign :: body =>
          let slot := effects.vars.slot name
          let vars := effects.vars.declare name
          .behind (.name name) <| .behind .assign <|
            (env.run (.level .sum) { effects with vars } body).andThen
              fun v effects rest h =>
                let vars := effects.vars.store slot v
                .value v { effects with vars } rest h
        | tail =>
          .behind (.name name) <|
            match effects.vars.get? name with
            | some v => .value v effects tail List.suffix_rfl
            | none =>
              .failure (.undefinedName name) { effects with silent := true }
                tail List.suffix_rfl
    | .opening :: tail =>
      .behind .opening <|
        (env.run (.level .sum) effects tail).andThen .close
    | .reference offset :: tail =>
      match env.history.recent? offset with
      | some v =>
        .behind (.reference offset) <| .value v effects tail List.suffix_rfl
      | none =>
        .failure (.historyOutOfRange offset env.history.length) effects
          (.reference offset :: tail) List.suffix_rfl
    | token :: tail =>
      match UnaryOperator.ofToken? token with
      | some _ => .value 0 effects (token :: tail) List.suffix_rfl
      | none =>
        .failure (.unexpectedToken token) effects (token :: tail)
          List.suffix_rfl
termination_by goal.measure s
decreasing_by
  · exact Goal.measure_lt_of_rank (Nat.le_refl _) (Goal.rank_operand_lt l)
  · exact Goal.measure_lt_of_rank h.length_le (Goal.rank_more_lt l _)
  · exact Goal.measure_lt_of_length (Nat.lt_succ_self _)
  · exact Goal.measure_lt_of_length (Nat.lt_succ_of_le h.length_le)
  · exact Goal.measure_lt_of_rank (Nat.le_refl _) (by decide)
  · exact Goal.measure_lt_of_rank h.length_le (Nat.lt_succ_self 1)
  · exact Goal.measure_lt_of_length (Nat.lt_succ_self _)
  · exact Goal.measure_lt_of_length (Nat.lt_succ_of_le h.length_le)
  · exact Goal.measure_lt_of_length (Nat.lt_succ_self _)
  · exact Goal.measure_lt_of_length (Nat.lt_succ_of_lt (Nat.lt_succ_self _))
  · exact Goal.measure_lt_of_length (Nat.lt_succ_self _)

/-- A level is its first operand and the operators behind it. -/
theorem run_level (env : Environment) (l : Level) (effects : Effects)
    (s : Cursor) :
    env.run (.level l) effects s =
      (env.run (Goal.operand l) effects s).andThen fun v effects rest h =>
        (env.run (.more l (env.enter l v)) effects rest).within h := by
  rw [run]

end Environment

/-- Whether the first token of an expression is current already. -/
inductive Lookahead where
  /-- The token before it is current; move on first. -/
  | advance
  | positioned
deriving DecidableEq, Repr

/-- The cursor at which an evaluation begins. -/
def Lookahead.start : Lookahead → Cursor → Cursor
  | advance, s => s.advance
  | positioned, s => s

theorem Lookahead.start_suffix (lookahead : Lookahead) (s : Cursor) :
    lookahead.start s <:+ s := by
  cases lookahead with
  | advance => exact s.advance_suffix
  | positioned => exact List.suffix_rfl

/-- What is left of evaluating one expression in a context. -/
structure Evaluation where
  result : Except EvalError Float
  /-- Whether the value is not to be shown: a modifier ran, or a name was
  not found. -/
  silent : Bool
  context : Context
  rest : Cursor

namespace Context

/-- The goal of a whole expression, begun with no effects but the context's
own. -/
def answer (context : Context) (s : Cursor) : Answer s :=
  context.toEnvironment.run (.level .sum)
    ⟨context.vars, context.requests, false⟩ s

/-- Evaluates one expression.  The token that ended it is current
afterwards. -/
def evaluate (context : Context) (lookahead : Lookahead) (s : Cursor) :
    Evaluation :=
  let reply := (context.answer (lookahead.start s)).val
  { result := reply.result
    silent := reply.effects.silent
    context :=
      { context with
        vars := reply.effects.vars
        requests := reply.effects.requests }
    rest := reply.rest }

/-- An evaluation leaves a suffix of what it was given. -/
theorem evaluate_rest_suffix (context : Context) (lookahead : Lookahead)
    (s : Cursor) : (context.evaluate lookahead s).rest <:+ s :=
  (context.answer (lookahead.start s)).property.trans
    (lookahead.start_suffix s)

end Context

end Reckoner
