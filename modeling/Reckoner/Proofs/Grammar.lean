/-
# Syntax trees

The evaluator builds no tree.  This module says which tree it could have
built: the trees of the grammar, one type for each phrase, and a parser that
reads them.  The parser evaluates nothing.  Of the names it only knows which
ones are functions and which ones are modifiers.

    sum      :=  product ((+ | -) product)*
    product  :=  bitwise ((* | / | %) bitwise)*
    bitwise  :=  unary ((<< | >> | & | | | xor) unary)*
    unary    :=  primary ((~ | # | ^ | negation) primary)* [!]
    primary  :=  number | a stray ! | function primary | modifier
              |  name [= sum] | ( sum ) | $n | nothing

Every repetition is greedy: a tail ends only where no operator of its own
stands.  A primary is nothing in front of `~`, `#`, `^` and a negation.
-/
import Reckoner.Proofs.Reply

namespace Reckoner

/-- The phrases of the grammar that stand for a value. -/
inductive Phrase where
  | level (l : Level)
  | unary
  | primary

/-- The operands of a level. -/
def Phrase.operand : Level → Phrase
  | .sum => level .product
  | .product => level .bitwise
  | .bitwise => unary

mutual

/-- The trees of a phrase. -/
inductive Tree : Phrase → Type
  | level {l : Level} (first : Tree (.operand l)) (rest : Tail l) :
      Tree (.level l)
  | unary (first : Tree .primary) (rest : UnaryTail) : Tree .unary
  | number (v : Float) : Tree .primary
  /-- A `!` with no operand in front. -/
  | stray : Tree .primary
  | call (name : String) (argument : Tree .primary) : Tree .primary
  | modifier (name : String) : Tree .primary
  | assign (name : String) (body : Tree (.level .sum)) : Tree .primary
  | lookup (name : String) : Tree .primary
  | parens (body : Tree (.level .sum)) : Tree .primary
  | reference (offset : Nat) : Tree .primary
  | nothing : Tree .primary

/-- The operators of a level with their right operands, from the left. -/
inductive Tail : Level → Type
  | stop {l : Level} : Tail l
  | step {l : Level} (op : BinaryOperator) (operand : Tree (.operand l))
      (rest : Tail l) : Tail l

/-- The operators behind a first primary, from the left. -/
inductive UnaryTail : Type
  | stop : UnaryTail
  | factorial : UnaryTail
  | step (op : UnaryOperator) (operand : Tree .primary) (rest : UnaryTail) :
      UnaryTail

end

/-! ## The parser -/

/-- What a parser is told about names. -/
structure Names where
  isFunction : String → Bool
  isModifier : String → Bool

/-- Why a parser gives up, with the tokens it had not read by then. -/
inductive SyntaxError where
  /-- A token that begins no primary. -/
  | unexpected (rest : Cursor)
  /-- A token that stands where `)` was expected. -/
  | unclosed (rest : Cursor)

/-- The tokens in front of which the parser gave up. -/
def SyntaxError.rest : SyntaxError → Cursor
  | unexpected rest => rest
  | unclosed rest => rest

/-- The error that the evaluator has for it. -/
def SyntaxError.cause : SyntaxError → EvalError
  | unexpected rest => .unexpectedToken rest.current
  | unclosed rest => .unterminatedParenthesis rest.current

/-- What has been read from `s`, and the tokens behind it. -/
structure Parsed (α : Type) (s : Cursor) where
  node : α
  rest : Cursor
  suffix : rest <:+ s

theorem Cursor.suffix_of_cons {token : Token} {tail s : Cursor}
    (h : token :: tail <:+ s) : tail <:+ s :=
  (List.suffix_cons token tail).trans h

/-- Steps over the `)` that has to follow what stands in parentheses. -/
def Parsed.close {s : Cursor} (body : Tree (.level .sum)) :
    (rest : Cursor) → rest <:+ s →
      Except SyntaxError (Parsed (Tree .primary) s)
  | .closing :: behind, h =>
    return ⟨.parens body, behind, Cursor.suffix_of_cons h⟩
  | rest, _ => throw (.unclosed rest)

theorem Parsed.close_node {s : Cursor} {body : Tree (.level .sum)}
    {rest : Cursor} {h : rest <:+ s} {out : Parsed (Tree .primary) s}
    (closed : Parsed.close body rest h = .ok out) : out.node = .parens body := by
  unfold Parsed.close at closed
  split at closed
  · obtain rfl := Except.ok.inj closed
    rfl
  · cases closed

/-- What a parser can be asked to read: a phrase, or a tail of operators. -/
inductive Part where
  | whole (p : Phrase)
  | tail (l : Level)
  | unaryTail

namespace Part

/-- The trees of a part. -/
abbrev Node : Part → Type
  | whole p => Tree p
  | tail l => Tail l
  | unaryTail => UnaryTail

/-- The goal that reads a part while evaluating it.  The values in it do not
matter, only its rank does. -/
def goal : Part → Goal
  | whole (.level l) => .level l
  | whole .unary => .unary
  | whole .primary => .primary
  | tail l => .more l 0
  | unaryTail => .moreUnary (.ofPrimary 0)

theorem goal_operand (l : Level) :
    (whole (.operand l)).goal = Goal.operand l := by
  cases l <;> rfl

end Part

namespace Names

/-- Reads a part, as much of it as there is. -/
def parse (names : Names) (part : Part) (s : Cursor) :
    Except SyntaxError (Parsed part.Node s) :=
  match part with
  | .whole (.level l) => do
    let first ← names.parse (.whole (.operand l)) s
    let rest ← names.parse (.tail l) first.rest
    return ⟨Tree.level first.node rest.node, rest.rest,
      rest.suffix.trans first.suffix⟩
  | .tail l =>
    match s with
    | [] => return ⟨Tail.stop, [], List.suffix_rfl⟩
    | token :: behind =>
      match l.operator? token with
      | none => return ⟨Tail.stop, token :: behind, List.suffix_rfl⟩
      | some op => do
        let operand ← names.parse (.whole (.operand l)) behind
        let rest ← names.parse (.tail l) operand.rest
        return ⟨Tail.step op operand.node rest.node, rest.rest,
          (rest.suffix.trans operand.suffix).trans (List.suffix_cons _ _)⟩
  | .whole .unary => do
    let first ← names.parse (.whole .primary) s
    let rest ← names.parse .unaryTail first.rest
    return ⟨Tree.unary first.node rest.node, rest.rest,
      rest.suffix.trans first.suffix⟩
  | .unaryTail =>
    match s with
    | [] => return ⟨UnaryTail.stop, [], List.suffix_rfl⟩
    | token :: behind =>
      if token = .factorial then
        return ⟨UnaryTail.factorial, behind, List.suffix_cons _ _⟩
      else
        match UnaryOperator.ofToken? token with
        | none => return ⟨UnaryTail.stop, token :: behind, List.suffix_rfl⟩
        | some op => do
          let operand ← names.parse (.whole .primary) behind
          let rest ← names.parse .unaryTail operand.rest
          return ⟨UnaryTail.step op operand.node rest.node, rest.rest,
            (rest.suffix.trans operand.suffix).trans (List.suffix_cons _ _)⟩
  | .whole .primary =>
    match s with
    | [] => throw (.unexpected [])
    | .number v :: behind =>
      return ⟨Tree.number v, behind, List.suffix_cons _ _⟩
    | .factorial :: behind =>
      return ⟨Tree.stray, behind, List.suffix_cons _ _⟩
    | .name name :: behind =>
      if names.isFunction name then do
        let argument ← names.parse (.whole .primary) behind
        return ⟨Tree.call name argument.node, argument.rest,
          argument.suffix.trans (List.suffix_cons _ _)⟩
      else if names.isModifier name then
        return ⟨Tree.modifier name, behind, List.suffix_cons _ _⟩
      else
        match behind with
        | .assign :: right => do
          let body ← names.parse (.whole (.level .sum)) right
          return ⟨Tree.assign name body.node, body.rest,
            (body.suffix.trans (List.suffix_cons _ _)).trans
              (List.suffix_cons _ _)⟩
        | behind => return ⟨Tree.lookup name, behind, List.suffix_cons _ _⟩
    | .opening :: behind => do
      let body ← names.parse (.whole (.level .sum)) behind
      Parsed.close body.node body.rest
        (body.suffix.trans (List.suffix_cons _ _))
    | .reference offset :: behind =>
      return ⟨Tree.reference offset, behind, List.suffix_cons _ _⟩
    | token :: behind =>
      match UnaryOperator.ofToken? token with
      | some _ => return ⟨Tree.nothing, token :: behind, List.suffix_rfl⟩
      | none => throw (.unexpected (token :: behind))
termination_by part.goal.measure s
decreasing_by
  · rw [Part.goal_operand]
    exact Goal.measure_lt_of_rank (Nat.le_refl _) (Goal.rank_operand_lt l)
  · exact Goal.measure_lt_of_rank first.suffix.length_le
      (Goal.rank_more_lt l 0)
  · exact Goal.measure_lt_of_length (Nat.lt_succ_self _)
  · exact Goal.measure_lt_of_length
      (Nat.lt_succ_of_le operand.suffix.length_le)
  · exact Goal.measure_lt_of_rank (Nat.le_refl _) (by decide)
  · exact Goal.measure_lt_of_rank first.suffix.length_le (Nat.lt_succ_self 1)
  · exact Goal.measure_lt_of_length (Nat.lt_succ_self _)
  · exact Goal.measure_lt_of_length
      (Nat.lt_succ_of_le operand.suffix.length_le)
  · exact Goal.measure_lt_of_length (Nat.lt_succ_self _)
  · exact Goal.measure_lt_of_length (Nat.lt_succ_of_lt (Nat.lt_succ_self _))
  · exact Goal.measure_lt_of_length (Nat.lt_succ_self _)

variable {names : Names}

theorem parse_tail_stop {l : Level} {s : Cursor}
    (stops : l.operator? s.current = none) :
    names.parse (.tail l) s = .ok ⟨Tail.stop, s, List.suffix_rfl⟩ := by
  cases s with
  | nil => rw [parse]; rfl
  | cons token behind =>
      rw [parse]
      simp only [show l.operator? token = none from stops]
      rfl

theorem parse_unaryTail_stop {s : Cursor} (plain : s.current ≠ .factorial)
    (stops : UnaryOperator.ofToken? s.current = none) :
    names.parse .unaryTail s = .ok ⟨UnaryTail.stop, s, List.suffix_rfl⟩ := by
  cases s with
  | nil => rw [parse]; rfl
  | cons token behind =>
      rw [parse, if_neg (show token ≠ .factorial from plain)]
      simp only [show UnaryOperator.ofToken? token = none from stops]
      rfl

theorem parse_unaryTail_step {token : Token} {op : UnaryOperator}
    (here : UnaryOperator.ofToken? token = some op) (behind : Cursor) :
    names.parse .unaryTail (token :: behind) = do
      let operand ← names.parse (.whole .primary) behind
      let rest ← names.parse .unaryTail operand.rest
      return ⟨UnaryTail.step op operand.node rest.node, rest.rest,
        (rest.suffix.trans operand.suffix).trans (List.suffix_cons _ _)⟩ := by
  have plain : token ≠ .factorial := by
    rintro rfl
    exact absurd here (by simp [UnaryOperator.ofToken?])
  rw [parse, if_neg plain]
  simp only [here]

theorem parse_call {name : String} (known : names.isFunction name = true)
    (behind : Cursor) :
    names.parse (.whole .primary) (.name name :: behind) = do
      let argument ← names.parse (.whole .primary) behind
      return ⟨Tree.call name argument.node, argument.rest,
        argument.suffix.trans (List.suffix_cons _ _)⟩ := by
  by_cases assigns : ∃ right, behind = .assign :: right
  · obtain ⟨right, rfl⟩ := assigns
    rw [parse, if_pos known]
  · rw [parse, if_pos known]
    exact fun right eq => assigns ⟨right, eq⟩

theorem parse_modifier {name : String} (unknown : ¬names.isFunction name = true)
    (known : names.isModifier name = true) (behind : Cursor) :
    names.parse (.whole .primary) (.name name :: behind) =
      .ok ⟨Tree.modifier name, behind, List.suffix_cons _ _⟩ := by
  by_cases assigns : ∃ right, behind = .assign :: right
  · obtain ⟨right, rfl⟩ := assigns
    rw [parse, if_neg unknown, if_pos known]
    rfl
  · rw [parse, if_neg unknown, if_pos known]
    · rfl
    · exact fun right eq => assigns ⟨right, eq⟩

theorem parse_assign {name : String} (no_function : ¬names.isFunction name = true)
    (no_modifier : ¬names.isModifier name = true) (right : Cursor) :
    names.parse (.whole .primary) (.name name :: .assign :: right) = do
      let body ← names.parse (.whole (.level .sum)) right
      return ⟨Tree.assign name body.node, body.rest,
        (body.suffix.trans (List.suffix_cons _ _)).trans
          (List.suffix_cons _ _)⟩ := by
  conv => lhs; rw [parse, if_neg no_function, if_neg no_modifier]

theorem parse_lookup {name : String} (no_function : ¬names.isFunction name = true)
    (no_modifier : ¬names.isModifier name = true) {behind : Cursor}
    (no_assign : behind.current ≠ .assign) :
    names.parse (.whole .primary) (.name name :: behind) =
      .ok ⟨Tree.lookup name, behind, List.suffix_cons _ _⟩ := by
  have other : ∀ right, behind = .assign :: right → False := by
    rintro right rfl
    exact no_assign rfl
  rw [parse, if_neg no_function, if_neg no_modifier]
  · rfl
  · exact other

theorem parse_nothing {s : Cursor} {op : UnaryOperator}
    (here : UnaryOperator.ofToken? s.current = some op) :
    names.parse (.whole .primary) s =
      .ok ⟨Tree.nothing, s, List.suffix_rfl⟩ := by
  cases s with
  | nil => exact absurd here (by simp [Cursor.current, UnaryOperator.ofToken?])
  | cons token behind =>
      have here : UnaryOperator.ofToken? token = some op := here
      rw [parse]
      · simp only [here]
        rfl
      all_goals
        intros
        subst_vars
        simp [UnaryOperator.ofToken?] at here

theorem parse_unexpected {s : Cursor}
    (bad : s.current.beginsPrimary = false) :
    names.parse (.whole .primary) s = .error (.unexpected s) := by
  cases s with
  | nil => rw [parse]; rfl
  | cons token behind =>
      have bad : token.beginsPrimary = false := bad
      rw [parse]
      · simp only [Token.ofToken?_eq_none_of_not_beginsPrimary bad]
        rfl
      all_goals
        intros
        subst_vars
        simp [Token.beginsPrimary] at bad

end Names

end Reckoner
