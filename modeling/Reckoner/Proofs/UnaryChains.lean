/-
# The operators of one primary in closed form

The operators `~`, `#`, `^` and negation are applied one after the other to a
running value, and next to it runs the word from which a factorial would
start.  All but the power put the primary behind them in the place of the
value, and only `~` changes the word.  So what a whole chain comes to can be
read off it from the back.  The value begins at the last operator that is no
power and is raised to the primaries behind it; the word is decided by the
last `~`.  Whatever stands further in front has no part in it, and results
like those of `--5`, `#5!` or `2 ^ 3!` follow.

A chain may end in a `!`, which multiplies the value by every integer below
the word, down to two.  The product is left off as soon as it is settled; by
`descending_eq_product` that changes nothing.
-/
import Reckoner.Proofs.Ending
import Reckoner.Proofs.FactorialProducts

namespace Reckoner

/-! ## What a chain comes to -/

namespace UnaryOperator

/-- The value that an operator puts in the place of an earlier one; a power
goes on with the earlier one. -/
def restart? : UnaryOperator → Float → Option Float
  | complement, v => some (~~~Word.truncate v).value
  | literal, v => some v
  | negate, v => some (-v)
  | power, _ => none

/-- Whether an operator goes on with the value in front of it. -/
def goesOn (link : UnaryOperator × Float) : Bool :=
  (link.1.restart? link.2).isNone

/-- The value of a chain.  It starts at the last operator that puts a value
in the place of the one before, or at the first primary, and is raised to
the primaries behind. -/
def chainValue (first : Float) (links : List (UnaryOperator × Float)) :
    Float :=
  let start := (links.rdropWhile goesOn).getLast?.bind fun link =>
    link.1.restart? link.2
  (links.rtakeWhile goesOn).foldl (fun x link => x.pow link.2)
    (start.getD first)

/-- The word from which a factorial behind the chain starts: the complement
at the last `~`, or the word of the first primary. -/
def chainWord (first : Float) (links : List (UnaryOperator × Float)) : Word :=
  match (links.filter fun link => link.1 = complement).getLast? with
  | some link => ~~~Word.truncate link.2
  | none => Word.truncate first

section Concat

variable (first : Float) (links : List (UnaryOperator × Float))

theorem chainValue_concat_power (v : Float) :
    chainValue first (links ++ [(power, v)]) =
      (chainValue first links).pow v := by
  have on : goesOn (power, v) = true := rfl
  rw [chainValue, List.rtakeWhile_concat_pos _ _ _ on,
    List.rdropWhile_concat_pos _ _ _ on, List.foldl_concat]
  rfl

theorem chainValue_concat_restart {op : UnaryOperator} {v start : Float}
    (restarts : op.restart? v = some start) :
    chainValue first (links ++ [(op, v)]) = start := by
  have off : ¬goesOn (op, v) = true := by
    simp [goesOn, restarts]
  rw [chainValue, List.rtakeWhile_concat_neg _ _ _ off,
    List.rdropWhile_concat_neg _ _ _ off, List.getLast?_concat]
  simp only [Option.bind_some, restarts]
  rfl

theorem chainWord_concat (op : UnaryOperator) (v : Float) :
    chainWord first (links ++ [(op, v)]) =
      if op = complement then ~~~Word.truncate v else chainWord first links := by
  unfold chainWord
  rw [List.filter_append]
  by_cases here : op = complement
  · simp [here]
  · simp [here]

end Concat

/-- What stands in front of an operator that puts a value in the place of the
earlier one does not matter. -/
theorem chainValue_append_cons {op : UnaryOperator} {v start : Float}
    (restarts : op.restart? v = some start) (first first' : Float)
    (front front' links : List (UnaryOperator × Float)) :
    chainValue first (front ++ (op, v) :: links) =
      chainValue first' (front' ++ (op, v) :: links) := by
  induction links using List.reverseRecOn with
  | nil =>
      rw [chainValue_concat_restart first front restarts,
        chainValue_concat_restart first' front' restarts]
  | append_singleton links link ih =>
      obtain ⟨op', v'⟩ := link
      have assoc (front : List (UnaryOperator × Float)) :
          front ++ (op, v) :: (links ++ [(op', v')]) =
            (front ++ (op, v) :: links) ++ [(op', v')] := by
        simp
      rw [assoc, assoc]
      cases restarts' : op'.restart? v' with
      | some start' =>
          rw [chainValue_concat_restart _ _ restarts',
            chainValue_concat_restart _ _ restarts']
      | none =>
          obtain rfl : op' = power := by
            cases op' <;> first | rfl | cases restarts'
          rw [chainValue_concat_power, chainValue_concat_power, ih]

end UnaryOperator

namespace Operand

/-- The operand after a chain has the value and the word of the chain. -/
theorem foldl_apply (first : Float) (links : List (UnaryOperator × Float)) :
    links.foldl (fun operand link => operand.apply link.2 link.1)
        (ofPrimary first) =
      ⟨UnaryOperator.chainValue first links,
        UnaryOperator.chainWord first links⟩ := by
  induction links using List.reverseRecOn with
  | nil => rfl
  | append_singleton links link ih =>
      obtain ⟨op, v⟩ := link
      rw [List.foldl_concat, ih, UnaryOperator.chainWord_concat]
      cases op with
      | power =>
          rw [UnaryOperator.chainValue_concat_power]
          rfl
      | complement =>
          rw [UnaryOperator.chainValue_concat_restart _ _ rfl]
          rfl
      | literal =>
          rw [UnaryOperator.chainValue_concat_restart _ _ rfl]
          rfl
      | negate =>
          rw [UnaryOperator.chainValue_concat_restart _ _ rfl]
          rfl

end Operand

/-! ## Chains of tokens -/

namespace Environment

variable (env : Environment)

/-- A primary and its value.  In front of an operator it is missing and
counts as zero; elsewhere it is evaluated without an error. -/
inductive Primary : Effects → Cursor → Float → Effects → Cursor → Prop
  | missing {effects : Effects} {s : Cursor} {op : UnaryOperator}
      (here : UnaryOperator.ofToken? s.current = some op) :
      Primary effects s 0 effects s
  | present {effects after : Effects} {s rest : Cursor} {v : Float}
      (begins : UnaryOperator.ofToken? s.current = none)
      (came : env.reply .primary effects s = .value v after rest) :
      Primary effects s v after rest

/-- Operators, each with the value of the primary behind it. -/
inductive Operators : Effects → Cursor → List (UnaryOperator × Float) →
    Effects → Cursor → Prop
  | none {effects : Effects} {s : Cursor} : Operators effects s [] effects s
  | next {effects mid after : Effects} {token : Token} {tail t rest : Cursor}
      {op : UnaryOperator} {v : Float}
      {links : List (UnaryOperator × Float)}
      (here : UnaryOperator.ofToken? token = some op)
      (primary : Primary env effects tail v mid t)
      (more : Operators mid t links after rest) :
      Operators effects (token :: tail) ((op, v) :: links) after rest

/-- A first primary with operators behind it. -/
inductive Chain (effects : Effects) (s : Cursor) (first : Float)
    (links : List (UnaryOperator × Float)) (after : Effects) (rest : Cursor) :
    Prop
  | intro {mid : Effects} {t : Cursor}
      (primary : env.Primary effects s first mid t)
      (operators : env.Operators mid t links after rest)

/-- A missing primary is evaluated as well, to zero. -/
theorem primary_iff {effects after : Effects} {s rest : Cursor} {v : Float} :
    env.Primary effects s v after rest ↔
      env.reply .primary effects s = .value v after rest := by
  constructor
  · intro primary
    cases primary with
    | missing here => exact env.reply_nothing here _
    | present _ came => exact came
  · intro came
    cases here : UnaryOperator.ofToken? s.current with
    | none => exact .present here came
    | some op =>
        rw [env.reply_nothing here] at came
        cases came
        exact .missing here

/-- Operators are applied one after the other. -/
theorem reply_of_operators {effects after : Effects} {s rest : Cursor}
    {links : List (UnaryOperator × Float)}
    (operators : env.Operators effects s links after rest)
    (operand : Operand) :
    env.reply (.moreUnary operand) effects s =
      env.reply
        (.moreUnary (links.foldl
          (fun operand link => operand.apply link.2 link.1) operand))
        after rest := by
  induction operators generalizing operand with
  | none => rfl
  | next here primary _ ih =>
      rw [env.reply_moreUnary_step here, env.primary_iff.mp primary]
      exact ih _

/-- A value comes from operators up to a token that is none. -/
theorem exists_operators {operand : Operand} {effects after : Effects}
    {s rest : Cursor} {v : Float}
    (came : env.reply (.moreUnary operand) effects s = .value v after rest) :
    ∃ links mid behind, env.Operators effects s links mid behind ∧
      UnaryOperator.ofToken? behind.current = none := by
  induction length : s.length using Nat.strong_induction_on
    generalizing operand effects s with
  | _ n ih =>
      cases here : UnaryOperator.ofToken? s.current with
      | none => exact ⟨[], effects, s, .none, here⟩
      | some op =>
          cases s with
          | nil => cases here
          | cons token tail =>
              have here : UnaryOperator.ofToken? token = some op := here
              rw [env.reply_moreUnary_step here] at came
              obtain ⟨u, mid, t, first, second⟩ :=
                Reply.of_andThen_eq_value came
              have shorter : t.length < n := by
                have := (env.rest_suffix_of_reply first).length_le
                rw [List.length_cons] at length
                omega
              obtain ⟨links, last, behind, operators, stops⟩ :=
                ih t.length shorter second rfl
              exact ⟨(op, u) :: links, last, behind,
                .next here (env.primary_iff.mpr first) operators, stops⟩

/-- Behind a value of the unary level there is a chain. -/
theorem exists_chain {effects after : Effects} {s rest : Cursor} {v : Float}
    (came : env.reply .unary effects s = .value v after rest) :
    ∃ first links mid behind, env.Chain effects s first links mid behind ∧
      UnaryOperator.ofToken? behind.current = none := by
  rw [reply_unary] at came
  obtain ⟨u, mid, t, first, second⟩ := Reply.of_andThen_eq_value came
  obtain ⟨links, last, behind, operators, stops⟩ :=
    env.exists_operators second
  exact ⟨u, links, last, behind,
    .intro (env.primary_iff.mpr first) operators, stops⟩

/-- A whole chain comes down to its value and its word. -/
theorem reply_of_chain {effects after : Effects} {s behind : Cursor}
    {first : Float} {links : List (UnaryOperator × Float)}
    (chain : env.Chain effects s first links after behind) :
    env.reply .unary effects s =
      env.reply
        (.moreUnary ⟨UnaryOperator.chainValue first links,
          UnaryOperator.chainWord first links⟩) after behind := by
  obtain ⟨primary, operators⟩ := chain
  rw [reply_unary, env.primary_iff.mp primary, ← Operand.foldl_apply]
  exact env.reply_of_operators operators _

/-- **The unary level in closed form.**  A value comes from a chain and from
nothing else.  Without a `!` it is the value of the chain, which ends where
no operator goes on; with a `!` it is the product from there on, and what
stands behind the `!` is left alone.  The value of a chain has nothing to do
with what stands in front of the last operator that is no power. -/
theorem reply_unary_eq_value_iff (env : Environment) :
    (∀ effects s v after rest,
      env.reply .unary effects s = .value v after rest ↔
        ∃ first links behind, env.Chain effects s first links after behind ∧
          (behind.current.isUnary = false ∧ rest = behind ∧
              v = UnaryOperator.chainValue first links ∨
            behind = .factorial :: rest ∧
              v = Factorial.product (UnaryOperator.chainValue first links)
                ((UnaryOperator.chainWord first links).toInt.toNat - 1))) ∧
      ∀ op v, op ≠ .power → ∀ first first' front front' links,
        UnaryOperator.chainValue first (front ++ (op, v) :: links) =
          UnaryOperator.chainValue first' (front' ++ (op, v) :: links) := by
  constructor
  · intro effects s v after rest
    constructor
    · intro came
      obtain ⟨first, links, last, behind, chain, stops⟩ :=
        env.exists_chain came
      rw [env.reply_of_chain chain] at came
      by_cases ended : behind.current = .factorial
      · obtain ⟨tail, rfl⟩ : ∃ tail, behind = .factorial :: tail := by
          cases behind with
          | nil => cases ended
          | cons token tail => exact ⟨tail, congrArg (· :: tail) ended⟩
        rw [reply_moreUnary_factorial, factorial_eq_product] at came
        cases came
        exact ⟨first, links, _, chain, .inr ⟨rfl, rfl⟩⟩
      · rw [env.reply_moreUnary_stop ended stops] at came
        cases came
        exact ⟨first, links, _, chain,
          .inl ⟨Token.isUnary_eq_false ended stops, rfl, rfl⟩⟩
    · rintro ⟨first, links, behind, chain, ⟨stops, rfl, rfl⟩ | ⟨rfl, rfl⟩⟩
      · rw [env.reply_of_chain chain]
        exact env.reply_moreUnary_stop
          (Token.ne_factorial_of_not_isUnary stops)
          (Token.ofToken?_of_not_isUnary stops) _ _
      · rw [env.reply_of_chain chain, reply_moreUnary_factorial,
          factorial_eq_product]
  · intro op v restarts first first' front front' links
    cases op with
    | power => exact absurd rfl restarts
    | complement | literal | negate =>
        exact UnaryOperator.chainValue_append_cons rfl first first' front
          front' links

end Environment

end Reckoner
