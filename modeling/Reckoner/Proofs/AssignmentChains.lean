/-
# Assignment chains store at the end or not at all

In a chain `x = y = … = r` every target is declared before `r` is evaluated,
and stored only after.  If `r` assigns nothing and fails, then nothing has
been stored: the targets hold what they held, new ones zero.

If `r` has a value, the stores follow from the last target to the first, and
between two of them the value goes through the operators of one primary and
the three levels again.  These could fail if they found something to do.  But
`r` has taken all operators it could, and without a `!` in it what stands
behind is no operator of one primary either.  So nothing is done between the
stores and nothing can fail there.
-/
import Reckoner.Proofs.Assignment

namespace Reckoner

/-- A declaration of several names adds the new ones at zero. -/
theorem Variables.get?_foldl_declare (names : List String) (vars : Variables)
    (name : String) :
    (names.foldl declare vars).get? name =
      if name ∈ names then some ((vars.get? name).getD 0)
      else vars.get? name := by
  induction names generalizing vars with
  | nil => simp
  | cons first names ih =>
      rw [List.foldl_cons, ih, get?_declare]
      by_cases here : name = first
      · subst here
        cases vars.get? name with
        | none => simp
        | some v => simp
      · simp [here]

/-- An expression without a `!` ends in front of a token that nothing goes on
with. -/
theorem Environment.stopped_of_no_factorial {env : Environment}
    {effects after : Effects} {s rest : Cursor} {v : Float}
    (came : env.reply (.level .sum) effects s = .value v after rest)
    (no_factorial : .factorial ∉ s.statement) :
    (∀ l : Level, l.operator? rest.current = none) ∧
      rest.current.isUnary = false := by
  have ended : Ended (.sum :: Level.sum.tighter) s rest := ended_of_reply came
  constructor
  · intro l
    exact ended.operators l (by cases l <;> decide)
  · by_contra unary
    have unary := (Bool.not_eq_false _).mp unary
    have more : rest.current.endsStatement = false := by
      by_contra ends
      rw [Token.isUnary_of_endsStatement ((Bool.not_eq_false _).mp ends)]
        at unary
      cases unary
    have stands := Cursor.infix_statement (passes_of_reply came)
      (ended.unary unary) more
    exact no_factorial (stands.subset List.mem_cons_self)

namespace Context

/-- **A chain of assignments stores everything or nothing.**  The right side
assigns nothing and has no `!` in it.  If the chain fails, every target holds
what it held before, and zero if it was new.  If it has a value, so has the
right side with the targets declared; the last target holds the value of the
right side, and the targets before it hold what the chain comes to.  All
other variables and the history stay in either case. -/
theorem evaluate_assignments {context : Context} {names : List String}
    {last : String}
    (unregistered : ∀ name ∈ names ++ [last],
      context.functions.get? name = none ∧
        context.modifiers.get? name = none)
    {r : List Token} (inside : ∀ token ∈ r, token.endsStatement = false)
    (no_assign : .assign ∉ r) (no_factorial : .factorial ∉ r)
    {behind : Cursor} (ends : behind.current.endsStatement = true)
    {lookahead : Lookahead} {s : Cursor}
    (begins : lookahead.start s =
      Cursor.assignments (names ++ [last]) (r ++ behind)) :
    let evaluation := context.evaluate lookahead s
    let vars := evaluation.context.vars
    let declared := (names ++ [last]).foldl Variables.declare context.vars
    evaluation.context.history = context.history ∧
    (∀ name, name ∉ names ++ [last] →
      vars.get? name = context.vars.get? name) ∧
    (∀ error, evaluation.result = .error error →
      ∀ name ∈ names ++ [last],
        vars.get? name = some ((context.vars.get? name).getD 0)) ∧
    ∀ v, evaluation.result = .ok v → ∃ w,
      ({ context with vars := declared }.evaluate .positioned
        (r ++ behind)).result = .ok w ∧
      v = context.enter .bitwise w ∧
      (∀ name ∈ names, vars.get? name = some v) ∧
      (last ∉ names → vars.get? last = some w) := by
  intro evaluation vars declared
  have bound : ∀ name ∈ names ++ [last], context.binding name = .variable := by
    intro name among
    obtain ⟨no_function, no_modifier⟩ := unregistered name among
    exact Environment.binding_of_unregistered no_function no_modifier
  have scope : Cursor.statement (r ++ behind) = r :=
    Cursor.statement_append_of_ends inside ends
  have whole : context.reply (lookahead.start s) =
      context.toEnvironment.reply (.level .sum) context.effects
        (Cursor.assignments (names ++ [last]) (r ++ behind)) := by
    rw [reply, begins]
  -- the right side finds the targets declared and changes no variable
  have right_keeps (name : String) := Eq.trans
    (context.toEnvironment.get?_reply_of_no_assign (scope.symm ▸ no_assign)
      (.level .sum) { context.effects with vars := declared } name)
    (Variables.get?_foldl_declare (names ++ [last]) context.vars name)
  rcases (context.toEnvironment.reply (.level .sum)
      { context.effects with vars := declared }
      (r ++ behind)).value_or_failure with
    ⟨w, after, rest, came⟩ | ⟨error, after, rest, came⟩
  · obtain ⟨no_operator, no_unary⟩ :=
      Environment.stopped_of_no_factorial came (scope.symm ▸ no_factorial)
    have ran := whole.trans (Environment.reply_assignments bound
      context.effects came no_operator no_unary)
    have result : evaluation.result = .ok (context.enter .bitwise w) :=
      congrArg Reply.result ran
    have held : vars = names.foldr
        (fun name vars => vars.set name (context.enter .bitwise w))
        (after.vars.set last w) :=
      congrArg (fun reply : Reply => reply.effects.vars) ran
    rw [came] at right_keeps
    refine ⟨rfl, ?_, ?_, ?_⟩
    · intro name other
      obtain ⟨not_before, not_last⟩ := not_or.mp
        (fun among => other (List.mem_append.mpr among))
      have not_last : name ≠ last := fun eq =>
        not_last (List.mem_singleton.mpr eq)
      rw [held, Variables.get?_foldr_set, if_neg not_before,
        Variables.get?_set, if_neg not_last]
      exact (right_keeps name).trans (if_neg other)
    · intro error fails
      rw [result] at fails
      cases fails
    · intro v succeeds
      obtain rfl := Except.ok.inj (result.symm.trans succeeds)
      refine ⟨w, congrArg Reply.result came, rfl, ?_, ?_⟩
      · intro name among
        rw [held, Variables.get?_foldr_set, if_pos among]
      · intro not_before
        rw [held, Variables.get?_foldr_set, if_neg not_before,
          Variables.get?_set, if_pos rfl]
  · have ran := whole.trans (Environment.reply_assignments_of_failure bound
      context.effects came)
    have result : evaluation.result = .error error :=
      congrArg Reply.result ran
    have held : vars = after.vars :=
      congrArg (fun reply : Reply => reply.effects.vars) ran
    rw [came] at right_keeps
    refine ⟨rfl, ?_, ?_, ?_⟩
    · intro name other
      rw [held]
      exact (right_keeps name).trans (if_neg other)
    · intro _ _ name among
      rw [held]
      exact (right_keeps name).trans (if_pos among)
    · intro v succeeds
      rw [result] at succeeds
      cases succeeds

theorem evaluate_assignments_divide :
    let context := withHistory (.ofCapacity 0)
    let chain (divisor : Float) : Cursor :=
      Cursor.assignments (["pi", "x"] ++ ["pi"])
        ([.number 7, .divide, .number divisor] ++ [.finish])
    let failed := context.evaluate .positioned (chain 0)
    let stored := context.evaluate .positioned (chain 2)
    (failed.result = .error .divideByZero ∧
      failed.context.vars.get? "pi" =
        some ((context.vars.get? "pi").getD 0) ∧
      failed.context.vars.get? "x" =
        some ((context.vars.get? "x").getD 0)) ∧
    stored.result = .ok 3 ∧
      (∀ name ∈ ["pi", "x"], stored.context.vars.get? name = some 3) ∧
      stored.context.vars.get? "e" = context.vars.get? "e" := by
  intro context chain failed stored
  have fails : failed.result = .error .divideByZero := by decide +kernel
  have succeeds : stored.result = .ok 3 := by decide +kernel
  have of_divisor (divisor : Float) := @evaluate_assignments context
    ["pi", "x"] "pi" (by decide +kernel)
    [.number 7, .divide, .number divisor] (by simp [Token.endsStatement])
    (by simp) (by simp) [.finish] rfl .positioned (chain divisor) rfl
  obtain ⟨-, -, kept, -⟩ := of_divisor 0
  obtain ⟨-, others, -, value⟩ := of_divisor 2
  obtain ⟨w, -, -, held, -⟩ := value 3 succeeds
  have kept := kept .divideByZero fails
  exact ⟨⟨fails, kept "pi" (by decide), kept "x" (by decide)⟩, succeeds, held,
    others "e" (by decide)⟩

end Context

end Reckoner
