/-
# Assignments

An assignment is a primary.  When its right side has been evaluated, the
value is stored and goes on as a number in its place would: through the
operators of one primary, the bitwise level, products and sums.  Two things
follow from this.

The right side takes all operators it can, so behind it nothing is left to
take but operators of one primary that stand directly behind a `!`.  Such an
operator is left over where the right side is a statement of its own, but
taken up where it is assigned.  In all other cases an assignment succeeds
exactly if its right side does.

And the bitwise level may cut what goes on.  In a chain of assignments the
last name holds the value itself, and all names before it hold the value that
is shown, which is the value cut to a word if fractions are not preserved.
-/
import Reckoner.Proofs.Ending
import Reckoner.Proofs.ExactIntegers
import Reckoner.Proofs.Statements
import Reckoner.Proofs.TreeEvaluation
import Reckoner.Proofs.Unmentioned

namespace Reckoner

namespace Environment

variable {env : Environment} {name : String}

theorem binding_of_unregistered (no_function : env.functions.get? name = none)
    (no_modifier : env.modifiers.get? name = none) :
    env.binding name = .variable := by
  simp only [binding, no_function, no_modifier]

/-- Where a primary goes on as another one, so does a level. -/
theorem reply_sum_of_primary {effects : Effects} {s : Cursor}
    {reply : Reply} (change : Float → Effects → Effects)
    (place : Float → Cursor → Cursor)
    (primary : env.reply .primary effects s =
      reply.andThen fun v after rest =>
        env.reply .primary (change v after) (place v rest)) :
    env.reply (.level .sum) effects s =
      reply.andThen fun v after rest =>
        env.reply (.level .sum) (change v after) (place v rest) := by
  have unary : env.reply .unary effects s =
      reply.andThen fun v after rest =>
        env.reply .unary (change v after) (place v rest) := by
    simp only [reply_unary, primary, Reply.andThen_assoc]
  have level {l : Level}
      (operand : env.reply (.operand l) effects s =
        reply.andThen fun v after rest =>
          env.reply (.operand l) (change v after) (place v rest)) :
      env.reply (.level l) effects s =
        reply.andThen fun v after rest =>
          env.reply (.level l) (change v after) (place v rest) := by
    simp only [reply_level, operand, Reply.andThen_assoc]
  have bitwise := @level .bitwise unary
  have product := @level .product bitwise
  exact @level .sum product

/-- **An assignment goes on as its value.** -/
theorem reply_assignment (bound : env.binding name = .variable)
    (effects : Effects) (body : Cursor) :
    env.reply (.level .sum) effects (.name name :: .assign :: body) =
      (env.reply (.level .sum)
          { effects with vars := effects.vars.declare name } body).andThen
        fun v after rest =>
          env.reply (.level .sum)
            { after with vars := after.vars.set name v }
            (.number v :: rest) := by
  refine reply_sum_of_primary
    (fun v after => { after with vars := after.vars.set name v })
    (fun v rest => .number v :: rest) ?_
  rw [reply_assign_set bound]
  simp only [reply_number]

end Environment

namespace Cursor

variable {r : List Token} {behind : Cursor}

theorem statement_append_of_ends
    (inside : ∀ token ∈ r, token.endsStatement = false)
    (ends : behind.current.endsStatement = true) :
    statement (r ++ behind) = r := by
  rw [statement_append inside, statement_of_ends ends, List.append_nil]

/-- A token of the statement that stands behind another stands behind it in
the statement. -/
theorem infix_statement {s rest : Cursor} {token : Token}
    (passes : s.Passes rest) (behind : token :: rest <:+ s)
    (more : rest.current.endsStatement = false) :
    [token, rest.current] <:+: s.statement := by
  obtain ⟨passed, inside, rfl⟩ := passes
  obtain ⟨before, eq⟩ := behind
  cases rest with
  | nil => cases more
  | cons next tail =>
      have more : next.endsStatement = false := more
      have split : passed = before ++ [token] := by
        refine List.append_cancel_right (eq.symm.trans ?_)
        simp
      rw [statement_append inside, statement_cons more, split]
      exact ⟨before, statement tail, by simp [current]⟩

end Cursor

namespace Session

section Assign

variable {session : Session} {name : String} {s rest : Cursor}
  (bound : session.context.binding name = .variable)
  (unmentioned : .name name ∉ s.statement)

include bound unmentioned

theorem reply_assign_of_value {v : Float} {after : Effects}
    (came : session.context.reply s = .value v after rest) :
    ∃ after' : Effects, session.context.reply (.name name :: .assign :: s) =
      session.context.toEnvironment.reply (.level .sum)
        { after' with vars := after'.vars.set name v } (.number v :: rest) := by
  have alike := session.context.toEnvironment.reply_alikeBut (.level .sum)
    unmentioned (.declared name session.context.effects)
  rw [show session.context.toEnvironment.reply _ _ s = _ from came] at alike
  obtain ⟨after', declared⟩ := alike.of_value
  refine ⟨after', ?_⟩
  rw [Context.reply, Environment.reply_assignment bound, declared]
  rfl

theorem reply_assign_of_failure {error : EvalError} {after : Effects}
    (came : session.context.reply s = .failure error after rest) :
    ∃ after', session.context.reply (.name name :: .assign :: s) =
      .failure error after' rest := by
  have alike := session.context.toEnvironment.reply_alikeBut (.level .sum)
    unmentioned (.declared name session.context.effects)
  rw [show session.context.toEnvironment.reply _ _ s = _ from came] at alike
  obtain ⟨after', declared⟩ := alike.of_failure
  refine ⟨after', ?_⟩
  rw [Context.reply, Environment.reply_assignment bound, declared]
  rfl

/-- The assigned name holds the value, whatever is made of it afterwards. -/
theorem get?_runStatement_assign {v : Float} {after : Effects}
    (came : session.context.reply s = .value v after rest) :
    (session.runStatement
        (.name name :: .assign :: s)).session.context.vars.get? name =
      some v := by
  obtain ⟨after', assigned⟩ := reply_assign_of_value bound unmentioned came
  have later : Token.name name ∉ Cursor.statement (.number v :: rest) := by
    rw [Cursor.statement_cons rfl, List.mem_cons]
    refine not_or.mpr ⟨nofun, ?_⟩
    exact (Environment.passes_of_reply came).unmentioned unmentioned
  rw [runStatement_vars, assigned,
    Environment.get?_reply_of_unmentioned _ later, Variables.get?_set,
    if_pos rfl]

/-- Where nothing is left over by the right side, the assignment succeeds. -/
theorem isFailed_assign_of_ends {v : Float} {after : Effects}
    (came : session.context.reply s = .value v after rest)
    (closes : rest.current.endsStatement = true) :
    (session.runStatement (.name name :: .assign :: s)).outcome.isFailed =
      false := by
  obtain ⟨after', goes_on⟩ := reply_assign_of_value bound unmentioned came
  rw [Environment.reply_number_ends closes] at goes_on
  rw [isFailed_of_value goes_on, closes]
  rfl

/-- Where an assignment succeeds although its right side leaves tokens over,
these begin with an operator of one primary behind a `!`. -/
theorem leftover_of_assign {v : Float} {after : Effects}
    (came : session.context.reply s = .value v after rest)
    (left : rest.current.endsStatement = false)
    (succeeds : (session.runStatement
      (.name name :: .assign :: s)).outcome.isFailed = false) :
    rest.current.isUnary = true ∧
      [.factorial, rest.current] <:+: s.statement := by
  obtain ⟨after', goes_on⟩ := reply_assign_of_value bound unmentioned came
  have ended : Ended (.sum :: Level.sum.tighter) s rest :=
    Environment.ended_of_reply came
  have unary : rest.current.isUnary = true := by
    by_contra plain
    -- then the token stops the assignment as it stopped its right side
    rw [Environment.reply_level_number ended.operators
      (Bool.eq_false_iff.mpr plain)] at goes_on
    rw [isFailed_of_value goes_on, left] at succeeds
    cases succeeds
  exact ⟨unary, Cursor.infix_statement (Environment.passes_of_reply came)
    (ended.unary unary) left⟩

end Assign

/-- **Assigning accepts what stands alone, and what is left over behind a
factorial.**  Where a statement yields a value, assigning it succeeds and the
variable holds that value.  Where the assignment succeeds and the statement
alone does not, that is because its expression ends in a `!` before another
operator of one primary; the variable holds the value up to there. -/
theorem runStatement_assign {session : Session} {name : String}
    (no_function : session.context.functions.get? name = none)
    (no_modifier : session.context.modifiers.get? name = none)
    {r : List Token} (inside : ∀ token ∈ r, token.endsStatement = false)
    (unmentioned : .name name ∉ r) {behind : Cursor}
    (ends : behind.current.endsStatement = true) :
    let alone := session.runStatement (r ++ behind)
    let assigned :=
      session.runStatement (.name name :: .assign :: (r ++ behind))
    (∀ v, session.value? (r ++ behind) = some v →
      assigned.outcome.isFailed = false ∧
        assigned.session.context.vars.get? name = some v) ∧
    (assigned.outcome.isFailed = false →
      alone.outcome.isFailed = false ∨
        ∃ token v, token.isUnary = true ∧ [.factorial, token] <:+: r ∧
          alone.outcome = .failed (.evaluation (.trailingToken token)) ∧
          (session.context.evaluate .positioned (r ++ behind)).result =
            .ok v ∧
          assigned.session.context.vars.get? name = some v) := by
  intro alone assigned
  have bound : session.context.binding name = .variable :=
    Environment.binding_of_unregistered no_function no_modifier
  have scope : Cursor.statement (r ++ behind) = r :=
    Cursor.statement_append_of_ends inside ends
  have unmentioned : .name name ∉ Cursor.statement (r ++ behind) := by
    rw [scope]
    exact unmentioned
  rcases (session.context.reply (r ++ behind)).value_or_failure with
    ⟨v, after, rest, came⟩ | ⟨error, after, rest, came⟩
  · have held := get?_runStatement_assign bound unmentioned came
    cases closes : rest.current.endsStatement with
    | true =>
        constructor
        · intro v' yields
          rw [value?_of_value came, if_pos closes] at yields
          obtain rfl := Option.some.inj yields
          exact ⟨isFailed_assign_of_ends bound unmentioned came closes, held⟩
        · intro _
          refine Or.inl ?_
          rw [isFailed_of_value came, closes]
          rfl
    | false =>
        constructor
        · intro v' yields
          rw [value?_of_value came, closes] at yields
          cases yields
        · intro succeeds
          obtain ⟨unary, stands⟩ :=
            leftover_of_assign bound unmentioned came closes succeeds
          rw [scope] at stands
          refine Or.inr ⟨rest.current, v, unary, stands, ?_, ?_, held⟩
          · simp only [alone, runStatement_of_value came, closes]
            rfl
          · rw [Context.evaluate_eq]
            simp only [Lookahead.start, came]
            rfl
  · obtain ⟨after', fails⟩ := reply_assign_of_failure bound unmentioned came
    constructor
    · intro v yields
      rw [value?_of_failure came] at yields
      cases yields
    · intro succeeds
      simp only [assigned, runStatement_of_failure fails] at succeeds
      cases succeeds

theorem runStatement_assign_factorial :
    let session := ofSettings {}
    let r : List Token := [.number 5, .factorial]
    let assigned :=
      session.runStatement (.name "x" :: .assign :: (r ++ [.finish]))
    session.value? (r ++ [.finish]) = some 120 ∧
      assigned.outcome.isFailed = false ∧
        assigned.session.context.vars.get? "x" = some 120 := by
  have yields : (ofSettings {}).value? [.number 5, .factorial, .finish] =
      some 120 := by decide +kernel
  have assigned := @runStatement_assign (ofSettings {}) "x" rfl rfl
    [.number 5, .factorial] (by decide) (by decide) [.finish] rfl
  exact ⟨yields, assigned.1 120 yields⟩

/-- An assignment can succeed where its right side alone is left with
tokens. -/
theorem assign_takes_leftover :
    let session := ofSettings {}
    let r : List Token := [.number 5, .factorial, .complement, .number 3]
    (session.context.functions.get? "x" = none ∧
      session.context.modifiers.get? "x" = none ∧
      (∀ token ∈ r, token.endsStatement = false) ∧ .name "x" ∉ r) ∧
    ¬((session.runStatement (.name "x" :: .assign :: r)).outcome.isFailed =
          false ↔
        (session.runStatement r).outcome.isFailed = false) := by
  decide +kernel

end Session

/-! ## Chains of assignments -/

/-- The tokens of a chain of assignments in front of `s`. -/
def Cursor.assignments (names : List String) (s : Cursor) : Cursor :=
  names.foldr (fun name s => .name name :: .assign :: s) s

/-- What the bitwise level makes of a value is left alone by it. -/
theorem Environment.enter_enter (env : Environment) (v : Float) :
    env.enter .bitwise (env.enter .bitwise v) = env.enter .bitwise v := by
  unfold enter
  cases env.policy with
  | truncate => simp only [Word.truncate_value]
  | preserve => rfl

theorem Variables.get?_foldr_set (names : List String) (vars : Variables)
    (name : String) (v : Float) :
    (names.foldr (fun name vars => vars.set name v) vars).get? name =
      if name ∈ names then some v else vars.get? name := by
  induction names with
  | nil => simp
  | cons first names ih =>
      rw [List.foldr_cons, get?_set, ih]
      by_cases here : name = first
      · simp [here]
      · simp [here]

namespace Environment

variable {env : Environment}

/-- The last name of a chain takes the value, the names before it what the
bitwise level makes of it. -/
theorem reply_assignments {names : List String} {last : String}
    (bound : ∀ name ∈ names ++ [last], env.binding name = .variable)
    (effects : Effects) {after : Effects} {s behind : Cursor} {w : Float}
    (came : env.reply (.level .sum)
      { effects with
        vars := (names ++ [last]).foldl Variables.declare effects.vars } s =
      .value w after behind)
    (no_operator : ∀ l : Level, l.operator? behind.current = none)
    (no_unary : behind.current.isUnary = false) :
    env.reply (.level .sum) effects (Cursor.assignments (names ++ [last]) s) =
      .value (env.enter .bitwise w)
        { after with
          vars := names.foldr
            (fun name vars => vars.set name (env.enter .bitwise w))
            (after.vars.set last w) } behind := by
  induction names generalizing effects with
  | nil =>
      have here := bound last List.mem_cons_self
      have came : env.reply (.level .sum)
          { effects with vars := effects.vars.declare last } s =
        .value w after behind := came
      show env.reply _ effects (.name last :: .assign :: s) = _
      rw [reply_assignment here, came]
      exact reply_level_number (fun l _ => no_operator l) no_unary w _
  | cons name names ih =>
      obtain ⟨here, later⟩ := List.forall_mem_cons.mp bound
      show env.reply _ effects
        (.name name :: .assign :: Cursor.assignments (names ++ [last]) s) = _
      rw [reply_assignment here, ih later _ came]
      refine (reply_level_number (fun l _ => no_operator l) no_unary _ _).trans ?_
      rw [enter_enter]
      rfl

theorem reply_assignments_of_failure {names : List String}
    (bound : ∀ name ∈ names, env.binding name = .variable)
    (effects : Effects) {after : Effects} {s rest : Cursor} {error : EvalError}
    (came : env.reply (.level .sum)
      { effects with vars := names.foldl Variables.declare effects.vars } s =
      .failure error after rest) :
    env.reply (.level .sum) effects (Cursor.assignments names s) =
      .failure error after rest := by
  induction names generalizing effects with
  | nil => exact came
  | cons name names ih =>
      obtain ⟨here, later⟩ := List.forall_mem_cons.mp bound
      show env.reply _ effects
        (.name name :: .assign :: Cursor.assignments names s) = _
      rw [reply_assignment here, ih later _ came]
      rfl

end Environment

namespace Session

/-- A chain that shows a value has stored the value of its right side in the
last name and what it shows in the names before, from the first one on. -/
theorem assignments_of_shown {session : Session} {names : List String}
    {last : String}
    (bound : ∀ name ∈ names ++ [last],
      session.context.binding name = .variable)
    {s : Cursor} {read : Parsed (Tree (.level .sum)) s}
    (parsed : session.context.names.parse (.whole (.level .sum)) s = .ok read)
    (whole : read.rest.current.endsStatement = true) {v : Float}
    (shown : (session.runStatement
      (Cursor.assignments (names ++ [last]) s)).outcome = .value v) :
    let declared := (names ++ [last]).foldl Variables.declare
      session.context.vars
    ∃ w, ∃ earlier : Variables,
      ({ session.context with vars := declared }.evaluateTree read.node).1 =
        .ok w ∧
      v = session.context.enter .bitwise w ∧
      (session.runStatement
          (Cursor.assignments (names ++ [last]) s)).session.context.vars =
        names.foldr (fun name vars => vars.set name v)
          (earlier.set last w) := by
  intro declared
  have agrees := session.context.toEnvironment.reply_agrees (.level .sum)
    { session.context.effects with vars := declared } s
  rw [show session.context.names.parse (Goal.level .sum).part s = _ from
    parsed] at agrees
  generalize came : session.context.toEnvironment.reply _ _ s = reply at agrees
  cases agrees with
  | failure _ _ =>
      have fails := Environment.reply_assignments_of_failure bound
        session.context.effects came
      rw [runStatement_of_failure fails] at shown
      cases shown
  | @value _ w after out =>
      have goes_on := Environment.reply_assignments bound
        session.context.effects came
        (Token.operator?_of_endsStatement whole)
        (Token.isUnary_of_endsStatement whole)
      have cut : v = session.context.enter .bitwise w := by
        rw [runStatement_of_value goes_on, if_pos whole] at shown
        cases silent : after.silent with
        | true =>
            simp only [silent] at shown
            cases shown
        | false =>
            simp only [silent] at shown
            exact (Outcome.value.inj shown).symm
      refine ⟨w, after.vars, ?_, cut, ?_⟩
      · exact congrArg Prod.fst (@Context.evaluateTree_of_outcome
          { session.context with vars := declared } read.node _ _ out)
      · rw [runStatement_vars, Context.reply, goes_on, cut]
        rfl

/-- **A chain of assignments.**  Where a chain shows a value and its right
side is an expression that reaches to the end of the statement, that
expression has a value, which the last name holds.  What is shown is that
value, cut to a word if fractions are not preserved, and all names before the
last hold what is shown.  So they all hold it exactly if nothing was cut. -/
theorem runStatement_assignments {session : Session} {names : List String}
    {last : String}
    (unregistered : ∀ name ∈ names ++ [last],
      session.context.functions.get? name = none ∧
        session.context.modifiers.get? name = none)
    (distinct : (names ++ [last]).Nodup) {s : Cursor}
    {read : Parsed (Tree (.level .sum)) s}
    (parsed : session.context.names.parse (.whole (.level .sum)) s = .ok read)
    (whole : read.rest.current.endsStatement = true) {v : Float}
    (shown : (session.runStatement
      (Cursor.assignments (names ++ [last]) s)).outcome = .value v) :
    let declared := (names ++ [last]).foldl Variables.declare
      session.context.vars
    let vars := (session.runStatement
      (Cursor.assignments (names ++ [last]) s)).session.context.vars
    ∃ w,
      ({ session.context with vars := declared }.evaluateTree read.node).1 =
        .ok w ∧
      v = (match session.context.policy with
        | .truncate => (Word.truncate w).value
        | .preserve => w) ∧
      vars.get? last = some w ∧
      (∀ name ∈ names, vars.get? name = some v) ∧
      ((∀ name ∈ names ++ [last], vars.get? name = some v) ↔ w = v) := by
  intro declared vars
  have bound : ∀ name ∈ names ++ [last],
      session.context.binding name = .variable := fun name among =>
    Environment.binding_of_unregistered (unregistered name among).1
      (unregistered name among).2
  obtain ⟨w, earlier, out, cut, held⟩ :=
    assignments_of_shown bound parsed whole shown
  have held : vars = _ := held
  have last_behind : last ∉ names := by
    intro before
    exact (List.nodup_append.mp distinct).2.2 last before last
      (List.mem_singleton.mpr rfl) rfl
  have last_holds : vars.get? last = some w := by
    rw [held, Variables.get?_foldr_set, if_neg last_behind,
      Variables.get?_set, if_pos rfl]
  have others_hold : ∀ name ∈ names, vars.get? name = some v := by
    intro name among
    rw [held, Variables.get?_foldr_set, if_pos among]
  refine ⟨w, out, cut, last_holds, others_hold, ?_, ?_⟩
  · intro all_hold
    have holds := all_hold last (List.mem_append_right _ List.mem_cons_self)
    exact Option.some.inj (last_holds.symm.trans holds)
  · rintro rfl name among
    rcases List.mem_append.mp among with before | here
    · exact others_hold name before
    · rw [List.mem_singleton.mp here]
      exact last_holds

theorem runStatement_assignments_half :
    let session := ofSettings {}
    let seven : Tree .unary := .unary (.number 7) .stop
    let two : Tree .unary := .unary (.number 2) .stop
    let half : Tree (.level .product) :=
      .level (.level seven .stop) (.step .divide (.level two .stop) .stop)
    let declared :=
      (["x"] ++ ["y"]).foldl Variables.declare session.context.vars
    let ran := session.runStatement (Cursor.assignments (["x"] ++ ["y"])
      [.number 7, .divide, .number 2, .finish])
    ran.outcome = .value 3 ∧ ∃ w,
      ({ session.context with vars := declared }.evaluateTree
        (.level half .stop)).1 = .ok w ∧
      3 = (match session.context.policy with
        | .truncate => (Word.truncate w).value
        | .preserve => w) ∧
      ran.session.context.vars.get? "y" = some w ∧
      (∀ name ∈ ["x"], ran.session.context.vars.get? name = some 3) ∧
      ((∀ name ∈ ["x"] ++ ["y"],
        ran.session.context.vars.get? name = some 3) ↔ w = 3) := by
  intro session seven two half declared ran
  have shown : ran.outcome = .value 3 := by decide +kernel
  have parsed : session.context.names.parse (.whole (.level .sum))
      [.number 7, .divide, .number 2, .finish] =
        .ok ⟨.level half .stop, [.finish], by decide⟩ := by
    simp [Names.parse, Phrase.operand, Level.operator?,
      UnaryOperator.ofToken?]
    rfl
  exact ⟨shown, runStatement_assignments (by decide +kernel) (by decide)
    parsed rfl shown⟩

/-- What is shown need not be what is held: a fraction may be cut, and an
operator left over by the right side still applies. -/
theorem chain_shows_another :
    let cutting := ofSettings { policy := .truncate }
    let keeping := ofSettings { policy := .preserve }
    let fraction := cutting.runStatement
      (Cursor.assignments ["x"] [.number 7, .divide, .number 2])
    let leftover := keeping.runStatement (Cursor.assignments ["x", "y"]
      [.number 5, .factorial, .complement, .number 3])
    (cutting.context.functions.get? "x" = none ∧
      cutting.context.modifiers.get? "x" = none ∧
      fraction.outcome = .value 3 ∧
      fraction.session.context.vars.get? "x" ≠ some 3) ∧
    ((∀ name ∈ ["x", "y"], keeping.context.functions.get? name = none ∧
        keeping.context.modifiers.get? name = none) ∧
      leftover.outcome = .value (-4) ∧
      leftover.session.context.vars.get? "y" ≠ some (-4)) := by
  decide +kernel

end Session

end Reckoner
