/-
# The footprint of an evaluation

What an evaluation leaves behind can be read off the tokens that it has
passed.  The environment is only read.  A variable is changed only by an
assignment to it among these tokens, and none is ever forgotten.  The
requests are those of the modifiers among these tokens, each applied once and
in order, and the value is silent if there was one.

All of this holds of evaluations that fail, too.  There is one error that
leaves a mark of its own: a name that is not found makes the evaluation
silent.  Such a name had no value before and has none afterwards.

Each statement is a relation that the steps of `course_induction` satisfy.
-/
import Reckoner.Proofs.Progress
import Reckoner.Proofs.Statements

namespace Reckoner

namespace Environment

variable (env : Environment)

/-! ## Variables -/

/-- What is registered as a function or a modifier keeps its value as a
variable. -/
theorem get?_reply_of_registered {name : String}
    (registered : env.binding name ≠ .variable) (goal : Goal)
    (effects : Effects) (s : Cursor) :
    (env.reply goal effects s).effects.vars.get? name =
      effects.vars.get? name := by
  have other {target : String} (bound : env.binding target = .variable) :
      name ≠ target := by
    rintro rfl
    exact registered bound
  have declared {target : String} (bound : env.binding target = .variable)
      (vars : Variables) : (vars.declare target).get? name = vars.get? name := by
    rw [Variables.get?_declare, if_neg fun fresh => other bound fresh.1]
  refine env.progress_induction
    (fun before _ after _ => after.vars.get? name = before.vars.get? name)
    ?trans ?refl ?skip ?function ?modifier ?lookup ?unknown ?declare ?assign
    goal effects s
  case trans =>
    intro e s e' s' e'' s'' first second
    exact second.trans first
  case refl | skip | function | modifier | lookup | unknown =>
    intros
    rfl
  case declare =>
    intro target effects body bound
    exact declared bound effects.vars
  case assign =>
    intro target effects body after rest v bound kept
    rw [Variables.get?_set, if_neg (other bound), kept]
    exact declared bound effects.vars

/-- No variable is forgotten. -/
theorem contains_reply {effects : Effects} {name : String}
    (known : effects.vars.contains name = true) (goal : Goal) (s : Cursor) :
    (env.reply goal effects s).effects.vars.contains name = true := by
  rw [Variables.contains_iff_mem_names] at known ⊢
  exact (env.names_prefix_reply goal effects s).subset known

/-- A name that was not found has no value when the evaluation is over. -/
theorem get?_reply_of_undefinedName {goal : Goal} {effects : Effects}
    {s : Cursor} {name : String}
    (fails : (env.reply goal effects s).error? =
      some (.undefinedName name)) :
    (env.reply goal effects s).effects.vars.get? name = none := by
  refine env.course_induction
    (fun _ _ error? after _ => error? = some (.undefinedName name) →
      after.vars.get? name = none)
    ?trans ?refl ?stop ?skip ?function ?modifier ?lookup ?unknown ?declare
    ?assign goal effects s fails
  case trans =>
    intro e s e' s' error? e'' s'' _ second
    exact second
  case refl | skip | function | modifier | lookup | declare | assign =>
    intros
    contradiction
  case stop =>
    intro error effects s other fails
    exact absurd (Option.some.inj fails) (other name)
  case unknown =>
    intro missing effects tail _ _ unknown fails
    cases fails
    exact unknown

end Environment

namespace Context

/-- **What an evaluation may touch.**  Functions, modifiers, history and the
fraction policy stay, and every variable is kept.  A name whose value is
another afterwards stands in front of a `=` among the tokens that were
passed, and is neither a function nor a modifier.  A name that was not found
has no value, neither before nor afterwards. -/
theorem evaluate_footprint (context : Context) (lookahead : Lookahead)
    (s : Cursor) :
    let evaluation := context.evaluate lookahead s
    let begun := lookahead.start s
    let passed := begun.passed evaluation.rest
    let vars := evaluation.context.vars
    begun = passed ++ evaluation.rest ∧
    evaluation.context.toEnvironment = context.toEnvironment ∧
    (∀ name, context.vars.contains name = true →
      vars.contains name = true) ∧
    (∀ name, vars.get? name ≠ context.vars.get? name →
      [.name name, .assign] <:+: passed ∧
        context.functions.get? name = none ∧
        context.modifiers.get? name = none) ∧
    ∀ name, evaluation.result = .error (.undefinedName name) →
      context.vars.get? name = none ∧ vars.get? name = none := by
  intro evaluation begun passed vars
  have kept (name : String) (known : context.vars.contains name = true) :
      vars.contains name = true :=
    context.toEnvironment.contains_reply known (.level .sum) begun
  refine ⟨?_, rfl, kept, ?_, ?_⟩
  · have passes := context.evaluate_passes lookahead s
    exact (Cursor.passed_append_self passes.suffix).symm
  · intro name changed
    have assigned : [.name name, .assign] <:+: passed :=
      context.toEnvironment.assigned_of_get?_ne changed
    have bound : context.binding name = .variable := by
      by_contra registered
      exact changed (context.toEnvironment.get?_reply_of_registered registered
        (.level .sum) context.effects begun)
    exact ⟨assigned, Environment.unregistered_of_binding bound⟩
  · intro name fails
    have after : vars.get? name = none :=
      context.toEnvironment.get?_reply_of_undefinedName
        (Reply.error?_eq_some_iff.mpr fails)
    refine ⟨?_, after⟩
    by_contra known
    have known := kept name (Option.isSome_iff_ne_none.mpr known)
    rw [Variables.contains, after] at known
    cases known

theorem evaluate_footprint_failing :
    let context := withHistory (.ofCapacity 0)
    let s : Cursor := [.separator, .name "x", .assign, .opening, .name "y",
      .assign, .number 5, .closing, .plus, .name "z", .finish]
    let evaluation := context.evaluate .advance s
    let passed := (Lookahead.advance.start s).passed evaluation.rest
    (context.vars.contains "pi" = true ∧
      evaluation.context.vars.contains "pi" = true) ∧
    (evaluation.context.vars.get? "y" ≠ context.vars.get? "y" ∧
      [.name "y", .assign] <:+: passed) ∧
    evaluation.result = .error (.undefinedName "z") ∧
      evaluation.context.vars.get? "z" = none := by
  intro context s evaluation passed
  obtain ⟨-, -, kept, assigned, missing⟩ :=
    evaluate_footprint context .advance s
  have known : context.vars.contains "pi" = true := by decide +kernel
  have changed :
      evaluation.context.vars.get? "y" ≠ context.vars.get? "y" := by
    decide +kernel
  have fails : evaluation.result = .error (.undefinedName "z") := by
    decide +kernel
  exact ⟨⟨known, kept "pi" known⟩, ⟨changed, (assigned "y" changed).1⟩, fails,
    (missing "z" fails).2⟩

end Context

namespace Environment

variable (env : Environment)

/-! ## Modifiers -/

/-- The modifier that a token runs: the one of its name, unless a function
hides it. -/
def modifier? (env : Environment) : Token → Option Modifier
  | .name name =>
    if env.functions.contains name then none else env.modifiers.get? name
  | _ => none

/-- The modifiers that tokens run, one for each token that runs one. -/
def modifiersAmong (env : Environment) (tokens : List Token) :
    List Modifier :=
  tokens.filterMap env.modifier?

variable {env}

theorem modifier?_of_not_name {token : Token}
    (no_name : ∀ name, token ≠ .name name) : env.modifier? token = none := by
  cases token with
  | name name => exact absurd rfl (no_name name)
  | _ => rfl

theorem modifier?_of_function {name : String} {f : UnaryFunction}
    (bound : env.binding name = .function f) :
    env.modifier? (.name name) = none := by
  have known := functions_of_binding bound
  simp [modifier?, Registry.contains, known]

theorem modifier?_of_modifier {name : String} {m : Modifier}
    (bound : env.binding name = .modifier m) :
    env.modifier? (.name name) = some m := by
  obtain ⟨no_function, known⟩ := modifiers_of_binding bound
  simp [modifier?, Registry.contains, no_function, known]

theorem modifier?_of_variable {name : String}
    (bound : env.binding name = .variable) :
    env.modifier? (.name name) = none := by
  obtain ⟨no_function, no_modifier⟩ := unregistered_of_binding bound
  simp [modifier?, Registry.contains, no_function, no_modifier]

variable (env) in
/-- The requests and the silence are those that the modifiers among the
passed tokens and the error account for. -/
structure Accounts (before : Effects) (s : Cursor) (error? : Option EvalError)
    (after : Effects) (rest : Cursor) : Prop where
  suffix : rest <:+ s
  requests : after.requests = (env.modifiersAmong (s.passed rest)).foldl
    (fun pending m => m pending) before.requests
  silent : after.silent = true ↔ before.silent = true ∨
    env.modifiersAmong (s.passed rest) ≠ [] ∨
    ∃ name, error? = some (.undefinedName name)

namespace Accounts

variable {before after : Effects} {s rest : Cursor}

/-- Nothing is passed, and no name is missing. -/
theorem stays {error? : Option EvalError}
    (found : ∀ name, error? ≠ some (.undefinedName name))
    (effects : Effects) (s : Cursor) :
    env.Accounts effects s error? effects s where
  suffix := List.suffix_rfl
  requests := by rw [Cursor.passed_self]; rfl
  silent := by
    rw [Cursor.passed_self]
    simp [modifiersAmong, found]

theorem trans {mid : Effects} {t : Cursor} {error? : Option EvalError}
    (first : env.Accounts before s none mid t)
    (second : env.Accounts mid t error? after rest) :
    env.Accounts before s error? after rest := by
  have split : env.modifiersAmong (s.passed rest) =
      env.modifiersAmong (s.passed t) ++
        env.modifiersAmong (t.passed rest) := by
    rw [Cursor.passed_trans first.suffix second.suffix]
    exact List.filterMap_append
  refine ⟨second.suffix.trans first.suffix, ?_, ?_⟩
  · rw [split, List.foldl_append, ← first.requests]
    exact second.requests
  · have first_silent := first.silent
    simp only [reduceCtorEq, exists_false, or_false] at first_silent
    rw [second.silent, first_silent, split]
    simp only [ne_eq, List.append_eq_nil_iff, not_and_or, or_assoc]

/-- The variables take no part in it. -/
theorem with_vars {error? : Option EvalError}
    (accounts : env.Accounts before s error? after rest)
    (vars vars' : Variables) :
    env.Accounts { before with vars } s error? { after with vars := vars' }
      rest :=
  ⟨accounts.suffix, accounts.requests, accounts.silent⟩

/-- One token that runs no modifier is passed. -/
theorem plain {token : Token} (runs_none : env.modifier? token = none)
    (effects : Effects) (tail : Cursor) :
    env.Accounts effects (token :: tail) none effects tail := by
  have none_among : env.modifiersAmong (Cursor.passed (token :: tail) tail) =
      [] := by
    rw [Cursor.passed_cons List.suffix_rfl, Cursor.passed_self]
    exact List.filterMap_cons_none runs_none
  refine ⟨List.suffix_cons _ _, ?_, ?_⟩
  · rw [none_among]
    rfl
  · rw [none_among]
    simp

/-- The target of an assignment and the `=` are passed. -/
theorem target {name : String} (bound : env.binding name = .variable)
    (effects : Effects) (body : Cursor) :
    env.Accounts effects (.name name :: .assign :: body) none effects body :=
  (plain (modifier?_of_variable bound) effects _).trans (plain rfl effects body)

/-- A modifier is passed, and it is run. -/
theorem modifier {token : Token} {m : Modifier}
    (runs : env.modifier? token = some m) (effects : Effects)
    (tail : Cursor) :
    env.Accounts effects (token :: tail) none
      { effects with requests := m effects.requests, silent := true } tail := by
  have among : env.modifiersAmong (Cursor.passed (token :: tail) tail) =
      [m] := by
    rw [Cursor.passed_cons List.suffix_rfl, Cursor.passed_self]
    exact List.filterMap_cons_some runs
  refine ⟨List.suffix_cons _ _, ?_, ?_⟩
  · rw [among]
    rfl
  · rw [among]
    simp

/-- A name that is not found is passed; it runs no modifier, and makes the
evaluation silent. -/
theorem unknown {name : String} (bound : env.binding name = .variable)
    (effects : Effects) (tail : Cursor) :
    env.Accounts effects (.name name :: tail) (some (.undefinedName name))
      { effects with silent := true } tail := by
  have read : env.Accounts effects (.name name :: tail) none effects tail :=
    .plain (modifier?_of_variable bound) effects tail
  exact ⟨read.suffix, read.requests, by simp⟩

end Accounts

/-- **An evaluation runs the modifiers that it passes.** -/
theorem reply_accounts (env : Environment) (goal : Goal) (effects : Effects)
    (s : Cursor) :
    env.Accounts effects s (env.reply goal effects s).error?
      (env.reply goal effects s).effects (env.reply goal effects s).rest := by
  refine env.course_induction env.Accounts Accounts.trans
    (Accounts.stays fun _ => nofun) ?stop ?skip ?function ?modifier ?lookup
    ?unknown ?declare ?assign goal effects s
  case stop =>
    intro error effects s other
    refine Accounts.stays ?_ effects s
    intro name missing
    exact other name (Option.some.inj missing)
  case skip =>
    intro token effects tail _ no_name
    exact .plain (modifier?_of_not_name no_name) effects tail
  case function =>
    intro name f effects tail bound
    exact .plain (modifier?_of_function bound) effects tail
  case modifier =>
    intro name m effects tail bound
    exact .modifier (modifier?_of_modifier bound) effects tail
  case lookup =>
    intro name effects tail bound _
    exact .plain (modifier?_of_variable bound) effects tail
  case unknown =>
    intro name effects tail bound _ _
    exact .unknown bound effects tail
  case declare =>
    intro name effects body bound
    exact (Accounts.target bound effects body).with_vars effects.vars _
  case assign =>
    intro name effects body after rest v bound body_accounts
    have declared := (Accounts.target bound effects body).with_vars
      effects.vars (effects.vars.declare name)
    exact (declared.trans body_accounts).with_vars effects.vars _

end Environment

/-- **Modifiers run once for each occurrence and decide silence.**  After an
evaluation the requests are those that were pending, changed by the modifiers
among the passed tokens in order.  It is silent exactly if there was such a
modifier or a name was not found.  So a statement that succeeds shows no
value exactly if a modifier ran in it. -/
theorem Session.modifiers_run :
    (∀ (context : Context) (lookahead : Lookahead) (s : Cursor),
      let evaluation := context.evaluate lookahead s
      let ran := context.modifiersAmong
        ((lookahead.start s).passed evaluation.rest)
      evaluation.context.requests =
          ran.foldl (fun pending m => m pending) context.requests ∧
        (evaluation.silent = true ↔ ran ≠ [] ∨
          ∃ name, evaluation.result = .error (.undefinedName name))) ∧
    ∀ (session : Session) (s : Cursor),
      let statement := session.runStatement s
      statement.outcome.isFailed = false →
      (statement.outcome = .silent ↔
        session.context.modifiersAmong (s.passed statement.rest) ≠ []) := by
  constructor
  · intro context lookahead s evaluation ran
    have accounts := context.toEnvironment.reply_accounts (.level .sum)
      context.effects (lookahead.start s)
    refine ⟨accounts.requests, ?_⟩
    have silent := accounts.silent
    simp only [Reply.error?_eq_some_iff, Context.effects, Bool.false_eq_true,
      false_or] at silent
    exact silent
  · intro session s statement succeeds
    rcases (session.context.reply s).value_or_failure with
      ⟨v, after, rest, came⟩ | ⟨error, after, rest, came⟩
    · have closes : rest.current.endsStatement = true := by
        simpa only [statement, isFailed_of_value came,
          Bool.not_eq_false'] using succeeds
      have accounts := session.context.toEnvironment.reply_accounts
        (.level .sum) session.context.effects s
      rw [show session.context.toEnvironment.reply _ _ s = _ from came]
        at accounts
      have silent : after.silent = true ↔
          session.context.modifiersAmong (s.passed rest) ≠ [] := by
        simpa [Context.effects, Reply.error?, Reply.value] using
          accounts.silent
      simp only [statement, runStatement_of_value came, if_pos closes]
      rw [← silent]
      cases after.silent with
      | true => simp
      | false => simp
    · simp only [statement, runStatement_of_failure came] at succeeds
      cases succeeds

theorem Session.modifiers_run_nested :
    let session := ofSettings {}
    let s : Cursor := [.name "x", .assign, .opening, .name "quit", .closing,
      .plus, .name "abs", .name "clear", .finish]
    let statement := session.runStatement s
    statement.outcome.isFailed = false ∧ statement.outcome = .silent ∧
      session.context.modifiersAmong (s.passed statement.rest) ≠ [] ∧
      (session.context.evaluate .positioned s).context.requests =
        ⟨true, true⟩ := by
  intro session s statement
  have succeeds : statement.outcome.isFailed = false := by decide +kernel
  have silent : statement.outcome = .silent := by decide +kernel
  have ran := (modifiers_run.2 session s succeeds).mp silent
  refine ⟨succeeds, silent, ran, ?_⟩
  rw [(modifiers_run.1 session.context .positioned s).1]
  decide +kernel

end Reckoner
