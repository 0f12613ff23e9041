/-
# Evaluating in place is parsing and then evaluating

The tree of an expression is evaluated from the left: a level folds its
operators over the running value, the bitwise level cuts its first operand to
a word where the policy says so, assignments and modifiers happen where they
stand, and the first error ends everything.

`reply_agrees` says that an evaluation in place is the evaluation of the tree
that the parser reads from the same tokens.  If the parser reads a tree, the
two agree in result and effects, and a value leaves the tokens that the parser
leaves.  If the parser gives up, so does the evaluation: with the very same
complaint at the same token, unless an error of the arithmetic or of a look-up
came first.  It is one induction over all goals.
-/
import Reckoner.Proofs.Grammar
import Reckoner.Proofs.Slots

namespace Reckoner

/-- A computation that changes effects and can end in an error. -/
abbrev Action := ExceptT EvalError (StateM Effects)

namespace Action

/-- What a computation comes to when it starts with `effects`. -/
def outcome (action : Action Float) (effects : Effects) :
    Except EvalError Float × Effects :=
  StateT.run (ExceptT.run action) effects

theorem outcome_bind_of_ok {action : Action Float} {effects after : Effects}
    {v : Float} (came : action.outcome effects = (.ok v, after))
    (next : Float → Action Float) :
    (action >>= next).outcome effects = (next v).outcome after := by
  simp only [outcome, ExceptT.run_bind, StateT.run_bind] at came ⊢
  rw [came]
  rfl

theorem outcome_bind_of_error {action : Action Float}
    {effects after : Effects} {error : EvalError}
    (came : action.outcome effects = (.error error, after))
    (next : Float → Action Float) :
    (action >>= next).outcome effects = (.error error, after) := by
  simp only [outcome, ExceptT.run_bind, StateT.run_bind] at came ⊢
  rw [came]
  rfl

theorem outcome_get_bind (next : Effects → Action Float)
    (effects : Effects) :
    (get >>= next : Action Float).outcome effects =
      (next effects).outcome effects := rfl

end Action

/-! ## Trees, evaluated from the left -/

mutual

/-- Evaluates a phrase.  The first operand of a bitwise level is cut to a
word, even if no operator follows it, unless fractions are preserved. -/
def Tree.eval (env : Environment) {p : Phrase} : Tree p → Action Float
  | .level (l := l) first rest => do
    let v ← first.eval env
    if l = .bitwise ∧ env.policy = .truncate then
      rest.eval env (Word.truncate v).value
    else
      rest.eval env v
  | .unary first rest => do
    let v ← first.eval env
    rest.eval env (.ofPrimary v)
  | .number v => pure v
  | .stray => pure 0
  | .nothing => pure 0
  | .call name argument => do
    let v ← argument.eval env
    match env.functions.get? name with
    | some f => pure (f v)
    | none => throw (.undefinedName name)
  | .modifier name =>
    match env.modifiers.get? name with
    | some m => do
      modify fun effects =>
        { effects with requests := m effects.requests, silent := true }
      pure 0
    | none => throw (.undefinedName name)
  | .assign name body => do
    modify fun effects => { effects with vars := effects.vars.declare name }
    let v ← body.eval env
    modify fun effects => { effects with vars := effects.vars.set name v }
    pure v
  | .lookup name => do
    match (← get).vars.get? name with
    | some v => pure v
    | none => do
      modify fun effects => { effects with silent := true }
      throw (.undefinedName name)
  | .parens body => body.eval env
  | .reference offset =>
    match env.history.recent? offset with
    | some v => pure v
    | none => throw (.historyOutOfRange offset env.history.length)

/-- Goes on from the value on the left of a level's operators. -/
def Tail.eval (env : Environment) {l : Level} : Tail l → Float → Action Float
  | .stop, left => pure left
  | .step op operand rest, left => do
    let right ← operand.eval env
    match op.apply left right with
    | .ok v => rest.eval env v
    | .error error => throw error

/-- Goes on from the operand in front of the operators of a primary. -/
def UnaryTail.eval (env : Environment) : UnaryTail → Operand → Action Float
  | .stop, operand => pure operand.value
  | .factorial, operand => pure (factorial operand.value operand.start)
  | .step op primary rest, operand => do
    let v ← primary.eval env
    rest.eval env (operand.apply v op)

end

/-- What `enter` makes of the value in front of a level's operators is what
the tree goes on with there. -/
theorem Tree.eval_level (env : Environment) {l : Level}
    (first : Tree (.operand l)) (rest : Tail l) :
    (Tree.level first rest).eval env =
      first.eval env >>= fun v => rest.eval env (env.enter l v) := by
  rw [Tree.eval]
  congr 1
  funext v
  cases l with
  | bitwise =>
      cases policy : env.policy with
      | truncate => simp only [Environment.enter, policy, and_self, if_true]
      | preserve => simp [Environment.enter, policy]
  | _ => simp [Environment.enter]

/-! ## Goals and their parts -/

namespace Goal

/-- The part of the grammar that a goal reads. -/
abbrev part : Goal → Part
  | level l => .whole (.level l)
  | more l _ => .tail l
  | unary => .whole .unary
  | moreUnary _ => .unaryTail
  | primary => .whole .primary

/-- Evaluates what a goal reads, from the value that the goal begins with. -/
def eval (env : Environment) : (goal : Goal) → goal.part.Node → Action Float
  | level _, tree => tree.eval env
  | more _ left, tail => tail.eval env left
  | unary, tree => tree.eval env
  | moreUnary operand, tail => tail.eval env operand
  | primary, tree => tree.eval env

end Goal

/-! ## Agreement -/

/-- How an evaluation in place can stand to what was parsed from the same
tokens; `outcome` is what evaluating a parsed node comes to. -/
inductive Agrees {α : Type} {s : Cursor}
    (outcome : α → Except EvalError Float × Effects) :
    Except SyntaxError (Parsed α s) → Reply → Prop
  /-- A value, in front of the tokens that the parser has left. -/
  | value {read : Parsed α s} {v : Float} {after : Effects} :
      outcome read.node = (.ok v, after) →
      Agrees outcome (.ok read) (.value v after read.rest)
  | failure {read : Parsed α s} {error : EvalError} {after : Effects}
      {rest : Cursor} :
      outcome read.node = (.error error, after) → error.isRuntime = true →
      Agrees outcome (.ok read) (.failure error after rest)
  /-- The parser's own complaint. -/
  | unreadable {fault : SyntaxError} {after : Effects} :
      Agrees outcome (.error fault) (.failure fault.cause after fault.rest)
  /-- An error before the place of which the parser complains. -/
  | earlier {fault : SyntaxError} {error : EvalError} {after : Effects}
      {rest : Cursor} :
      error.isRuntime = true →
      Agrees outcome (.error fault) (.failure error after rest)

namespace Agrees

variable {α β γ : Type} {s t : Cursor}

/-- Agreement of a first part carries over to a whole that is parsed by going
on behind it and evaluated by going on with its value. -/
theorem bind {first : Except SyntaxError (Parsed α s)} {reply : Reply}
    {second : Parsed α s → Except SyntaxError (Parsed γ t)}
    {next : Float → Effects → Cursor → Reply}
    {outcome : α → Except EvalError Float × Effects}
    {whole : γ → Except EvalError Float × Effects}
    (agrees : Agrees outcome first reply)
    (goes_on : ∀ read v after, reply = .value v after read.rest →
      outcome read.node = (.ok v, after) →
      Agrees whole (second read) (next v after read.rest))
    (fails : ∀ read out error after, second read = .ok out →
      outcome read.node = (.error error, after) →
      whole out.node = (.error error, after)) :
    Agrees whole (first >>= second) (reply.andThen next) := by
  cases agrees with
  | value came => exact goes_on _ _ _ rfl came
  | @failure read error after rest came runtime =>
      show Agrees whole (second read) (.failure error after rest)
      cases behind : second read with
      | ok out => exact .failure (fails read out error after behind came) runtime
      | error fault => exact .earlier runtime
  | unreadable => exact .unreadable
  | earlier runtime => exact .earlier runtime

/-- Agreement does not mind into what the parsed node is put. -/
theorem map {first : Except SyntaxError (Parsed α s)} {reply : Reply}
    {join : Parsed α s → Parsed γ t}
    {outcome : α → Except EvalError Float × Effects}
    {whole : γ → Except EvalError Float × Effects}
    (agrees : Agrees outcome first reply)
    (join_rest : ∀ a, (join a).rest = a.rest)
    (whole_join : ∀ a, whole (join a).node = outcome a.node) :
    Agrees whole (first >>= fun a => pure (join a)) reply := by
  cases agrees with
  | @value read v after came =>
      rw [← join_rest read]
      exact .value ((whole_join read).trans came)
  | failure came runtime => exact .failure ((whole_join _).trans came) runtime
  | unreadable => exact .unreadable
  | earlier runtime => exact .earlier runtime

/-- Two parts in a row: the second is parsed behind the first and evaluated
from its value. -/
theorem sequence {first : Except SyntaxError (Parsed α s)} {reply : Reply}
    {second : (a : Parsed α s) → Except SyntaxError (Parsed β a.rest)}
    {join : (a : Parsed α s) → Parsed β a.rest → Parsed γ t}
    {next : Float → Effects → Cursor → Reply} {effects : Effects}
    {evalFirst : α → Action Float} {evalWhole : γ → Action Float}
    (evalSecond : Float → β → Action Float)
    (join_rest : ∀ a b, (join a b).rest = b.rest)
    (eval_join : ∀ a b, evalWhole (join a b).node =
      evalFirst a.node >>= fun v => evalSecond v b.node)
    (agrees : Agrees (fun node => (evalFirst node).outcome effects) first
      reply)
    (goes_on : ∀ a v after, reply = .value v after a.rest →
      Agrees (fun node => (evalSecond v node).outcome after) (second a)
        (next v after a.rest)) :
    Agrees (fun node => (evalWhole node).outcome effects)
      (first >>= fun a => second a >>= fun b => pure (join a b))
      (reply.andThen next) := by
  refine agrees.bind ?_ ?_
  · intro a v after came out
    refine (goes_on a v after came).map (join_rest a) fun b => ?_
    rw [eval_join]
    exact Action.outcome_bind_of_ok out _
  · intro a out error after read failed
    cases behind : second a with
    | ok b =>
        rw [behind] at read
        obtain rfl := Except.ok.inj read
        rw [eval_join]
        exact Action.outcome_bind_of_error failed _
    | error fault =>
        rw [behind] at read
        exact absurd read (by simp [Bind.bind, Except.bind])

end Agrees

namespace Environment

variable (env : Environment)

/-- What a parser may know of an environment: which names are functions and
which are modifiers. -/
def names : Names := ⟨env.functions.contains, env.modifiers.contains⟩

variable {env} {name : String}

theorem isFunction_of_get? {f : UnaryFunction}
    (found : env.functions.get? name = some f) :
    env.names.isFunction name = true := by
  simp [names, Registry.contains, found]

theorem not_isFunction_of_get? (missing : env.functions.get? name = none) :
    ¬env.names.isFunction name = true := by
  simp [names, Registry.contains, missing]

theorem isModifier_of_get? {m : Modifier}
    (found : env.modifiers.get? name = some m) :
    env.names.isModifier name = true := by
  simp [names, Registry.contains, found]

theorem not_isModifier_of_get? (missing : env.modifiers.get? name = none) :
    ¬env.names.isModifier name = true := by
  simp [names, Registry.contains, missing]

/-- The operand of a level is a goal by its level and a phrase of its own. -/
theorem agrees_operand {l : Level} {effects : Effects} {s : Cursor}
    {reply : Reply}
    (agrees : Agrees
      (fun node => ((Goal.operand l).eval env node).outcome effects)
      (env.names.parse (Goal.operand l).part s) reply) :
    Agrees (fun tree : Tree (.operand l) => (tree.eval env).outcome effects)
      (env.names.parse (.whole (.operand l)) s) reply := by
  cases l with
  | sum => exact agrees
  | product => exact agrees
  | bitwise => exact agrees

theorem outcome_lookup_of_some {effects : Effects} {v : Float}
    (known : effects.vars.get? name = some v) :
    ((Tree.lookup name).eval env).outcome effects = (.ok v, effects) := by
  rw [Tree.eval, Action.outcome_get_bind]
  simp only [known]
  rfl

theorem outcome_lookup_of_none {effects : Effects}
    (unknown : effects.vars.get? name = none) :
    ((Tree.lookup name).eval env).outcome effects =
      (.error (.undefinedName name), { effects with silent := true }) := by
  rw [Tree.eval, Action.outcome_get_bind]
  simp only [unknown]
  rfl

/-- The `)` is there for the one exactly if it is there for the other. -/
theorem agrees_close {body : Tree (.level .sum)} {s : Cursor}
    {effects after : Effects} {v : Float}
    (came : (body.eval env).outcome effects = (.ok v, after))
    (rest : Cursor) (h : rest <:+ s) :
    Agrees (fun node => (Tree.eval env node).outcome effects)
      (Parsed.close body rest h) (.close v after rest) := by
  have closed : ((Tree.parens body).eval env).outcome effects =
      (.ok v, after) := by
    rw [Tree.eval]
    exact came
  cases rest with
  | nil => exact .unreadable
  | cons token behind =>
      cases token with
      | closing => exact .value closed
      | _ => exact .unreadable

variable (env) in
/-- An evaluation in place agrees with the evaluation of what is parsed. -/
theorem reply_agrees (goal : Goal) (effects : Effects) (s : Cursor) :
    Agrees (fun node => (goal.eval env node).outcome effects)
      (env.names.parse goal.part s) (env.reply goal effects s) := by
  induction goal, effects, s using env.evaluation_induction with
  | level l effects s operand more =>
      rw [reply_level, Names.parse]
      exact (agrees_operand operand).sequence
        (fun v (rest : Tail l) => rest.eval env (env.enter l v))
        (fun _ _ => rfl) (fun a b => Tree.eval_level env a.node b.node)
        (fun a v after came => more v after a.rest came)
  | stop l left effects s stops =>
      rw [env.reply_more_stop stops, Names.parse_tail_stop stops]
      exact .value rfl
  | step l left effects token tail op here operand more =>
      rw [env.reply_more_step here, Names.parse]
      simp only [here]
      refine (agrees_operand operand).sequence
        (fun right (rest : Tail l) =>
          match op.apply left right with
          | .ok v => rest.eval env v
          | .error error => throw error)
        (fun _ _ => rfl) (fun _ _ => rfl) ?_
      intro a right after came
      cases applied : op.apply left right with
      | ok v => exact more right after a.rest v came applied
      | error error =>
          have runtime := BinaryOperator.isRuntime_of_apply applied
          cases env.names.parse (.tail l) a.rest with
          | ok b => exact .failure rfl runtime
          | error fault => exact .earlier runtime
  | unary effects s primary more =>
      rw [reply_unary, Names.parse]
      exact primary.sequence
        (fun v (rest : UnaryTail) => rest.eval env (.ofPrimary v))
        (fun _ _ => rfl) (fun _ _ => rfl)
        (fun a v after came => more v after a.rest came)
  | unaryStop operand effects s plain stops =>
      rw [env.reply_moreUnary_stop plain stops,
        Names.parse_unaryTail_stop plain stops]
      exact .value rfl
  | unaryFactorial operand effects tail =>
      rw [reply_moreUnary_factorial, Names.parse, if_pos rfl]
      exact .value rfl
  | unaryStep operand effects token tail op here primary more =>
      rw [env.reply_moreUnary_step here, Names.parse_unaryTail_step here]
      exact primary.sequence
        (fun v (rest : UnaryTail) => rest.eval env (operand.apply v op))
        (fun _ _ => rfl) (fun _ _ => rfl)
        (fun a v after came => more v after a.rest came)
  | number v effects tail =>
      rw [reply_number, Names.parse]
      exact .value rfl
  | stray effects tail =>
      rw [reply_stray, Names.parse]
      exact .value rfl
  | call name f effects tail bound argument =>
      have found := functions_of_binding bound
      rw [env.reply_call bound, Names.parse_call (isFunction_of_get? found)]
      refine argument.bind ?_ ?_
      · intro a v after _ out
        refine Agrees.value ?_
        show ((Tree.call name a.node).eval env).outcome effects = _
        simp only [Tree.eval, found]
        exact Action.outcome_bind_of_ok out _
      · intro a out error after read failed
        obtain rfl := Except.ok.inj read
        exact Action.outcome_bind_of_error failed _
  | modifier name m effects tail bound =>
      obtain ⟨no_function, found⟩ := modifiers_of_binding bound
      rw [env.reply_modifier bound,
        Names.parse_modifier (not_isFunction_of_get? no_function)
          (isModifier_of_get? found)]
      refine Agrees.value ?_
      show ((Tree.modifier name).eval env).outcome effects = _
      simp only [Tree.eval, found]
      rfl
  | assign name effects body bound ih =>
      obtain ⟨no_function, no_modifier⟩ := unregistered_of_binding bound
      rw [env.reply_assign bound,
        Names.parse_assign (not_isFunction_of_get? no_function)
          (not_isModifier_of_get? no_modifier)]
      refine ih.bind ?_ ?_
      · intro a v after came out
        have grown : (effects.vars.declare name).names <+: after.vars.names := by
          have grown := env.names_prefix_reply (.level .sum)
            { effects with vars := effects.vars.declare name } body
          rw [came] at grown
          exact grown
        rw [Variables.store_slot_eq_set grown]
        refine Agrees.value ?_
        show ((Tree.assign name a.node).eval env).outcome effects = _
        exact Action.outcome_bind_of_ok out _
      · intro a out error after read failed
        obtain rfl := Except.ok.inj read
        exact Action.outcome_bind_of_error failed _
  | lookup name effects tail bound no_assign =>
      obtain ⟨no_function, no_modifier⟩ := unregistered_of_binding bound
      rw [env.reply_variable bound no_assign,
        Names.parse_lookup (not_isFunction_of_get? no_function)
          (not_isModifier_of_get? no_modifier) no_assign]
      cases known : effects.vars.get? name with
      | some v => exact .value (outcome_lookup_of_some known)
      | none => exact .failure (outcome_lookup_of_none known) rfl
  | opening effects tail ih =>
      rw [reply_opening, Names.parse]
      refine ih.bind ?_ ?_
      · intro a v after _ out
        exact agrees_close out a.rest _
      · intro a out error after read failed
        have same := Parsed.close_node read
        rw [same]
        exact failed
  | reference offset effects tail =>
      rw [reply_reference, Names.parse]
      cases stored : env.history.recent? offset with
      | some v =>
          refine Agrees.value ?_
          show ((Tree.reference offset).eval env).outcome effects = _
          simp only [Tree.eval, stored]
          rfl
      | none =>
          refine Agrees.failure ?_ rfl
          show ((Tree.reference offset).eval env).outcome effects = _
          simp only [Tree.eval, stored]
          rfl
  | nothing effects s op here =>
      rw [env.reply_nothing here, Names.parse_nothing here]
      exact .value rfl
  | unexpected effects s bad =>
      rw [env.reply_unexpected bad, Names.parse_unexpected bad]
      exact .unreadable

end Environment

namespace Context

/-- Evaluates the tree of an expression in a context: its value or the error
that ended it, whether the value is not to be shown, and the context
afterwards. -/
def evaluateTree (context : Context) (tree : Tree (.level .sum)) :
    Except EvalError Float × Bool × Context :=
  let (result, effects) :=
    (tree.eval context.toEnvironment).outcome context.effects
  (result, effects.silent, context.after effects)

theorem evaluateTree_of_outcome {context : Context}
    {tree : Tree (.level .sum)} {result : Except EvalError Float}
    {effects : Effects}
    (came : (tree.eval context.toEnvironment).outcome context.effects =
      (result, effects)) :
    context.evaluateTree tree =
      (result, effects.silent, context.after effects) := by
  simp only [evaluateTree, came]

/-- **Evaluating in place is evaluating the tree.**  Where the parser reads a
tree, the evaluation has the tree's result, silence and context, and a value
leaves the token at which the parser stopped.  Where the parser complains, the
evaluation ends with that complaint at that token, or with an error of the
evaluation proper that came before. -/
theorem evaluate_eq_evaluateTree (context : Context) (lookahead : Lookahead)
    (s : Cursor) :
    let evaluation := context.evaluate lookahead s
    match context.names.parse (.whole (.level .sum)) (lookahead.start s) with
    | .ok read =>
      (evaluation.result, evaluation.silent, evaluation.context) =
          context.evaluateTree read.node ∧
        (∀ v, evaluation.result = .ok v → evaluation.rest = read.rest)
    | .error fault =>
      (evaluation.result = .error fault.cause ∧
          evaluation.rest = fault.rest) ∨
        ∃ error, evaluation.result = .error error ∧
          error.isRuntime = true := by
  intro evaluation
  have agrees : Agrees
      (fun tree : Tree (.level .sum) =>
        (tree.eval context.toEnvironment).outcome context.effects)
      (context.names.parse (.whole (.level .sum)) (lookahead.start s))
      (context.reply (lookahead.start s)) :=
    context.toEnvironment.reply_agrees (.level .sum) context.effects _
  simp only [evaluation, evaluate_eq]
  generalize context.reply (lookahead.start s) = reply at agrees ⊢
  generalize context.names.parse (.whole (.level .sum)) (lookahead.start s) =
    parsed at agrees ⊢
  cases agrees with
  | value came => exact ⟨(evaluateTree_of_outcome came).symm, fun _ _ => rfl⟩
  | failure came _ =>
      exact ⟨(evaluateTree_of_outcome came).symm, fun _ eq => by cases eq⟩
  | unreadable => exact Or.inl ⟨rfl, rfl⟩
  | earlier runtime => exact Or.inr ⟨_, rfl, runtime⟩

end Context

end Reckoner
