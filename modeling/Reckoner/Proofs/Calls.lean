/-
# The calls of an evaluation

`Environment.run` is one recursive function, and Lean has accepted it because
a measure goes down at every recursive use.  Here the recursive uses are
themselves the subject.  A **task** is what the function is used on: a goal,
the effects so far and the tokens left.  `Calls` lists the tasks that a task
leads to directly, and a chain of calls leads from a whole expression to
everything that is evaluated on the way, the assignments included.

That no call is missing from the list is `unfold_of_calls`: a task comes out
right as soon as its calls do, whatever is answered elsewhere.  That none is
too many is `exists_of_unfold`: a task that comes out has made them all.  The
chains are short by `measure_lt_of_calls`, which gives an evaluation that
recurs to a fixed depth and loses nothing; and one that watches a property on
the way decides whether it holds throughout.
-/
import Reckoner.Proofs.Reply

namespace Reckoner

/-- One use of the evaluation. -/
structure Task where
  goal : Goal
  effects : Effects
  cursor : Cursor

/-- Ten for each token left and the rank of the goal. -/
def Task.measure (task : Task) : Nat := task.goal.measure task.cursor

namespace Reply

/-- Goes on with the value of a reply, where neither the reply nor what
follows it has to come; an error stays as it is. -/
def chain (first : Option Reply)
    (next : Float → Effects → Cursor → Option Reply) : Option Reply :=
  match first with
  | none => none
  | some ⟨.ok v, effects, rest⟩ => next v effects rest
  | some ⟨.error error, effects, rest⟩ => some (failure error effects rest)

/-- If the reply comes and everything that follows it does, so does the
whole. -/
theorem chain_eq_andThen {first : Option Reply} {reply : Reply}
    {next : Float → Effects → Cursor → Option Reply}
    {total : Float → Effects → Cursor → Reply} (came : first = some reply)
    (follows : ∀ v after rest, reply = value v after rest →
      next v after rest = some (total v after rest)) :
    chain first next = some (reply.andThen total) := by
  subst came
  rcases reply.value_or_failure with
    ⟨v, after, rest, rfl⟩ | ⟨error, after, rest, rfl⟩
  · exact follows v after rest rfl
  · rfl

/-- If the whole comes, so do the reply and what follows its value. -/
theorem exists_of_chain {first : Option Reply} {total : Reply}
    {next : Float → Effects → Cursor → Option Reply}
    (came : chain first next = some total) :
    ∃ reply, first = some reply ∧
      ∀ v after rest, reply = value v after rest →
        next v after rest = some total := by
  cases first with
  | none => cases came
  | some reply =>
      refine ⟨reply, rfl, ?_⟩
      rintro v after rest rfl
      exact came

end Reply

namespace Environment

variable (env : Environment)

/-- What a task comes to. -/
def perform (task : Task) : Reply :=
  env.reply task.goal task.effects task.cursor

/-- The tasks that a task leads to directly. -/
inductive Calls : Task → Task → Prop
  | operand {l : Level} {effects : Effects} {s : Cursor} :
      Calls ⟨.level l, effects, s⟩ ⟨.operand l, effects, s⟩
  | more {l : Level} {effects after : Effects} {s rest : Cursor} {v : Float}
      (came : env.reply (.operand l) effects s = .value v after rest) :
      Calls ⟨.level l, effects, s⟩ ⟨.more l (env.enter l v), after, rest⟩
  | right {l : Level} {left : Float} {effects : Effects} {token : Token}
      {tail : Cursor} {op : BinaryOperator}
      (here : l.operator? token = some op) :
      Calls ⟨.more l left, effects, token :: tail⟩ ⟨.operand l, effects, tail⟩
  | moreAgain {l : Level} {left right v : Float} {effects after : Effects}
      {token : Token} {tail rest : Cursor} {op : BinaryOperator}
      (here : l.operator? token = some op)
      (came : env.reply (.operand l) effects tail = .value right after rest)
      (applied : op.apply left right = .ok v) :
      Calls ⟨.more l left, effects, token :: tail⟩ ⟨.more l v, after, rest⟩
  | primary {effects : Effects} {s : Cursor} :
      Calls ⟨.unary, effects, s⟩ ⟨.primary, effects, s⟩
  | moreUnary {effects after : Effects} {s rest : Cursor} {v : Float}
      (came : env.reply .primary effects s = .value v after rest) :
      Calls ⟨.unary, effects, s⟩ ⟨.moreUnary (.ofPrimary v), after, rest⟩
  | next {operand : Operand} {effects : Effects} {token : Token}
      {tail : Cursor} {op : UnaryOperator}
      (here : UnaryOperator.ofToken? token = some op) :
      Calls ⟨.moreUnary operand, effects, token :: tail⟩
        ⟨.primary, effects, tail⟩
  | unaryAgain {operand : Operand} {v : Float} {effects after : Effects}
      {token : Token} {tail rest : Cursor} {op : UnaryOperator}
      (here : UnaryOperator.ofToken? token = some op)
      (came : env.reply .primary effects tail = .value v after rest) :
      Calls ⟨.moreUnary operand, effects, token :: tail⟩
        ⟨.moreUnary (operand.apply v op), after, rest⟩
  | argument {name : String} {f : UnaryFunction} {effects : Effects}
      {tail : Cursor} (bound : env.binding name = .function f) :
      Calls ⟨.primary, effects, .name name :: tail⟩ ⟨.primary, effects, tail⟩
  | body {name : String} {effects : Effects} {body : Cursor}
      (bound : env.binding name = .variable) :
      Calls ⟨.primary, effects, .name name :: .assign :: body⟩
        ⟨.level .sum, { effects with vars := effects.vars.declare name }, body⟩
  | inside {effects : Effects} {tail : Cursor} :
      Calls ⟨.primary, effects, .opening :: tail⟩ ⟨.level .sum, effects, tail⟩

/-! ## The rules with the calls left open -/

/-- The rules of the evaluation, with `call` in the place of each recursive
use; where a call gives nothing, neither does the task. -/
def unfold (call : Task → Option Reply) : Task → Option Reply
  | ⟨.level l, effects, s⟩ =>
    Reply.chain (call ⟨.operand l, effects, s⟩) fun v after rest =>
      call ⟨.more l (env.enter l v), after, rest⟩
  | ⟨.more l left, effects, s⟩ =>
    match s with
    | [] => some (.value left effects [])
    | token :: tail =>
      match l.operator? token with
      | none => some (.value left effects (token :: tail))
      | some op =>
        Reply.chain (call ⟨.operand l, effects, tail⟩) fun right after rest =>
          match op.apply left right with
          | .ok v => call ⟨.more l v, after, rest⟩
          | .error error => some (.failure error after rest)
  | ⟨.unary, effects, s⟩ =>
    Reply.chain (call ⟨.primary, effects, s⟩) fun v after rest =>
      call ⟨.moreUnary (.ofPrimary v), after, rest⟩
  | ⟨.moreUnary operand, effects, s⟩ =>
    match s with
    | [] => some (.value operand.value effects [])
    | .factorial :: tail =>
      some (.value (factorial operand.value operand.start) effects tail)
    | token :: tail =>
      match UnaryOperator.ofToken? token with
      | none => some (.value operand.value effects (token :: tail))
      | some op =>
        Reply.chain (call ⟨.primary, effects, tail⟩) fun v after rest =>
          call ⟨.moreUnary (operand.apply v op), after, rest⟩
  | ⟨.primary, effects, s⟩ =>
    match s with
    | [] => some (.failure (.unexpectedToken .finish) effects [])
    | .number v :: tail => some (.value v effects tail)
    | .factorial :: tail => some (.value 0 effects tail)
    | .name name :: tail =>
      match env.binding name with
      | .function f =>
        Reply.chain (call ⟨.primary, effects, tail⟩) fun v after rest =>
          some (.value (f v) after rest)
      | .modifier m =>
        some (.value 0
          { effects with requests := m effects.requests, silent := true } tail)
      | .variable =>
        match tail with
        | .assign :: body =>
          let vars := effects.vars.declare name
          Reply.chain (call ⟨.level .sum, { effects with vars }, body⟩)
            fun v after rest =>
              let vars := after.vars.store (effects.vars.slot name) v
              some (.value v { after with vars } rest)
        | tail =>
          match effects.vars.get? name with
          | some v => some (.value v effects tail)
          | none =>
            some (.failure (.undefinedName name) { effects with silent := true }
              tail)
    | .opening :: tail =>
      Reply.chain (call ⟨.level .sum, effects, tail⟩) fun v after rest =>
        some (.close v after rest)
    | .reference offset :: tail =>
      match env.history.recent? offset with
      | some v => some (.value v effects tail)
      | none =>
        some (.failure (.historyOutOfRange offset env.history.length) effects
          (.reference offset :: tail))
    | token :: tail =>
      match UnaryOperator.ofToken? token with
      | some _ => some (.value 0 effects (token :: tail))
      | none =>
        some (.failure (.unexpectedToken token) effects (token :: tail))

variable {env} in
theorem unfold_moreUnary_step {call : Task → Option Reply} {token : Token}
    {op : UnaryOperator} (here : UnaryOperator.ofToken? token = some op)
    {operand : Operand} {effects : Effects} {tail : Cursor} :
    env.unfold call ⟨.moreUnary operand, effects, token :: tail⟩ =
      Reply.chain (call ⟨.primary, effects, tail⟩) fun v after rest =>
        call ⟨.moreUnary (operand.apply v op), after, rest⟩ := by
  have plain : token ≠ .factorial := by
    rintro rfl
    cases here
  simp only [unfold, here]

/-- A task comes out right as soon as its calls do. -/
theorem unfold_of_calls {call : Task → Option Reply} {task : Task}
    (right : ∀ next, env.Calls task next → call next = some (env.perform next)) :
    env.unfold call task = some (env.perform task) := by
  obtain ⟨goal, effects, s⟩ := task
  cases goal, effects, s using env.evaluation_cases with
  | level l effects s =>
      simp only [perform, reply_level, unfold]
      refine Reply.chain_eq_andThen (right _ .operand) ?_
      intro v after rest came
      exact right _ (.more came)
  | stop l left effects s stops =>
      simp only [perform, env.reply_more_stop stops]
      cases s with
      | nil => rfl
      | cons token tail =>
          simp only [unfold, show l.operator? token = none from stops]
  | step l left effects token tail op here =>
      simp only [perform, env.reply_more_step here, unfold, here]
      refine Reply.chain_eq_andThen (right _ (.right here)) ?_
      intro v after rest came
      cases applied : op.apply left v with
      | ok u => exact right _ (.moreAgain here came applied)
      | error error => rfl
  | unary effects s =>
      simp only [perform, reply_unary, unfold]
      refine Reply.chain_eq_andThen (right _ .primary) ?_
      intro v after rest came
      exact right _ (.moreUnary came)
  | unaryStop operand effects s plain stops =>
      simp only [perform, env.reply_moreUnary_stop plain stops]
      cases s with
      | nil => rfl
      | cons token tail =>
          have plain : token ≠ .factorial := plain
          simp only [unfold, show UnaryOperator.ofToken? token = none from stops]
  | unaryFactorial operand effects tail =>
      simp only [perform, reply_moreUnary_factorial, unfold]
  | unaryStep operand effects token tail op here =>
      simp only [perform, env.reply_moreUnary_step here,
        unfold_moreUnary_step here]
      refine Reply.chain_eq_andThen (right _ (.next here)) ?_
      intro v after rest came
      exact right _ (.unaryAgain here came)
  | number v effects tail =>
      simp only [perform, reply_number, unfold]
  | stray effects tail =>
      simp only [perform, reply_stray, unfold]
  | call name f effects tail bound =>
      simp only [perform, env.reply_call bound, unfold, bound]
      refine Reply.chain_eq_andThen (right _ (.argument bound)) ?_
      intro v after rest _
      rfl
  | modifier name m effects tail bound =>
      simp only [perform, env.reply_modifier bound, unfold, bound]
  | assign name effects body bound =>
      simp only [perform, env.reply_assign bound, unfold, bound]
      refine Reply.chain_eq_andThen (right _ (.body bound)) ?_
      intro v after rest _
      rfl
  | lookup name effects tail bound no_assign =>
      have other : ∀ body, tail = .assign :: body → False := by
        rintro body rfl
        exact no_assign rfl
      simp only [perform, env.reply_variable bound no_assign, unfold, bound]
      cases effects.vars.get? name with
      | some v => rfl
      | none => rfl
  | opening effects tail =>
      simp only [perform, reply_opening, unfold]
      refine Reply.chain_eq_andThen (right _ .inside) ?_
      intro v after rest _
      rfl
  | reference offset effects tail =>
      simp only [perform, reply_reference, unfold]
      cases env.history.recent? offset with
      | some v => rfl
      | none => rfl
  | nothing effects s op here =>
      simp only [perform, env.reply_nothing here]
      cases s with
      | nil => cases here
      | cons token tail =>
          have here : UnaryOperator.ofToken? token = some op := here
          cases token <;> first | rfl | cases here
  | unexpected effects s bad =>
      simp only [perform, env.reply_unexpected bad]
      cases s with
      | nil => rfl
      | cons token tail =>
          have bad : token.beginsPrimary = false := bad
          cases token <;> first | rfl | cases bad

/-! ## Chains of calls are short -/

/-- **A call has a smaller measure.** -/
theorem measure_lt_of_calls {task next : Task} (calls : env.Calls task next) :
    next.measure < task.measure := by
  cases calls with
  | operand =>
      exact Goal.measure_lt_of_rank (Nat.le_refl _) (Goal.rank_operand_lt _)
  | more came =>
      exact Goal.measure_lt_of_rank (env.rest_suffix_of_reply came).length_le
        (Goal.rank_more_lt _ _)
  | right here => exact Goal.measure_lt_of_length (Nat.lt_succ_self _)
  | moreAgain here came applied =>
      exact Goal.measure_lt_of_length
        (Nat.lt_succ_of_le (env.rest_suffix_of_reply came).length_le)
  | primary =>
      exact Goal.measure_lt_of_rank (Nat.le_refl _)
        (Nat.lt_add_of_pos_right Nat.two_pos)
  | moreUnary came =>
      exact Goal.measure_lt_of_rank (env.rest_suffix_of_reply came).length_le
        (Nat.lt_succ_self 1)
  | next here => exact Goal.measure_lt_of_length (Nat.lt_succ_self _)
  | unaryAgain here came =>
      exact Goal.measure_lt_of_length
        (Nat.lt_succ_of_le (env.rest_suffix_of_reply came).length_le)
  | argument bound => exact Goal.measure_lt_of_length (Nat.lt_succ_self _)
  | body bound =>
      exact Goal.measure_lt_of_length (Nat.lt_succ_of_lt (Nat.lt_succ_self _))
  | inside => exact Goal.measure_lt_of_length (Nat.lt_succ_self _)

/-- The evaluation that recurs to a fixed depth and gives nothing where that
is not enough. -/
def within : Nat → Task → Option Reply
  | 0, _ => none
  | depth + 1, task => env.unfold (within depth) task

/-- A depth greater than the measure is enough. -/
theorem within_eq_perform {depth : Nat} {task : Task}
    (enough : task.measure < depth) :
    env.within depth task = some (env.perform task) := by
  induction depth generalizing task with
  | zero => exact absurd enough (Nat.not_lt_zero _)
  | succ depth ih =>
      refine env.unfold_of_calls ?_
      intro next calls
      have smaller := env.measure_lt_of_calls calls
      exact ih (Nat.lt_of_lt_of_le smaller (Nat.le_of_lt_succ enough))

/-! ## What holds throughout an evaluation -/

variable {env} in
/-- A task that comes has made all its calls, and they came too. -/
theorem exists_of_unfold {call : Task → Option Reply} {task next : Task}
    {total : Reply} (came : env.unfold call task = some total)
    (right : ∀ task reply, call task = some reply → reply = env.perform task)
    (calls : env.Calls task next) : ∃ reply, call next = some reply := by
  cases calls with
  | operand | primary | inside =>
      obtain ⟨reply, first, -⟩ := Reply.exists_of_chain came
      exact ⟨reply, first⟩
  | more value | moreUnary value =>
      obtain ⟨reply, first, follows⟩ := Reply.exists_of_chain came
      exact ⟨total, follows _ _ _ ((right _ _ first).trans value)⟩
  | right here =>
      simp only [unfold, here] at came
      obtain ⟨reply, first, -⟩ := Reply.exists_of_chain came
      exact ⟨reply, first⟩
  | moreAgain here value applied =>
      simp only [unfold, here] at came
      obtain ⟨reply, first, follows⟩ := Reply.exists_of_chain came
      have again := follows _ _ _ ((right _ _ first).trans value)
      simp only [applied] at again
      exact ⟨total, again⟩
  | next here =>
      rw [unfold_moreUnary_step here] at came
      obtain ⟨reply, first, -⟩ := Reply.exists_of_chain came
      exact ⟨reply, first⟩
  | unaryAgain here value =>
      rw [unfold_moreUnary_step here] at came
      obtain ⟨reply, first, follows⟩ := Reply.exists_of_chain came
      exact ⟨total, follows _ _ _ ((right _ _ first).trans value)⟩
  | argument bound | body bound =>
      simp only [unfold, bound] at came
      obtain ⟨reply, first, -⟩ := Reply.exists_of_chain came
      exact ⟨reply, first⟩

/-- A property holds of a task and of every task it leads to. -/
def Throughout (p : Task → Prop) (task : Task) : Prop :=
  ∀ next, Relation.ReflTransGen env.Calls task next → p next

section Throughout

variable {env} {p : Task → Prop} {task : Task}

theorem Throughout.call (holds : env.Throughout p task) {next : Task}
    (calls : env.Calls task next) : env.Throughout p next :=
  fun last chain => holds last (.head calls chain)

theorem Throughout.here (holds : env.Throughout p task) : p task :=
  holds task .refl

theorem throughout_of_calls (here : p task)
    (calls : ∀ next, env.Calls task next → env.Throughout p next) :
    env.Throughout p task := by
  intro last chain
  rcases chain.cases_head with rfl | ⟨next, first, later⟩
  · exact here
  · exact calls next first last later

variable [DecidablePred p]

variable (env p) in
/-- The evaluation to a fixed depth that gives nothing once a task on the way
has not the property. -/
def watch : Nat → Task → Option Reply
  | 0, _ => none
  | depth + 1, task =>
    if p task then env.unfold (watch depth) task else none

/-- What comes of a watched evaluation is right, and was right throughout. -/
theorem of_watch {depth : Nat} {reply : Reply}
    (came : env.watch p depth task = some reply) :
    reply = env.perform task ∧ env.Throughout p task := by
  induction depth generalizing task reply with
  | zero => cases came
  | succ depth ih =>
      obtain ⟨here, came⟩ := Option.ite_none_right_eq_some.mp came
      have right (task : Task) (reply : Reply)
          (came : env.watch p depth task = some reply) :
          reply = env.perform task :=
        (ih came).1
      have called (next : Task) (calls : env.Calls task next) :
          ∃ reply, env.watch p depth next = some reply :=
        exists_of_unfold came right calls
      constructor
      · have performed : env.unfold (env.watch p depth) task =
            some (env.perform task) := by
          refine env.unfold_of_calls fun next calls => ?_
          obtain ⟨reply, came⟩ := called next calls
          rw [came, right next reply came]
        exact Option.some.inj (came.symm.trans performed)
      · refine throughout_of_calls here fun next calls => ?_
        obtain ⟨reply, came⟩ := called next calls
        exact (ih came).2

/-- A depth greater than the measure is enough to watch. -/
theorem watch_eq_perform {depth : Nat} (enough : task.measure < depth)
    (holds : env.Throughout p task) :
    env.watch p depth task = some (env.perform task) := by
  induction depth generalizing task with
  | zero => exact absurd enough (Nat.not_lt_zero _)
  | succ depth ih =>
      refine (if_pos holds.here).trans (env.unfold_of_calls ?_)
      intro next calls
      have smaller := env.measure_lt_of_calls calls
      exact ih (Nat.lt_of_lt_of_le smaller (Nat.le_of_lt_succ enough))
        (holds.call calls)

theorem watch_isSome_iff :
    (env.watch p (task.measure + 1) task).isSome ↔ env.Throughout p task := by
  constructor
  · intro comes
    obtain ⟨reply, came⟩ := Option.isSome_iff_exists.mp comes
    exact (of_watch came).2
  · intro holds
    rw [watch_eq_perform (Nat.lt_succ_self _) holds]
    rfl

instance : Decidable (env.Throughout p task) :=
  decidable_of_iff _ watch_isSome_iff

end Throughout

end Environment

end Reckoner
