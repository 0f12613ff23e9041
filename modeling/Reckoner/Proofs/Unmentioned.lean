/-
# A variable that is not mentioned

An evaluation looks up only the names that its statement mentions.  Two
evaluations whose variables agree on all names but one, and whose statement
does not mention that one, have the same result, leave the same tokens, and
end with variables that again agree on all names but that one.
-/
import Reckoner.Proofs.Progress

namespace Reckoner

/-- Effects that differ in the variable `name` at most. -/
structure Effects.AlikeBut (name : String) (a b : Effects) : Prop where
  vars : ∀ other, other ≠ name → b.vars.get? other = a.vars.get? other
  requests : b.requests = a.requests
  silent : b.silent = a.silent

/-- Replies that differ in the variable `name` at most. -/
structure Reply.AlikeBut (name : String) (a b : Reply) : Prop where
  result : b.result = a.result
  effects : a.effects.AlikeBut name b.effects
  rest : b.rest = a.rest

namespace Effects.AlikeBut

variable {name : String} {a b : Effects}

theorem declare (alike : a.AlikeBut name b) (other : String)
    (differs : other ≠ name) :
    AlikeBut name { a with vars := a.vars.declare other }
      { b with vars := b.vars.declare other } where
  vars third h := by
    simp only [Variables.get?_declare, alike.vars third h,
      alike.vars other differs]
  requests := alike.requests
  silent := alike.silent

theorem set (alike : a.AlikeBut name b) (other : String) (v : Float) :
    AlikeBut name { a with vars := a.vars.set other v }
      { b with vars := b.vars.set other v } where
  vars third h := by simp only [Variables.get?_set, alike.vars third h]
  requests := alike.requests
  silent := alike.silent

theorem declared (name : String) (a : Effects) :
    a.AlikeBut name { a with vars := a.vars.declare name } where
  vars other h := by
    rw [Variables.get?_declare, if_neg fun both => h both.1]
  requests := rfl
  silent := rfl

end Effects.AlikeBut

namespace Reply.AlikeBut

variable {name : String}

theorem value {a b : Effects} (alike : a.AlikeBut name b) (v : Float)
    (rest : Cursor) : AlikeBut name (.value v a rest) (.value v b rest) :=
  ⟨rfl, alike, rfl⟩

theorem failure {a b : Effects} (alike : a.AlikeBut name b)
    (error : EvalError) (rest : Cursor) :
    AlikeBut name (.failure error a rest) (.failure error b rest) :=
  ⟨rfl, alike, rfl⟩

theorem of_value {v : Float} {after : Effects} {rest : Cursor} {reply : Reply}
    (alike : AlikeBut name (.value v after rest) reply) :
    ∃ after', reply = .value v after' rest := by
  obtain ⟨result, effects, rest'⟩ := reply
  obtain rfl : result = .ok v := alike.result
  obtain rfl : rest' = rest := alike.rest
  exact ⟨effects, rfl⟩

theorem of_failure {error : EvalError} {after : Effects} {rest : Cursor}
    {reply : Reply} (alike : AlikeBut name (.failure error after rest) reply) :
    ∃ after', reply = .failure error after' rest := by
  obtain ⟨result, effects, rest'⟩ := reply
  obtain rfl : result = .error error := alike.result
  obtain rfl : rest' = rest := alike.rest
  exact ⟨effects, rfl⟩

theorem andThen {reply reply' : Reply}
    {next next' : Float → Effects → Cursor → Reply}
    (first : reply.AlikeBut name reply')
    (goes_on : ∀ v after after' rest, reply = .value v after rest →
      after.AlikeBut name after' →
      (next v after rest).AlikeBut name (next' v after' rest)) :
    (reply.andThen next).AlikeBut name (reply'.andThen next') := by
  rcases reply.value_or_failure with
    ⟨v, after, rest, rfl⟩ | ⟨error, after, rest, rfl⟩
  · obtain ⟨after', rfl⟩ := first.of_value
    exact goes_on v after after' rest rfl first.effects
  · obtain ⟨after', rfl⟩ := first.of_failure
    exact first

theorem close {a b : Effects} (alike : a.AlikeBut name b) (v : Float)
    (rest : Cursor) :
    AlikeBut name (Reply.close v a rest) (Reply.close v b rest) := by
  unfold Reply.close
  split
  · exact .value alike v _
  · exact .failure alike _ _

end Reply.AlikeBut

/-- **A variable that is not mentioned makes no difference.** -/
theorem Environment.reply_alikeBut (env : Environment) {name : String}
    (goal : Goal) {effects effects' : Effects} {s : Cursor}
    (unmentioned : .name name ∉ s.statement)
    (alike : effects.AlikeBut name effects') :
    (env.reply goal effects s).AlikeBut name (env.reply goal effects' s) := by
  induction goal, effects, s using env.evaluation_induction
    generalizing effects' with
  | level l effects s operand more =>
      rw [reply_level, reply_level]
      refine (operand unmentioned alike).andThen ?_
      intro v after after' rest came alike
      exact more v after rest came
        ((passes_of_reply came).unmentioned unmentioned) alike
  | stop l left effects s stops =>
      rw [env.reply_more_stop stops, env.reply_more_stop stops]
      exact .value alike left s
  | step l left effects token tail op here operand more =>
      have inside : Token.name name ∉ tail.statement :=
        (Cursor.Passes.cons (Token.inside_of_operator here) tail).unmentioned
          unmentioned
      rw [env.reply_more_step here, env.reply_more_step here]
      refine (operand inside alike).andThen ?_
      intro right after after' rest came alike
      cases applied : op.apply left right with
      | ok v =>
          exact more right after rest v came applied
            ((passes_of_reply came).unmentioned inside) alike
      | error error => exact .failure alike error rest
  | unary effects s primary more =>
      rw [reply_unary, reply_unary]
      refine (primary unmentioned alike).andThen ?_
      intro v after after' rest came alike
      exact more v after rest came
        ((passes_of_reply came).unmentioned unmentioned) alike
  | unaryStop operand effects s plain stops =>
      rw [env.reply_moreUnary_stop plain stops,
        env.reply_moreUnary_stop plain stops]
      exact .value alike operand.value s
  | unaryFactorial operand effects tail =>
      rw [reply_moreUnary_factorial, reply_moreUnary_factorial]
      exact .value alike _ tail
  | unaryStep operand effects token tail op here primary more =>
      have inside : Token.name name ∉ tail.statement :=
        (Cursor.Passes.cons (Token.inside_of_unaryOperator here)
          tail).unmentioned unmentioned
      rw [env.reply_moreUnary_step here, env.reply_moreUnary_step here]
      refine (primary inside alike).andThen ?_
      intro v after after' rest came alike
      exact more v after rest came
        ((passes_of_reply came).unmentioned inside) alike
  | number v effects tail =>
      rw [reply_number, reply_number]
      exact .value alike v tail
  | stray effects tail =>
      rw [reply_stray, reply_stray]
      exact .value alike 0 tail
  | call other f effects tail bound argument =>
      rw [env.reply_call bound, env.reply_call bound]
      refine (argument ?_ alike).andThen ?_
      · exact (Cursor.Passes.cons rfl tail).unmentioned unmentioned
      · intro v after after' rest _ alike
        exact .value alike (f v) rest
  | modifier other m effects tail bound =>
      rw [env.reply_modifier bound, env.reply_modifier bound, alike.requests]
      refine .value ?_ 0 tail
      exact ⟨alike.vars, rfl, rfl⟩
  | assign other effects body bound ih =>
      obtain ⟨differs, inside⟩ : other ≠ name ∧ .name name ∉ body.statement := by
        rw [Cursor.statement_cons rfl, Cursor.statement_cons rfl] at unmentioned
        simpa [eq_comm] using unmentioned
      rw [reply_assign_set bound, reply_assign_set bound]
      refine (ih inside (alike.declare other differs)).andThen ?_
      intro v after after' rest _ alike
      exact .value (alike.set other v) v rest
  | lookup other effects tail bound no_assign =>
      have differs : other ≠ name := by
        rw [Cursor.statement_cons rfl] at unmentioned
        rintro rfl
        exact unmentioned List.mem_cons_self
      rw [env.reply_variable bound no_assign,
        env.reply_variable bound no_assign, alike.vars other differs]
      cases effects.vars.get? other with
      | some v => exact .value alike v tail
      | none =>
          refine .failure ?_ _ tail
          exact ⟨alike.vars, alike.requests, rfl⟩
  | opening effects tail ih =>
      rw [reply_opening, reply_opening]
      refine (ih ?_ alike).andThen ?_
      · exact (Cursor.Passes.cons rfl tail).unmentioned unmentioned
      · intro v after after' rest _ alike
        exact .close alike v rest
  | reference offset effects tail =>
      rw [reply_reference, reply_reference]
      cases env.history.recent? offset with
      | some v => exact .value alike v tail
      | none => exact .failure alike _ _
  | nothing effects s op here =>
      rw [env.reply_nothing here, env.reply_nothing here]
      exact .value alike 0 s
  | unexpected effects s bad =>
      rw [env.reply_unexpected bad, env.reply_unexpected bad]
      exact .failure alike _ s

end Reckoner
