/-
# What an evaluation reads and what it changes

An evaluation reads its tokens from the left and changes its effects on the
way, and every change happens at a token that asks for it.  A relation
between the effects and tokens before an evaluation and those after it, with
the error that ended it, holds of every evaluation if it holds of the steps:
over a token, at a modifier, at a name that is not found, at an assignment,
and where an error stops the reading.  That is `course_induction`; where the
error does not matter it is `progress_induction`.

It is used twice here.  An evaluation **passes** tokens of its own statement
only, and never the separator or `finish` that ends it.  And a variable
whose value has changed stood in front of a `=` among the passed tokens.
-/
import Reckoner.Proofs.Slots
import Reckoner.Proofs.Transfer

namespace Reckoner

namespace Token

theorem inside_of_operator {l : Level} {token : Token} {op : BinaryOperator}
    (here : l.operator? token = some op) : token.endsStatement = false := by
  refine Bool.eq_false_iff.mpr fun ends => ?_
  rw [operator?_of_endsStatement ends] at here
  cases here

theorem inside_of_unaryOperator {token : Token} {op : UnaryOperator}
    (here : UnaryOperator.ofToken? token = some op) :
    token.endsStatement = false := by
  refine Bool.eq_false_iff.mpr fun ends => ?_
  rw [ofToken?_of_endsStatement ends] at here
  cases here

end Token

namespace Cursor

/-- The tokens up to the end of the statement. -/
def statement (s : Cursor) : List Token :=
  s.takeWhile fun token => !token.endsStatement

/-- Between `s` and `rest` stand tokens of one statement only. -/
def Passes (s rest : Cursor) : Prop :=
  ∃ passed, (∀ token ∈ passed, token.endsStatement = false) ∧
    s = passed ++ rest

theorem Passes.refl (s : Cursor) : s.Passes s :=
  ⟨[], fun _ h => absurd h List.not_mem_nil, rfl⟩

theorem Passes.cons {token : Token} (inside : token.endsStatement = false)
    (tail : Cursor) : Passes (token :: tail) tail :=
  ⟨[token], fun _ h => List.mem_singleton.mp h ▸ inside, rfl⟩

theorem Passes.trans {s t u : Cursor} (first : s.Passes t)
    (second : t.Passes u) : s.Passes u := by
  obtain ⟨passed, inside, rfl⟩ := first
  obtain ⟨passed', inside', rfl⟩ := second
  refine ⟨passed ++ passed', ?_, (List.append_assoc _ _ _).symm⟩
  intro token h
  exact (List.mem_append.mp h).elim (inside token) (inside' token)

/-- The tokens of `s` in front of `rest`. -/
def passed (s rest : Cursor) : List Token := s.take (s.length - rest.length)

theorem passed_append (front : List Token) (rest : Cursor) :
    passed (front ++ rest) rest = front := by
  simp [passed]

theorem passed_append_self {s rest : Cursor} (suffix : rest <:+ s) :
    s.passed rest ++ rest = s :=
  List.suffix_iff_eq_append.mp suffix

theorem passed_self (rest : Cursor) : rest.passed rest = [] :=
  passed_append [] rest

theorem passed_cons {tail rest : Cursor} (suffix : rest <:+ tail)
    (token : Token) :
    passed (token :: tail) rest = token :: tail.passed rest := by
  obtain ⟨front, rfl⟩ := suffix
  rw [passed_append]
  exact passed_append (token :: front) rest

theorem passed_trans {s t rest : Cursor} (first : t <:+ s)
    (second : rest <:+ t) : s.passed rest = s.passed t ++ t.passed rest := by
  obtain ⟨front, rfl⟩ := first
  obtain ⟨behind, rfl⟩ := second
  rw [passed_append, passed_append, ← List.append_assoc, passed_append]

/-- What stands in front of `rest` with tokens between is passed. -/
theorem infix_passed {front : List Token} {s body rest : Cursor}
    (here : front ++ body <:+ s) (behind : rest <:+ body) :
    front <:+: s.passed rest := by
  obtain ⟨before, rfl⟩ := here
  obtain ⟨between, rfl⟩ := behind
  refine ⟨before, between, ?_⟩
  rw [← passed_append (before ++ front ++ between) rest]
  simp only [List.append_assoc]

theorem statement_append {passed : List Token}
    (inside : ∀ token ∈ passed, token.endsStatement = false) (rest : Cursor) :
    statement (passed ++ rest) = passed ++ statement rest := by
  refine List.takeWhile_append_of_pos ?_
  intro token h
  simp [inside token h]

theorem Passes.suffix {s rest : Cursor} (passes : s.Passes rest) :
    rest <:+ s := by
  obtain ⟨passed, _, rfl⟩ := passes
  exact List.suffix_append _ _

/-- What is passed is a front of the statement. -/
theorem Passes.passed_front {s rest : Cursor} (passes : s.Passes rest) :
    s.passed rest <+: s.statement := by
  obtain ⟨front, inside, rfl⟩ := passes
  rw [passed_append, statement_append inside]
  exact List.prefix_append _ _

theorem Passes.statement_suffix {s rest : Cursor} (passes : s.Passes rest) :
    rest.statement <:+ s.statement := by
  obtain ⟨passed, inside, rfl⟩ := passes
  rw [statement_append inside]
  exact List.suffix_append _ _

theorem statement_cons {token : Token} (inside : token.endsStatement = false)
    (tail : Cursor) : statement (token :: tail) = token :: statement tail :=
  @statement_append [token]
    (fun _ h => List.mem_singleton.mp h ▸ inside) tail

/-- What a statement does not mention, what follows in it does not. -/
theorem Passes.unmentioned {s rest : Cursor} {token : Token}
    (passes : s.Passes rest) (unmentioned : token ∉ s.statement) :
    token ∉ rest.statement :=
  fun h => unmentioned (passes.statement_suffix.subset h)

theorem statement_of_ends {s : Cursor}
    (ends : s.current.endsStatement = true) : s.statement = [] := by
  cases s with
  | nil => rfl
  | cons token tail =>
      have ends : token.endsStatement = true := ends
      simp [statement, ends]

end Cursor

namespace Environment

variable (env : Environment)

section Course

variable (R : Effects → Cursor → Option EvalError → Effects → Cursor → Prop)
  (trans : ∀ {e s e' s' error? e'' s''},
    R e s none e' s' → R e' s' error? e'' s'' → R e s error? e'' s'')

include trans in
theorem course_andThen {effects : Effects} {s : Cursor} {reply : Reply}
    {next : Float → Effects → Cursor → Reply}
    (first : R effects s reply.error? reply.effects reply.rest)
    (goes_on : ∀ v after rest, reply = .value v after rest →
      R after rest (next v after rest).error? (next v after rest).effects
        (next v after rest).rest) :
    R effects s (reply.andThen next).error? (reply.andThen next).effects
      (reply.andThen next).rest := by
  rcases reply.value_or_failure with
    ⟨v, after, rest, rfl⟩ | ⟨error, after, rest, rfl⟩
  · exact trans first (goes_on v after rest rfl)
  · exact first

include trans in
/-- What every step of an evaluation does, the evaluation does.  An error
other than that of a name that is not found changes nothing where it
arises. -/
theorem course_induction (refl : ∀ effects s, R effects s none effects s)
    (stop : ∀ error effects s, (∀ name, error ≠ .undefinedName name) →
      R effects s (some error) effects s)
    (skip : ∀ token effects tail, token.endsStatement = false →
      (∀ name, token ≠ .name name) →
      R effects (token :: tail) none effects tail)
    (function : ∀ name f effects tail, env.binding name = .function f →
      R effects (.name name :: tail) none effects tail)
    (modifier : ∀ name m (effects : Effects) tail,
      env.binding name = .modifier m →
      R effects (.name name :: tail) none
        { effects with requests := m effects.requests, silent := true } tail)
    (lookup : ∀ name (effects : Effects) (tail : Cursor),
      env.binding name = .variable → tail.current ≠ .assign →
      R effects (.name name :: tail) none effects tail)
    (unknown : ∀ name (effects : Effects) (tail : Cursor),
      env.binding name = .variable → tail.current ≠ .assign →
      effects.vars.get? name = none →
      R effects (.name name :: tail) (some (.undefinedName name))
        { effects with silent := true } tail)
    (declare : ∀ name (effects : Effects) body,
      env.binding name = .variable →
      R effects (.name name :: .assign :: body) none
        { effects with vars := effects.vars.declare name } body)
    (assign : ∀ name (effects : Effects) body after rest v,
      env.binding name = .variable →
      R { effects with vars := effects.vars.declare name } body none after
        rest →
      R effects (.name name :: .assign :: body) none
        { after with vars := after.vars.set name v } rest)
    (goal : Goal) (effects : Effects) (s : Cursor) :
    R effects s (env.reply goal effects s).error?
      (env.reply goal effects s).effects (env.reply goal effects s).rest := by
  -- no operator and no primary but a name ends a statement or is a name
  have operator {l : Level} {token : Token} {op : BinaryOperator}
      (here : l.operator? token = some op) (effects : Effects) (tail : Cursor) :
      R effects (token :: tail) none effects tail := by
    refine skip token effects tail (Token.inside_of_operator here) ?_
    rintro name rfl
    cases l <;> cases here
  have unaryOperator {token : Token} {op : UnaryOperator}
      (here : UnaryOperator.ofToken? token = some op) (effects : Effects)
      (tail : Cursor) : R effects (token :: tail) none effects tail := by
    refine skip token effects tail (Token.inside_of_unaryOperator here) ?_
    rintro name rfl
    cases here
  induction goal, effects, s using env.evaluation_induction with
  | level l effects s operand more =>
      rw [reply_level]
      exact course_andThen R trans operand more
  | stop l left effects s stops =>
      rw [env.reply_more_stop stops]
      exact refl effects s
  | step l left effects token tail op here operand more =>
      rw [env.reply_more_step here]
      refine trans (operator here effects tail) ?_
      refine course_andThen R trans operand fun right after rest came => ?_
      cases applied : op.apply left right with
      | ok v => exact more right after rest v came applied
      | error error =>
          refine stop error after rest fun name eq => ?_
          subst eq
          rcases BinaryOperator.error_of_apply applied with eq | eq
          · cases eq
          · cases eq
  | unary effects s primary more =>
      rw [reply_unary]
      exact course_andThen R trans primary more
  | unaryStop operand effects s plain stops =>
      rw [env.reply_moreUnary_stop plain stops]
      exact refl effects s
  | unaryFactorial operand effects tail =>
      rw [reply_moreUnary_factorial]
      exact skip _ effects tail rfl (by simp)
  | unaryStep operand effects token tail op here primary more =>
      rw [env.reply_moreUnary_step here]
      exact trans (unaryOperator here effects tail)
        (course_andThen R trans primary more)
  | number v effects tail =>
      rw [reply_number]
      exact skip _ effects tail rfl (by simp)
  | stray effects tail =>
      rw [reply_stray]
      exact skip _ effects tail rfl (by simp)
  | call name f effects tail bound argument =>
      rw [env.reply_call bound]
      exact trans (function name f effects tail bound)
        (course_andThen R trans argument fun _ after rest _ =>
          refl after rest)
  | modifier name m effects tail bound =>
      rw [env.reply_modifier bound]
      exact modifier name m effects tail bound
  | assign name effects body bound ih =>
      rw [reply_assign_set bound]
      rcases (env.reply (.level .sum) _ body).value_or_failure with
        ⟨v, after, rest, came⟩ | ⟨error, after, rest, came⟩
      · rw [came] at ih ⊢
        exact assign name effects body after rest v bound ih
      · rw [came] at ih ⊢
        exact trans (declare name effects body bound) ih
  | lookup name effects tail bound no_assign =>
      rw [env.reply_variable bound no_assign]
      cases known : effects.vars.get? name with
      | some v => exact lookup name effects tail bound no_assign
      | none => exact unknown name effects tail bound no_assign known
  | opening effects tail ih =>
      rw [reply_opening]
      refine trans (skip .opening effects tail rfl (by simp)) ?_
      refine course_andThen R trans ih fun v after rest _ => ?_
      rw [Reply.effects_close]
      unfold Reply.close
      split
      · exact skip .closing after _ rfl (by simp)
      · exact stop _ after rest fun _ => nofun
  | reference offset effects tail =>
      rw [reply_reference]
      cases env.history.recent? offset with
      | some v => exact skip _ effects tail rfl (by simp)
      | none => exact stop _ effects _ fun _ => nofun
  | nothing effects s op here =>
      rw [env.reply_nothing here]
      exact refl effects s
  | unexpected effects s bad =>
      rw [env.reply_unexpected bad]
      exact stop _ effects s fun _ => nofun

end Course

section Progress

variable (R : Effects → Cursor → Effects → Cursor → Prop)
  (trans : ∀ {e s e' s' e'' s''}, R e s e' s' → R e' s' e'' s'' → R e s e'' s'')

include trans in
/-- What every step of an evaluation does, the evaluation does, whether or
not an error ends it. -/
theorem progress_induction (refl : ∀ effects s, R effects s effects s)
    (skip : ∀ token effects tail, token.endsStatement = false →
      (∀ name, token ≠ .name name) → R effects (token :: tail) effects tail)
    (function : ∀ name f effects tail, env.binding name = .function f →
      R effects (.name name :: tail) effects tail)
    (modifier : ∀ name m (effects : Effects) tail,
      env.binding name = .modifier m →
      R effects (.name name :: tail)
        { effects with requests := m effects.requests, silent := true } tail)
    (lookup : ∀ name (effects : Effects) (tail : Cursor),
      env.binding name = .variable → tail.current ≠ .assign →
      R effects (.name name :: tail) effects tail)
    (unknown : ∀ name (effects : Effects) (tail : Cursor),
      env.binding name = .variable → tail.current ≠ .assign →
      effects.vars.get? name = none →
      R effects (.name name :: tail) { effects with silent := true } tail)
    (declare : ∀ name (effects : Effects) body,
      env.binding name = .variable →
      R effects (.name name :: .assign :: body)
        { effects with vars := effects.vars.declare name } body)
    (assign : ∀ name (effects : Effects) body after rest v,
      env.binding name = .variable →
      R { effects with vars := effects.vars.declare name } body after rest →
      R effects (.name name :: .assign :: body)
        { after with vars := after.vars.set name v } rest)
    (goal : Goal) (effects : Effects) (s : Cursor) :
    R effects s (env.reply goal effects s).effects
      (env.reply goal effects s).rest :=
  env.course_induction (fun before s _ after rest => R before s after rest)
    trans refl (fun _ effects s _ => refl effects s) skip function modifier
    lookup unknown declare assign goal effects s

end Progress

/-- **An evaluation stays in its statement.** -/
theorem reply_passes (goal : Goal) (effects : Effects) (s : Cursor) :
    s.Passes (env.reply goal effects s).rest := by
  refine env.progress_induction (fun _ s _ rest => s.Passes rest)
    (fun first second => first.trans second) (fun _ s => .refl s)
    (fun _ _ tail inside _ => .cons inside tail)
    (fun _ _ _ tail _ => .cons rfl tail) (fun _ _ _ tail _ => .cons rfl tail)
    (fun _ _ tail _ _ => .cons rfl tail) (fun _ _ tail _ _ _ => .cons rfl tail)
    (fun _ _ body _ => ?declare) (fun _ _ body _ rest _ _ passes => ?assign)
    goal effects s
  case declare => exact (Cursor.Passes.cons rfl _).trans (.cons rfl body)
  case assign =>
    exact ((Cursor.Passes.cons rfl _).trans (.cons rfl body)).trans passes

variable {env} in
theorem passes_of_reply {goal : Goal} {effects after : Effects}
    {s rest : Cursor} {v : Float}
    (came : env.reply goal effects s = .value v after rest) :
    s.Passes rest := by
  have passes := env.reply_passes goal effects s
  rw [came] at passes
  exact passes

/-- A variable keeps its value unless an assignment to it is passed. -/
theorem get?_reply_or_assigned (goal : Goal) (effects : Effects) (s : Cursor)
    (name : String) :
    (env.reply goal effects s).effects.vars.get? name =
        effects.vars.get? name ∨
      ∃ body, .name name :: .assign :: body <:+ s ∧
        (env.reply goal effects s).rest <:+ body := by
  refine (env.progress_induction
    (fun before s after rest => rest <:+ s ∧
      (after.vars.get? name = before.vars.get? name ∨
        ∃ body, .name name :: .assign :: body <:+ s ∧ rest <:+ body))
    ?trans (fun _ _ => ⟨List.suffix_rfl, .inl rfl⟩)
    (fun _ _ _ _ _ => ⟨List.suffix_cons _ _, .inl rfl⟩)
    (fun _ _ _ _ _ => ⟨List.suffix_cons _ _, .inl rfl⟩)
    (fun _ _ _ _ _ => ⟨List.suffix_cons _ _, .inl rfl⟩)
    (fun _ _ _ _ _ => ⟨List.suffix_cons _ _, .inl rfl⟩)
    (fun _ _ _ _ _ _ => ⟨List.suffix_cons _ _, .inl rfl⟩)
    ?declare ?assign goal effects s).2
  case trans =>
    rintro e s e' s' e'' s'' ⟨suffix, first⟩ ⟨suffix', second⟩
    refine ⟨suffix'.trans suffix, ?_⟩
    rcases second with same | ⟨body, target, inside⟩
    · rcases first with same' | ⟨body, target, inside⟩
      · exact .inl (same.trans same')
      · exact .inr ⟨body, target, suffix'.trans inside⟩
    · exact .inr ⟨body, target.trans suffix, inside⟩
  case declare =>
    intro other effects body _
    refine ⟨(List.suffix_cons _ _).trans (List.suffix_cons _ _), ?_⟩
    by_cases same : name = other
    · subst same
      exact .inr ⟨body, List.suffix_rfl, List.suffix_rfl⟩
    · refine .inl ((effects.vars.get?_declare other name).trans ?_)
      exact if_neg fun h => same h.1
  case assign =>
    rintro other effects body after rest v _ ⟨suffix, kept⟩
    have whole : body <:+ .name other :: .assign :: body :=
      (List.suffix_cons _ _).trans (List.suffix_cons _ _)
    refine ⟨suffix.trans whole, ?_⟩
    by_cases same : name = other
    · subst same
      exact .inr ⟨body, List.suffix_rfl, suffix⟩
    · rw [Variables.get?_set, if_neg same]
      rcases kept with same_value | ⟨inner, target, inside⟩
      · rw [Variables.get?_declare, if_neg fun h => same h.1] at same_value
        exact .inl same_value
      · exact .inr ⟨inner, target.trans whole, inside⟩

/-- A variable whose value has changed was assigned on the way. -/
theorem assigned_of_get?_ne {goal : Goal} {effects : Effects} {s : Cursor}
    {name : String}
    (changed : (env.reply goal effects s).effects.vars.get? name ≠
      effects.vars.get? name) :
    [.name name, .assign] <:+: s.passed (env.reply goal effects s).rest := by
  rcases env.get?_reply_or_assigned goal effects s name with
    same | ⟨body, target, inside⟩
  · exact absurd same changed
  · exact @Cursor.infix_passed [.name name, .assign] _ _ _ target inside

/-- What has changed a variable stands in the statement. -/
theorem mentioned_of_get?_ne {goal : Goal} {effects : Effects} {s : Cursor}
    {name : String}
    (changed : (env.reply goal effects s).effects.vars.get? name ≠
      effects.vars.get? name) :
    [.name name, .assign] ⊆ s.statement := by
  have assigned := env.assigned_of_get?_ne changed
  have inside := (env.reply_passes goal effects s).passed_front
  exact List.Subset.trans assigned.subset inside.subset

/-- A variable keeps its value if the statement does not mention it. -/
theorem get?_reply_of_unmentioned {s : Cursor} {name : String}
    (unmentioned : .name name ∉ s.statement) (goal : Goal)
    (effects : Effects) :
    (env.reply goal effects s).effects.vars.get? name =
      effects.vars.get? name := by
  by_contra changed
  exact unmentioned (env.mentioned_of_get?_ne changed List.mem_cons_self)

/-- Every variable keeps its value if the statement assigns nothing. -/
theorem get?_reply_of_no_assign {s : Cursor}
    (no_assign : .assign ∉ s.statement) (goal : Goal) (effects : Effects)
    (name : String) :
    (env.reply goal effects s).effects.vars.get? name =
      effects.vars.get? name := by
  by_contra changed
  have second : Token.assign ∈ [.name name, .assign] :=
    List.mem_cons_of_mem _ List.mem_cons_self
  exact no_assign (env.mentioned_of_get?_ne changed second)

end Environment

/-- An evaluation passes tokens of the statement that it begins in. -/
theorem Context.evaluate_passes (context : Context) (lookahead : Lookahead)
    (s : Cursor) :
    (lookahead.start s).Passes (context.evaluate lookahead s).rest :=
  context.toEnvironment.reply_passes (.level .sum) context.effects _

end Reckoner
