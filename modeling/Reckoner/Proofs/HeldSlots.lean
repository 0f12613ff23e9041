/-
# Slots held across an evaluation

An assignment takes the slot of its target, evaluates its right side and
stores through the slot afterwards.  So an evaluation is a user of the table
like any other, and what has to be seen is that it keeps to its ledger: the
slot that it stores through was handed out, and the table has not been
emptied since.

One table **leads** to another if whoever has the first can come to the
second by operations that the ledger allows, with no slot going out of the
ledger.  Every evaluation leads from the table before it to the table after
it, and so does every chain of calls to a part of it.
-/
import Reckoner.Proofs.Calls
import Reckoner.Proofs.Progress
import Reckoner.Proofs.SlotTable
import Reckoner.Proofs.Statements

namespace Reckoner

/-- Whoever has the first table can come to the second one by operations that
the ledger allows, and no slot goes out of the ledger. -/
def Variables.Leads (vars later : Variables) : Prop :=
  ∀ tables : Tables, tables.Consistent → tables.vars = vars →
    ∃ next, tables.Steps next ∧ next.vars = later ∧
      tables.ledger.issued ⊆ next.ledger.issued

namespace Variables.Leads

theorem refl (vars : Variables) : vars.Leads vars :=
  fun tables _ here => ⟨tables, .refl, here, List.Subset.refl _⟩

theorem trans {first second third : Variables} (a : first.Leads second)
    (b : second.Leads third) : first.Leads third := by
  intro tables consistent here
  obtain ⟨middle, steps, there, kept⟩ := a tables consistent here
  obtain ⟨next, steps', arrived, kept'⟩ :=
    b middle (consistent.of_steps steps) there
  exact ⟨next, steps.trans steps', arrived, List.Subset.trans kept kept'⟩

theorem declare (vars : Variables) (name : String) :
    vars.Leads (vars.declare name) := by
  intro tables consistent here
  obtain ⟨next, step, -, there, recorded⟩ :=
    consistent.step (.slot name) trivial
  refine ⟨next, .single ⟨_, step⟩, here ▸ there, ?_⟩
  rw [recorded]
  exact List.subset_cons_self _ _

/-- A slot that is taken before the right side of an assignment is in the
ledger after it, and is then still the slot of its name. -/
theorem held {vars later : Variables} {name : String}
    (body : (vars.declare name).Leads later) {tables : Tables}
    (consistent : tables.Consistent) (here : tables.vars = vars) :
    ∃ first next, Tables.Step (.slot name) tables first ∧ first.Steps next ∧
      next.vars = later ∧ next.Consistent ∧
      (name, vars.slot name) ∈ next.ledger.issued ∧
      tables.ledger.issued ⊆ next.ledger.issued := by
  subst here
  obtain ⟨first, step, consistent', there, recorded⟩ :=
    consistent.step (.slot name) trivial
  obtain ⟨next, steps, arrived, kept⟩ := body first consistent' there
  have issued : first.ledger.issued =
      (name, tables.vars.slot name) :: tables.ledger.issued :=
    congrArg Ledger.issued recorded
  rw [issued] at kept
  obtain ⟨now, before⟩ := List.cons_subset.mp kept
  exact ⟨first, next, step, steps, arrived, consistent'.of_steps steps, now,
    before⟩

/-- The store of an assignment is allowed. -/
theorem assign {vars later : Variables} {name : String}
    (body : (vars.declare name).Leads later) (v : Float) :
    vars.Leads (later.set name v) := by
  intro tables consistent here
  obtain ⟨first, next, step, steps, rfl, consistent', now, before⟩ :=
    body.held consistent here
  obtain ⟨last, store, -, stored, recorded⟩ :=
    consistent'.step (.store (vars.slot name) v) ⟨name, now⟩
  refine ⟨last, (Relation.ReflTransGen.head ⟨_, step⟩ steps).tail ⟨_, store⟩,
    ?_, ?_⟩
  · obtain ⟨known, same⟩ := consistent'.issued name _ now
    rw [stored, ← Variables.store_slot_of_mem known v, same]
    rfl
  · rw [recorded]
    exact (next.ledger.issued_record_store _ v _).symm ▸ before

end Variables.Leads

namespace Environment

variable (env : Environment)

/-- What an evaluation does to the table is done by such operations. -/
theorem leads_reply (goal : Goal) (effects : Effects) (s : Cursor) :
    effects.vars.Leads (env.reply goal effects s).effects.vars := by
  refine env.progress_induction
    (fun before _ after _ => before.vars.Leads after.vars)
    (fun first second => first.trans second) (fun _ _ => .refl _)
    (fun _ _ _ _ _ => .refl _) (fun _ _ _ _ _ => .refl _)
    (fun _ _ _ _ _ => .refl _) (fun _ _ _ _ _ => .refl _)
    (fun _ _ _ _ _ _ => .refl _) (fun name effects _ _ => .declare _ name)
    (fun _ _ _ _ _ v _ body => body.assign v) goal effects s

variable {env} in
theorem leads_of_reply {goal : Goal} {effects after : Effects}
    {s rest : Cursor} {v : Float}
    (came : env.reply goal effects s = .value v after rest) :
    effects.vars.Leads after.vars := by
  have leads := env.leads_reply goal effects s
  rw [came] at leads
  exact leads

/-- Every task on the way has its table from such operations. -/
theorem leads_of_calls {task next : Task} (calls : env.Calls task next) :
    task.effects.vars.Leads next.effects.vars := by
  cases calls with
  | operand => exact .refl _
  | more came => exact leads_of_reply came
  | right here => exact .refl _
  | moreAgain here came applied => exact leads_of_reply came
  | primary => exact .refl _
  | moreUnary came => exact leads_of_reply came
  | next here => exact .refl _
  | unaryAgain here came => exact leads_of_reply came
  | argument bound => exact .refl _
  | body bound => exact .declare _ _
  | inside => exact .refl _

theorem leads_of_chain {task next : Task}
    (chain : Relation.ReflTransGen env.Calls task next) :
    task.effects.vars.Leads next.effects.vars := by
  induction chain with
  | refl => exact .refl _
  | tail _ calls ih => exact ih.trans (env.leads_of_calls calls)

end Environment

/-! ## Contexts -/

namespace Context

/-- The contexts that the constructors, evaluations, resets and the holder of
a context lead to.  The holder may change everything but the table at will,
and the table by operations that the ledger allows. -/
inductive Reached : Context → Prop
  | bare (history : History) : Reached (bare history)
  | withHistory (history : History) : Reached (withHistory history)
  | evaluate {context : Context} (lookahead : Lookahead) (s : Cursor) :
      Reached context → Reached (context.evaluate lookahead s).context
  | reset {context : Context} : Reached context → Reached context.reset
  | configure {context : Context} (env : Environment) (requests : Requests) :
      Reached context →
      Reached { toEnvironment := env, vars := context.vars, requests }
  | operate {context : Context} {tables next : Tables}
      {op : Variables.Operation} :
      Reached context → tables.Reached → tables.vars = context.vars →
      Tables.Step op tables next → Reached { context with vars := next.vars }

theorem exists_reached_seedConstants {tables : Tables}
    (reached : tables.Reached) :
    ∃ next : Tables, next.Reached ∧ next.vars = seedConstants tables.vars := by
  unfold seedConstants
  generalize Builtin.constants = constants
  induction constants generalizing tables with
  | nil => exact ⟨tables, reached, rfl⟩
  | cons constant rest ih =>
      obtain ⟨name, v⟩ := constant
      obtain ⟨next, step, -, there, -⟩ :=
        reached.consistent.step (.set name v) trivial
      obtain ⟨last, reached', arrived⟩ := ih (.tail reached ⟨_, step⟩)
      rw [there] at arrived
      exact ⟨last, reached', arrived⟩

/-- The table of a context is one that operations have led to. -/
theorem Reached.exists_tables {context : Context} (reached : context.Reached) :
    ∃ tables : Tables, tables.Reached ∧ tables.vars = context.vars := by
  induction reached with
  | bare history => exact ⟨.empty, .refl, rfl⟩
  | withHistory history => exact exists_reached_seedConstants .refl
  | @evaluate context lookahead s _ ih =>
      obtain ⟨tables, reached, here⟩ := ih
      obtain ⟨next, steps, there, -⟩ :=
        context.toEnvironment.leads_reply (.level .sum) context.effects
          (lookahead.start s) tables reached.consistent here
      exact ⟨next, reached.trans steps, there⟩
  | reset _ ih => exact exists_reached_seedConstants .refl
  | configure env requests _ ih => exact ih
  | operate _ reached here step => exact ⟨_, .tail reached ⟨_, step⟩, rfl⟩

end Context

namespace Session

theorem reached_runStatement {session : Session}
    (reached : session.context.Reached) (s : Cursor) :
    (session.runStatement s).session.context.Reached := by
  have after : (session.context.after
      (session.context.reply s).effects).Reached :=
    reached.evaluate .positioned s
  rcases (session.context.reply s).value_or_failure with
    ⟨v, effects, rest, came⟩ | ⟨error, effects, rest, came⟩
  · rw [runStatement_of_value came]
    rw [came] at after
    split
    · exact after.configure
        { session.context.toEnvironment with
          history := session.context.history.push v } effects.requests
    · exact after
  · rw [runStatement_of_failure came]
    rw [came] at after
    exact after

theorem reached_runStatements {session : Session}
    (reached : session.context.Reached) (s : Cursor) :
    (session.runStatements s).2.context.Reached := by
  revert reached
  induction session, s using runStatements_induction with
  | nil session =>
      intro reached
      rw [runStatements_nil]
      exact reached
  | finish session rest =>
      intro reached
      rw [runStatements_finish]
      exact reached
  | separator session tail ih =>
      intro reached
      rw [runStatements_separator]
      exact ih reached
  | failed session token tail begins failed =>
      intro reached
      rw [runStatements_failed begins failed]
      exact reached_runStatement reached _
  | succeeded session token tail begins succeeded ih =>
      intro reached
      rw [runStatements_succeeded begins succeeded]
      exact ih (reached_runStatement reached _)

theorem reached_applyRequests {session : Session}
    (reached : session.context.Reached) :
    session.applyRequests.context.Reached := by
  have acted := reached.configure session.context.toEnvironment .none
  show Context.Reached (if session.context.requests.clear then _ else _)
  split
  · exact acted.reset
  · exact acted

theorem reached_runLine {session : Session}
    (reached : session.context.Reached) (line : String) :
    (session.runLine line).2.context.Reached := by
  cases cut : tokenize line with
  | error cause =>
      rw [runLine_error cut]
      exact reached
  | ok tokens =>
      rw [runLine_ok cut]
      exact reached_applyRequests (reached_runStatements reached tokens)

/-- Every context that a session has is a reached one. -/
theorem reached_runLines (settings : Settings) (lines : List String) :
    ((ofSettings settings).runLines lines).2.context.Reached := by
  have fresh : (ofSettings settings).context.Reached :=
    (Context.Reached.withHistory (.ofCapacity settings.capacity)).configure
      { (Context.withHistory (.ofCapacity settings.capacity)).toEnvironment with
        policy := settings.policy } .none
  generalize ofSettings settings = session at fresh
  induction lines generalizing session with
  | nil => exact fresh
  | cons line rest ih => exact ih _ (reached_runLine fresh line)

end Session

namespace Tables

/-- **The table is a map, and held slots never dangle.**  After any
operations on an empty table, of which each store went through a slot that
had been handed out since the table was last emptied, no such operation is
out of range, and all are answered as by a finite map.  A slot that was
handed out is still the slot of its name, two of them are the same just if
their names are, and a store through one changes the value of its name only.

An evaluation in a context is such a user.  At every assignment on its way
the slot of the target is handed out, the right side goes on with allowed
operations, and when it has come to a value, the slot is the target's still
and the store through it is allowed. -/
theorem held_slots :
    (∀ tables : Tables, tables.Reached →
      (∀ op, tables.ledger.Allows op →
        ∃ parts,
          tables.parts.perform op = some ((tables.vars.perform op).1, parts) ∧
          tables.ledger.Expects op (tables.vars.perform op).1) ∧
      ∀ name slot, (name, slot) ∈ tables.ledger.issued →
        tables.vars.slot name = slot ∧
        (∀ other held, (other, held) ∈ tables.ledger.issued →
          (slot = held ↔ name = other)) ∧
        ∀ v, ∃ after, tables.parts.store slot v = some (v, after) ∧
          ∀ other, after.get other =
            some (if other = name then some v else tables.vars.get? other)) ∧
    (∀ context : Context, context.Reached →
      ∃ tables : Tables, tables.Reached ∧ tables.vars = context.vars) ∧
    (∀ settings lines,
      ((Session.ofSettings settings).runLines lines).2.context.Reached) ∧
    ∀ (context : Context) (tables : Tables), tables.Reached →
      tables.vars = context.vars →
      ∀ (lookahead : Lookahead) (s body : Cursor) (name : String)
        (effects : Effects),
        context.binding name = .variable →
        Relation.ReflTransGen context.Calls
          ⟨.level .sum, context.effects, lookahead.start s⟩
          ⟨.primary, effects, .name name :: .assign :: body⟩ →
        ∃ before first held,
          tables.Steps before ∧ before.vars = effects.vars ∧
          Step (.slot name) before first ∧ first.Steps held ∧
          ∀ v after rest,
            context.toEnvironment.reply (.level .sum)
                { effects with vars := effects.vars.declare name } body =
              .value v after rest →
            held.vars = after.vars ∧
            held.vars.slot name = before.vars.slot name ∧
            ∃ last, Step (.store (before.vars.slot name) v) held last ∧
              context.toEnvironment.reply .primary effects
                  (.name name :: .assign :: body) =
                .value v { after with vars := last.vars } rest := by
  refine ⟨?_, ?_, Session.reached_runLines, ?_⟩
  · intro tables reached
    have consistent := reached.consistent
    refine ⟨?_, ?_⟩
    · intro op allowed
      obtain ⟨parts, done, expected, -⟩ := consistent.progress allowed
      exact ⟨parts, done, expected⟩
    · intro name slot held
      obtain ⟨known, rfl⟩ := consistent.issued name slot held
      refine ⟨rfl, ?_, ?_⟩
      · intro other index given
        exact consistent.slot_inj held given
      · intro v
        obtain ⟨after, done, same⟩ := consistent.represents.store known v
        refine ⟨after, done, ?_⟩
        intro other
        have known := (Variables.contains_iff_mem_names _ _).mpr known
        rw [same.get, Variables.get?_store_slot _ _ _ _ known]
  · intro context reached
    exact reached.exists_tables
  · intro context tables reached here lookahead s body name effects bound chain
    obtain ⟨before, steps, arrived, -⟩ :=
      context.leads_of_chain chain tables reached.consistent here
    have consistent := reached.consistent.of_steps steps
    obtain ⟨first, held, step, steps', there, consistent', now, -⟩ :=
      (context.leads_reply (.level .sum)
        { effects with vars := effects.vars.declare name } body).held
        consistent arrived
    refine ⟨before, first, held, steps, arrived, step, steps', ?_⟩
    intro v after rest came
    rw [came] at there
    obtain ⟨known, same⟩ := consistent'.issued _ _ now
    rw [arrived]
    obtain ⟨last, store, -, stored, -⟩ :=
      consistent'.step (.store (effects.vars.slot name) v) ⟨name, now⟩
    refine ⟨there, same, last, store, ?_⟩
    rw [context.reply_assign bound, came, stored, there]
    rfl

theorem held_slots_nested :
    let context := Context.bare (.ofCapacity 0)
    let body : Cursor := [.name "y", .assign, .number 2, .finish]
    ∃ before first held last,
      before.Reached ∧ before.vars = .empty ∧ Step (.slot "x") before first ∧
      first.Steps held ∧ held.vars = ⟨[("x", 0), ("y", 2)]⟩ ∧
      (∃ parts, held.parts.perform (.get "y") = some (some 2, parts)) ∧
      Step (.store 0 2) held last ∧
      (context.toEnvironment.reply .primary context.effects
        (.name "x" :: .assign :: body)).effects.vars = last.vars := by
  intro context body
  let effects : Effects :=
    { context.effects with vars := context.vars.declare "x" }
  let reply := context.toEnvironment.reply (.level .sum) effects body
  have result : reply.result = .ok 2 := by decide +kernel
  have vars : reply.effects.vars = ⟨[("x", 0), ("y", 2)]⟩ := by decide +kernel
  have came : reply = .value 2 reply.effects reply.rest := by
    rw [Reply.value, ← result]
  have chain : Relation.ReflTransGen context.Calls
      ⟨.level .sum, context.effects, .name "x" :: .assign :: body⟩
      ⟨.primary, context.effects, .name "x" :: .assign :: body⟩ :=
    .tail (.tail (.tail (.tail .refl .operand) .operand) .operand) .primary
  obtain ⟨before, first, held, steps, there, step, steps', assigned⟩ :=
    held_slots.2.2.2 context empty .refl rfl .positioned _ body "x" _ rfl chain
  obtain ⟨arrived, -, last, store, whole⟩ := assigned 2 _ _ came
  have reached : held.Reached :=
    (Relation.ReflTransGen.tail steps ⟨_, step⟩).trans steps'
  obtain ⟨parts, answer, -⟩ := (held_slots.1 held reached).1 (.get "y") trivial
  rw [vars] at arrived
  have slot : before.vars.slot "x" = 0 := by rw [there]; rfl
  rw [slot] at store
  refine ⟨before, first, held, last, steps, there, step, steps', arrived,
    ⟨parts, ?_⟩, store, ?_⟩
  · rw [answer, arrived]
    rfl
  · rw [whole]
    rfl

end Tables

end Reckoner
