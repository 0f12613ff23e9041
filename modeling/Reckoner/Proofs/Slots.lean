/-
# Slots that stay right

An assignment takes the slot of its target, evaluates its right side and
stores through the slot afterwards.  By then the table may have grown: the
right side can assign other names.  What carries the argument is that a table
only grows at its end, so that the names of an earlier table are a prefix of
the names of any later one, and a name's place in a prefix is its place in
the whole.
-/
import Reckoner.Proofs.Reply

namespace Reckoner

namespace Variables

/-- The names of a table in the order of their slots. -/
def names (vars : Variables) : List String := vars.entries.map Prod.fst

theorem slot_eq_idxOf (vars : Variables) (name : String) :
    vars.slot name = vars.names.idxOf name := by
  simp [slot, names, List.idxOf, List.findIdx_map, Function.comp_def]

theorem contains_iff_mem_names (vars : Variables) (name : String) :
    vars.contains name = true ↔ name ∈ vars.names := by
  simp only [contains, get?, names]
  induction vars.entries with
  | nil => simp
  | cons entry rest ih =>
      obtain ⟨key, v⟩ := entry
      by_cases here : name = key
      · simp [here]
      · simp [List.lookup_cons, beq_false_of_ne here, here, ih]

theorem names_store (vars : Variables) (slot : Nat) (v : Float) :
    (vars.store slot v).names = vars.names := by
  simp only [names, store]
  refine List.ext_getElem? fun i => ?_
  simp only [List.getElem?_map, List.getElem?_modify]
  split
  · cases vars.entries[i]? <;> rfl
  · cases vars.entries[i]? <;> rfl

theorem names_declare (vars : Variables) (name : String) :
    (vars.declare name).names =
      if name ∈ vars.names then vars.names else vars.names ++ [name] := by
  simp only [declare, ← contains_iff_mem_names]
  split
  · rfl
  · simp [names]

theorem names_prefix_declare (vars : Variables) (name : String) :
    vars.names <+: (vars.declare name).names := by
  rw [names_declare]
  split
  · exact List.prefix_rfl
  · exact List.prefix_append _ _

theorem mem_names_declare (vars : Variables) (name : String) :
    name ∈ (vars.declare name).names := by
  rw [names_declare]
  split
  · assumption
  · exact List.mem_append_right _ (List.mem_singleton.mpr rfl)

theorem slot_declare (vars : Variables) (name : String) :
    (vars.declare name).slot name = vars.slot name := by
  simp only [slot_eq_idxOf, names_declare]
  split
  · rfl
  · rename_i fresh
    rw [List.idxOf_append_of_notMem fresh, List.idxOf_of_notMem fresh]
    simp

/-- A known name keeps its slot when names are added behind it. -/
theorem slot_of_grown {vars later : Variables} {name : String}
    (grown : vars.names <+: later.names) (known : name ∈ vars.names) :
    later.slot name = vars.slot name := by
  obtain ⟨added, eq⟩ := grown
  rw [slot_eq_idxOf, slot_eq_idxOf, ← eq, List.idxOf_append_of_mem known]

/-- A declared name is set by storing through the slot it was declared at,
however the table has grown since. -/
theorem store_slot_eq_set {vars later : Variables} {name : String}
    (grown : (vars.declare name).names <+: later.names) (v : Float) :
    later.store (vars.slot name) v = later.set name v := by
  have known : name ∈ later.names := grown.subset (vars.mem_names_declare name)
  have declared : later.declare name = later := by
    simp only [declare, (later.contains_iff_mem_names name).mpr known, if_true]
  have held : later.slot name = vars.slot name := by
    rw [slot_of_grown grown (vars.mem_names_declare name),
      slot_declare]
  rw [set, declared, held]

/-- Setting a name changes that name only. -/
theorem get?_set (vars : Variables) (name other : String) (v : Float) :
    (vars.set name v).get? other =
      if other = name then some v else vars.get? other := by
  have known : (vars.declare name).contains name = true :=
    (contains_iff_mem_names _ _).mpr (vars.mem_names_declare name)
  rw [set, ← slot_declare, get?_store_slot _ _ _ _ known, get?_declare]
  by_cases same : other = name
  · rw [if_pos same, if_pos same]
  · rw [if_neg same, if_neg same, if_neg (fun h => same h.1)]

end Variables

namespace Environment

/-- An evaluation only adds names, and only behind those already there. -/
theorem names_prefix_reply (env : Environment) (goal : Goal)
    (effects : Effects) (s : Cursor) :
    effects.vars.names <+: (env.reply goal effects s).effects.vars.names := by
  refine env.effects_induction
    (fun before after => before.vars.names <+: after.vars.names)
    (fun first next => first.trans next) (fun _ => List.prefix_rfl)
    (fun _ _ _ _ => List.prefix_rfl) (fun _ _ _ _ => List.prefix_rfl)
    (fun name effects _ => effects.vars.names_prefix_declare name)
    (fun name effects after v _ _ => ?_) goal effects s
  rw [Variables.names_store]

/-- An assignment sets its target, whatever its right side has done to the
table. -/
theorem reply_assign_set {env : Environment} {name : String}
    (bound : env.binding name = .variable) (effects : Effects)
    (body : Cursor) :
    env.reply .primary effects (.name name :: .assign :: body) =
      (env.reply (.level .sum)
          { effects with vars := effects.vars.declare name } body).andThen
        fun v after rest =>
          .value v { after with vars := after.vars.set name v } rest := by
  rw [env.reply_assign bound]
  have grown := env.names_prefix_reply (.level .sum)
    { effects with vars := effects.vars.declare name } body
  refine Reply.andThen_congr ?_
  intro v after rest came
  rw [came] at grown
  have grown : (effects.vars.declare name).names <+: after.vars.names := grown
  rw [Variables.store_slot_eq_set grown]

end Environment

end Reckoner
