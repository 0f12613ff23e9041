/-
# The table as a map beside a vector

`Variables` keeps each name with its value, so the two cannot come apart.
The table it stands for has them apart: a map from names to slots, and a
vector of values that is indexed by slots.  Nothing but the order of the
operations keeps the two in step, and an index may run out of range.

Here both are run side by side, together with a **ledger** that has seen only
the operations and their answers: a finite map of the values it takes to be
there, and the slots handed out since the table was last emptied.  A store is
allowed through a slot of the ledger only.  Then no access is out of range,
the two tables answer alike, and they answer what the ledger expects
(`Consistent.progress`).
-/
import Reckoner.Proofs.Slots

namespace Reckoner

namespace Variables

/-- What can be asked of a table. -/
inductive Operation where
  | slot (name : String)
  | set (name : String) (v : Float)
  | store (slot : Nat) (v : Float)
  | get (name : String)
  | contains (name : String)
  | clear

/-- What an operation answers with. -/
abbrev Operation.Result : Operation → Type
  | slot _ => Nat
  | set _ _ => Float
  | store _ _ => Float
  | get _ => Option Float
  | contains _ => Bool
  | clear => Unit

/-- Does an operation on the list of names and values. -/
def perform (vars : Variables) : (op : Operation) → op.Result × Variables
  | .slot name => (vars.slot name, vars.declare name)
  | .set name v => (v, vars.set name v)
  | .store slot v => (v, vars.store slot v)
  | .get name => (vars.get? name, vars)
  | .contains name => (vars.contains name, vars)
  | .clear => ((), .empty)

/-! ## Values by slot -/

/-- The values of a table in the order of their slots. -/
def values (vars : Variables) : List Float := vars.entries.map Prod.snd

theorem length_values (vars : Variables) :
    vars.values.length = vars.names.length := by
  simp [values, names]

/-- A name's value is the one in its slot, and an unknown name's slot is out
of range. -/
theorem get?_eq_getElem?_slot (vars : Variables) (name : String) :
    vars.get? name = vars.values[vars.slot name]? := by
  obtain ⟨entries⟩ := vars
  simp only [get?, values, slot]
  induction entries with
  | nil => rfl
  | cons entry rest ih =>
      obtain ⟨key, v⟩ := entry
      by_cases here : key = name
      · simp [here, List.findIdx_cons]
      · simp [List.lookup_cons, List.findIdx_cons, beq_false_of_ne here,
          beq_false_of_ne (Ne.symm here), ih]

theorem slot_lt_length {vars : Variables} {name : String}
    (known : name ∈ vars.names) : vars.slot name < vars.values.length := by
  rw [slot_eq_idxOf, length_values]
  exact List.idxOf_lt_length_of_mem known

/-- A new name's slot is the one behind all others. -/
theorem slot_of_notMem {vars : Variables} {name : String}
    (fresh : name ∉ vars.names) : vars.slot name = vars.values.length := by
  rw [slot_eq_idxOf, length_values]
  exact List.idxOf_of_notMem fresh

theorem slot_inj {vars : Variables} {name other : String}
    (known : name ∈ vars.names) :
    vars.slot name = vars.slot other ↔ name = other := by
  rw [slot_eq_idxOf, slot_eq_idxOf]
  exact List.idxOf_inj known

theorem values_store (vars : Variables) (slot : Nat) (v : Float) :
    (vars.store slot v).values = vars.values.set slot v := by
  refine List.ext_getElem? fun i => ?_
  simp only [values, store, List.getElem?_map, List.getElem?_modify,
    List.getElem?_set]
  by_cases here : slot = i
  · subst here
    by_cases inside : slot < vars.entries.length <;> simp [inside]
  · simp [here]

theorem values_declare (vars : Variables) (name : String) :
    (vars.declare name).values =
      if name ∈ vars.names then vars.values else vars.values ++ [0] := by
  simp only [declare, ← contains_iff_mem_names]
  split
  · rfl
  · simp [values]

/-- A known name is set through its slot. -/
theorem store_slot_of_mem {vars : Variables} {name : String}
    (known : name ∈ vars.names) (v : Float) :
    vars.store (vars.slot name) v = vars.set name v := by
  refine store_slot_eq_set ?_ v
  rw [names_declare, if_pos known]

end Variables

/-! ## A map and a vector -/

/-- A table in two parts. -/
structure SlotTable where
  slots : Std.HashMap String Nat
  values : Array Float

namespace SlotTable

open Variables (Operation)

/-- No variables. -/
def empty : SlotTable := ⟨∅, #[]⟩

/-- The slot of a name; a new name is given the slot behind all others, and
zero in it. -/
def slot (table : SlotTable) (name : String) : Nat × SlotTable :=
  match table.slots[name]? with
  | some slot => (slot, table)
  | none =>
    let slot := table.values.size
    (slot, ⟨table.slots.insert name slot, table.values.push 0⟩)

/-- Puts a value into a slot.  A slot that is out of range gives no table. -/
def store (table : SlotTable) (slot : Nat) (v : Float) :
    Option (Float × SlotTable) :=
  if inside : slot < table.values.size then
    some (v, { table with values := table.values.set slot v })
  else none

/-- Gives a name a value. -/
def set (table : SlotTable) (name : String) (v : Float) :
    Option (Float × SlotTable) :=
  let (slot, table) := table.slot name
  table.store slot v

/-- The value of a name.  A slot that is out of range gives no answer. -/
def get (table : SlotTable) (name : String) : Option (Option Float) :=
  match table.slots[name]? with
  | some slot => table.values[slot]?.map some
  | none => some none

/-- Does an operation on both parts; an access out of range gives nothing. -/
def perform (table : SlotTable) :
    (op : Operation) → Option (op.Result × SlotTable)
  | .slot name => some (table.slot name)
  | .set name v => table.set name v
  | .store slot v => table.store slot v
  | .get name => (table.get name).map fun found => (found, table)
  | .contains name => some (table.slots.contains name, table)
  | .clear => some ((), empty)

/-- The two parts hold what the list of names and values holds. -/
structure Represents (table : SlotTable) (vars : Variables) : Prop where
  slots : ∀ name, table.slots[name]? =
    if name ∈ vars.names then some (vars.slot name) else none
  values : table.values.toList = vars.values

theorem empty_represents : empty.Represents .empty where
  slots name := by simp [empty, Variables.empty, Variables.names]
  values := rfl

namespace Represents

variable {table : SlotTable} {vars : Variables}

theorem size_values (same : table.Represents vars) :
    table.values.size = vars.values.length := by
  rw [← same.values, Array.length_toList]

/-- A slot is handed out as the list hands it out. -/
theorem slot (same : table.Represents vars) (name : String) :
    (table.slot name).1 = vars.slot name ∧
      (table.slot name).2.Represents (vars.declare name) := by
  unfold SlotTable.slot
  rw [same.slots name]
  by_cases known : name ∈ vars.names
  · have declared : vars.declare name = vars := by
      simp only [Variables.declare,
        (vars.contains_iff_mem_names name).mpr known, if_true]
    simp only [if_pos known, declared]
    exact ⟨trivial, same⟩
  · have behind : table.values.size = vars.slot name := by
      rw [same.size_values, Variables.slot_of_notMem known]
    simp only [if_neg known, behind]
    refine ⟨trivial, ?_, ?_⟩
    · intro other
      simp only [Std.HashMap.getElem?_insert, beq_iff_eq, same.slots,
        Variables.names_declare, if_neg known, List.mem_append,
        List.mem_singleton]
      by_cases here : name = other
      · subst here
        simp [Variables.slot_declare]
      · have grown := vars.names_prefix_declare name
        by_cases old : other ∈ vars.names
        · simp [here, old, Variables.slot_of_grown grown old]
        · simp [here, old, Ne.symm here]
    · simp [same.values, Variables.values_declare, known]

/-- A store through the slot of a known name is in range. -/
theorem store (same : table.Represents vars) {name : String}
    (known : name ∈ vars.names) (v : Float) :
    ∃ after, table.store (vars.slot name) v = some (v, after) ∧
      after.Represents (vars.store (vars.slot name) v) := by
  have inside : vars.slot name < table.values.size := by
    rw [same.size_values]
    exact Variables.slot_lt_length known
  refine ⟨_, dif_pos inside, ?_, ?_⟩
  · intro other
    simp only [same.slots, Variables.names_store, Variables.slot_eq_idxOf]
  · simp only [Array.toList_set, same.values, Variables.values_store]

theorem set (same : table.Represents vars) (name : String) (v : Float) :
    ∃ after, table.set name v = some (v, after) ∧
      after.Represents (vars.set name v) := by
  obtain ⟨handed, declared⟩ := same.slot name
  have stored := declared.store (vars.mem_names_declare name) v
  rw [Variables.slot_declare] at stored
  simp only [SlotTable.set, handed]
  exact stored

/-- The slot of every name in the map is in range. -/
theorem get (same : table.Represents vars) (name : String) :
    table.get name = some (vars.get? name) := by
  simp only [SlotTable.get, same.slots]
  by_cases known : name ∈ vars.names
  · have inside := Variables.slot_lt_length known
    simp only [if_pos known, ← Array.getElem?_toList, same.values,
      Variables.get?_eq_getElem?_slot, List.getElem?_eq_getElem inside]
    rfl
  · have missing : vars.get? name = none := by
      rw [Variables.get?_eq_getElem?_slot, Variables.slot_of_notMem known]
      exact List.getElem?_eq_none (Nat.le_refl _)
    simp only [if_neg known, missing]

theorem contains (same : table.Represents vars) (name : String) :
    table.slots.contains name = vars.contains name := by
  rw [Std.HashMap.contains_eq_isSome_getElem?, same.slots, Bool.eq_iff_iff,
    Variables.contains_iff_mem_names]
  split
  · simp [*]
  · simp [*]

end Represents

end SlotTable

/-! ## What a user of the table knows -/

/-- The values that the operations so far have put there, and the slots that
were handed out, with their names, since the table was last emptied. -/
structure Ledger where
  values : Finmap fun _ : String => Float
  issued : List (String × Nat)

namespace Ledger

open Variables (Operation)

/-- Nothing is known. -/
def empty : Ledger := ⟨∅, []⟩

/-- A store is allowed through a slot that was handed out. -/
def Allows (ledger : Ledger) : Operation → Prop
  | .store slot _ => ∃ name, (name, slot) ∈ ledger.issued
  | _ => True

/-- Enters an operation and its answer.  A first slot or value makes a name
defined; a store changes the name that its slot was handed out for. -/
def record (ledger : Ledger) : (op : Operation) → op.Result → Ledger
  | .slot name, slot =>
    { values :=
        if name ∈ ledger.values then ledger.values
        else ledger.values.insert name 0
      issued := (name, slot) :: ledger.issued }
  | .set name v, _ => { ledger with values := ledger.values.insert name v }
  | .store slot v, _ =>
    match ledger.issued.find? fun held => held.2 == slot with
    | some (name, _) =>
      { ledger with values := ledger.values.insert name v }
    | none => ledger
  | .get _, _ => ledger
  | .contains _, _ => ledger
  | .clear, _ => empty

/-- The answers that a finite map would give; and the same slot for the same
name, another one for another name. -/
def Expects (ledger : Ledger) : (op : Operation) → op.Result → Prop
  | .slot name, slot =>
    ∀ other held, (other, held) ∈ ledger.issued → (slot = held ↔ name = other)
  | .set _ v, result => result = v
  | .store _ v, result => result = v
  | .get name, found => found = ledger.values.lookup name
  | .contains name, known => known = true ↔ name ∈ ledger.values
  | .clear, _ => True

theorem issued_record_store (ledger : Ledger) (slot : Nat) (v : Float)
    (result : Float) :
    (ledger.record (.store slot v) result).issued = ledger.issued := by
  simp only [record]
  split
  · rfl
  · rfl

theorem lookup_insert (values : Finmap fun _ : String => Float)
    (name other : String) (v : Float) :
    (values.insert name v).lookup other =
      if other = name then some v else values.lookup other := by
  split
  · subst other
    exact Finmap.lookup_insert values
  · exact Finmap.lookup_insert_of_ne values ‹_›

/-- The name that a slot was handed out for is found by the slot. -/
theorem find?_issued {ledger : Ledger} {name : String} {slot : Nat}
    (held : (name, slot) ∈ ledger.issued)
    (only : ∀ other, (other, slot) ∈ ledger.issued → other = name) :
    (ledger.issued.find? fun held => held.2 == slot) = some (name, slot) := by
  cases found : ledger.issued.find? fun held => held.2 == slot with
  | none =>
      have missing := List.find?_eq_none.mp found _ held
      simp at missing
  | some first =>
      obtain ⟨other, index⟩ := first
      have here : index = slot := by simpa using List.find?_some found
      subst here
      rw [only other (List.mem_of_find?_eq_some found)]

end Ledger

/-! ## Operations in a row -/

/-- One table in both forms, and the ledger of its user. -/
structure Tables where
  vars : Variables
  parts : SlotTable
  ledger : Ledger

namespace Tables

open Variables (Operation)

/-- No variables, no slots. -/
def empty : Tables := ⟨.empty, .empty, .empty⟩

/-- An operation that the ledger allows and that is in range. -/
inductive Step (op : Operation) : Tables → Tables → Prop
  | perform {tables : Tables} {result : op.Result} {parts : SlotTable}
      (allowed : tables.ledger.Allows op)
      (done : tables.parts.perform op = some (result, parts)) :
      Step op tables
        ⟨(tables.vars.perform op).2, parts, tables.ledger.record op result⟩

/-- Any number of such operations. -/
abbrev Steps : Tables → Tables → Prop :=
  Relation.ReflTransGen fun tables next => ∃ op, Step op tables next

/-- What operations on an empty table lead to. -/
def Reached (tables : Tables) : Prop := Steps empty tables

/-- The two forms agree with each other and with the ledger, and the slots of
the ledger are those of their names. -/
structure Consistent (tables : Tables) : Prop where
  represents : tables.parts.Represents tables.vars
  lookup : ∀ name, tables.ledger.values.lookup name = tables.vars.get? name
  issued : ∀ name slot, (name, slot) ∈ tables.ledger.issued →
    name ∈ tables.vars.names ∧ tables.vars.slot name = slot

theorem empty_consistent : empty.Consistent where
  represents := SlotTable.empty_represents
  lookup _ := rfl
  issued _ _ held := absurd held List.not_mem_nil

namespace Consistent

variable {tables : Tables}

theorem mem_values (consistent : tables.Consistent) (name : String) :
    name ∈ tables.ledger.values ↔ name ∈ tables.vars.names := by
  rw [← Finmap.lookup_isSome, consistent.lookup,
    ← Variables.contains_iff_mem_names]
  rfl

/-- Two slots of the ledger are the same if their names are. -/
theorem slot_inj (consistent : tables.Consistent) {name other : String}
    {slot held : Nat} (first : (name, slot) ∈ tables.ledger.issued)
    (second : (other, held) ∈ tables.ledger.issued) :
    slot = held ↔ name = other := by
  obtain ⟨known, rfl⟩ := consistent.issued name slot first
  obtain ⟨-, rfl⟩ := consistent.issued other held second
  exact Variables.slot_inj known

/-- Slots of the ledger stay right when names are added to the table. -/
theorem issued_of_grown (consistent : tables.Consistent) {later : Variables}
    (grown : tables.vars.names <+: later.names) {name : String} {slot : Nat}
    (held : (name, slot) ∈ tables.ledger.issued) :
    name ∈ later.names ∧ later.slot name = slot := by
  obtain ⟨known, rfl⟩ := consistent.issued name slot held
  exact ⟨grown.subset known, Variables.slot_of_grown grown known⟩

/-- A slot is handed out: a new name holds zero. -/
theorem slot (consistent : tables.Consistent) (name : String) :
    Consistent ⟨tables.vars.declare name, (tables.parts.slot name).2,
      tables.ledger.record (.slot name) (tables.vars.slot name)⟩ where
  represents := (consistent.represents.slot name).2
  lookup other := by
    simp only [Ledger.record, Variables.get?_declare, ← consistent.lookup,
      Finmap.lookup_eq_none]
    by_cases known : name ∈ tables.ledger.values
    · simp [known]
    · simp [known, Ledger.lookup_insert]
  issued other held given := by
    rcases List.mem_cons.mp given with now | before
    · obtain ⟨rfl, rfl⟩ := Prod.mk.inj now
      exact ⟨tables.vars.mem_names_declare other,
        tables.vars.slot_declare other⟩
    · exact consistent.issued_of_grown (tables.vars.names_prefix_declare name)
        before

/-- A name is set, whatever it held. -/
theorem set (consistent : tables.Consistent) (name : String) (v : Float)
    {after : SlotTable} (same : after.Represents (tables.vars.set name v)) :
    Consistent ⟨tables.vars.set name v, after,
      tables.ledger.record (.set name v) v⟩ where
  represents := same
  lookup other := by
    simp only [Ledger.record, Ledger.lookup_insert, Variables.get?_set,
      consistent.lookup]
  issued other held given := by
    refine consistent.issued_of_grown ?_ given
    rw [Variables.set, Variables.names_store]
    exact tables.vars.names_prefix_declare name

/-- A value is stored through the slot of a name. -/
theorem store (consistent : tables.Consistent) {name : String} {slot : Nat}
    (held : (name, slot) ∈ tables.ledger.issued) (v : Float)
    {after : SlotTable} (same : after.Represents (tables.vars.store slot v)) :
    Consistent ⟨tables.vars.store slot v, after,
      tables.ledger.record (.store slot v) v⟩ := by
  have only : ∀ other, (other, slot) ∈ tables.ledger.issued → other = name :=
    fun other given => (consistent.slot_inj given held).mp rfl
  have recorded : tables.ledger.record (.store slot v) v =
      { tables.ledger with values := tables.ledger.values.insert name v } := by
    simp only [Ledger.record, Ledger.find?_issued held only]
  obtain ⟨known, rfl⟩ := consistent.issued name slot held
  rw [recorded]
  refine ⟨same, ?_, ?_⟩
  · intro other
    have known := (Variables.contains_iff_mem_names _ _).mpr known
    simp only [Ledger.lookup_insert, consistent.lookup,
      Variables.get?_store_slot _ _ _ _ known]
  · intro other index given
    simp only [Variables.names_store, Variables.slot_eq_idxOf]
    simp only [← Variables.slot_eq_idxOf]
    exact consistent.issued other index given

/-- **No operation that the ledger allows is out of range, and each one is
answered as the ledger expects and leaves everything in step.** -/
theorem progress (consistent : tables.Consistent) {op : Operation}
    (allowed : tables.ledger.Allows op) :
    ∃ parts,
      tables.parts.perform op = some ((tables.vars.perform op).1, parts) ∧
      tables.ledger.Expects op (tables.vars.perform op).1 ∧
      Consistent ⟨(tables.vars.perform op).2, parts,
        tables.ledger.record op (tables.vars.perform op).1⟩ := by
  cases op with
  | slot name =>
      have handed := (consistent.represents.slot name).1
      refine ⟨(tables.parts.slot name).2, congrArg some (Prod.ext handed rfl),
        ?_, consistent.slot name⟩
      intro other held before
      obtain ⟨known, rfl⟩ := consistent.issued other held before
      exact eq_comm.trans ((Variables.slot_inj known).trans eq_comm)
  | set name v =>
      obtain ⟨after, done, same⟩ := consistent.represents.set name v
      exact ⟨after, done, rfl, consistent.set name v same⟩
  | store slot v =>
      obtain ⟨name, held⟩ := allowed
      obtain ⟨known, rfl⟩ := consistent.issued name slot held
      obtain ⟨after, done, same⟩ := consistent.represents.store known v
      exact ⟨after, done, rfl, consistent.store held v same⟩
  | get name =>
      refine ⟨tables.parts, ?_, (consistent.lookup name).symm, consistent⟩
      simp only [SlotTable.perform, consistent.represents.get name,
        Option.map_some]
      rfl
  | contains name =>
      refine ⟨tables.parts, ?_, ?_, consistent⟩
      · simp only [SlotTable.perform, consistent.represents.contains name]
        rfl
      · exact (tables.vars.contains_iff_mem_names name).trans
          (consistent.mem_values name).symm
  | clear =>
      exact ⟨.empty, rfl, trivial, empty_consistent⟩

end Consistent

theorem Consistent.of_steps {tables next : Tables}
    (consistent : tables.Consistent) (steps : tables.Steps next) :
    next.Consistent := by
  induction steps with
  | refl => exact consistent
  | tail _ step ih =>
      obtain ⟨op, allowed, done⟩ := step
      obtain ⟨parts, done', -, after⟩ := ih.progress allowed
      obtain ⟨rfl, rfl⟩ := Prod.mk.inj (Option.some.inj (done.symm.trans done'))
      exact after

theorem Reached.consistent {tables : Tables} (reached : tables.Reached) :
    tables.Consistent :=
  empty_consistent.of_steps reached

/-- What is allowed can be done. -/
theorem Consistent.step {tables : Tables} (consistent : tables.Consistent)
    (op : Operation) (allowed : tables.ledger.Allows op) :
    ∃ next, Step op tables next ∧ next.Consistent ∧
      next.vars = (tables.vars.perform op).2 ∧
      next.ledger = tables.ledger.record op (tables.vars.perform op).1 := by
  obtain ⟨parts, done, -, after⟩ := consistent.progress allowed
  exact ⟨_, .perform allowed done, after, rfl, rfl⟩

end Tables

end Reckoner
