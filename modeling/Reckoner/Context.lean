/-
# Contexts

What an evaluation reads and what it changes, kept apart.  The environment
(functions, modifiers, history, fraction policy) is read only; variables and
requests change.  A context is both together and outlives the evaluation.

The history holds the most recent results, at most `capacity` of them.
References count back from the most recent one, which is at offset one.

Variables are a table of named values in the order in which the names first
appeared.  A name's place in the table is its slot.  Slots are handed out
before a value is known, so that an assignment can name its target first and
store later; a new slot holds zero.  Entries are never removed one by one,
hence a slot stays right until the table as a whole is emptied.
-/
import Reckoner.Builtin

namespace Reckoner

/-! ## History of results -/

/-- The stored results, the most recent one first. -/
structure History where
  capacity : Nat
  entries : List Float
deriving DecidableEq, Repr

namespace History

/-- An empty history that keeps `capacity` results. -/
def ofCapacity (capacity : Nat) : History := ⟨capacity, []⟩

/-- The number of stored results. -/
def length (history : History) : Nat := history.entries.length

/-- Adds a result; the oldest one goes when there is no room for it. -/
def push (history : History) (value : Float) : History :=
  { history with entries := (value :: history.entries).take history.capacity }

/-- The result `offset` places back.  There is none at offset zero. -/
def recent? (history : History) : Nat → Option Float
  | 0 => none
  | back + 1 => history.entries[back]?

/-- Drops every result. -/
def clear (history : History) : History := { history with entries := [] }

/-- A new result takes the first place and moves all others one place back;
what is moved past the capacity is gone. -/
theorem recent?_push (history : History) (value : Float) (back : Nat) :
    (history.push value).recent? (back + 1) =
      if history.capacity ≤ back then none
      else if back = 0 then some value
      else history.recent? back := by
  simp only [recent?, push, List.getElem?_take]
  cases back with
  | zero =>
    rcases Nat.eq_zero_or_pos history.capacity with none_kept | room
    · simp [none_kept]
    · simp [room, Nat.ne_of_gt room]
  | succ k =>
    rcases Nat.lt_or_ge (k + 1) history.capacity with room | full
    · simp [room, Nat.not_le.mpr room]
    · simp [full, Nat.not_lt.mpr full]

end History

/-! ## Variables -/

/-- Named values, the oldest name first. -/
structure Variables where
  entries : List (String × Float)
deriving DecidableEq, Repr

namespace Variables

/-- No variables. -/
def empty : Variables := ⟨[]⟩

/-- The slot of a name: its place in the table, or the place it will have
once it is declared. -/
def slot (vars : Variables) (name : String) : Nat :=
  vars.entries.findIdx fun entry => entry.1 == name

/-- The value of a name. -/
def get? (vars : Variables) (name : String) : Option Float :=
  vars.entries.lookup name

/-- Says whether a name has a value. -/
def contains (vars : Variables) (name : String) : Bool :=
  (vars.get? name).isSome

/-- Gives a new name a slot that holds zero. -/
def declare (vars : Variables) (name : String) : Variables :=
  if vars.contains name then vars else ⟨vars.entries ++ [(name, 0)]⟩

/-- Puts a value into a slot; a slot outside the table is ignored. -/
def store (vars : Variables) (slot : Nat) (value : Float) : Variables :=
  ⟨vars.entries.modify slot fun entry => (entry.1, value)⟩

/-- Gives a name a value, whether or not it had one. -/
def set (vars : Variables) (name : String) (value : Float) : Variables :=
  (vars.declare name).store (vars.slot name) value

/-! ### What a name finds -/

/-- A declaration adds its name at zero if it is new and leaves all else. -/
theorem get?_declare (vars : Variables) (name other : String) :
    (vars.declare name).get? other =
      if other = name ∧ vars.get? name = none then some 0
      else vars.get? other := by
  unfold declare contains
  cases known : vars.get? name with
  | some v => simp
  | none =>
    simp only [get?] at known ⊢
    by_cases same : other = name
    · subst same
      simp [List.lookup_append, known]
    · simp [List.lookup_append, same, List.lookup_cons, beq_false_of_ne same]

/-- Storing through the slot of a known name changes that name only. -/
theorem get?_store_slot (vars : Variables) (name other : String)
    (value : Float) (known : vars.contains name = true) :
    (vars.store (vars.slot name) value).get? other =
      if other = name then some value else vars.get? other := by
  obtain ⟨entries⟩ := vars
  simp only [contains, get?, store, slot] at known ⊢
  induction entries with
  | nil => simp at known
  | cons entry rest ih =>
    obtain ⟨key, old⟩ := entry
    by_cases here : key = name
    · subst here
      by_cases same : other = key
      · simp [List.findIdx_cons, same]
      · simp [List.findIdx_cons, List.lookup_cons, same,
          beq_false_of_ne same]
    · have other_key : (name == key) = false :=
        beq_false_of_ne (Ne.symm here)
      have found : (rest.lookup name).isSome = true := by
        simpa [List.lookup_cons, other_key] using known
      have step := ih found
      simp only [List.findIdx_cons, beq_false_of_ne here, cond_false,
        List.modify_succ_cons, List.lookup_cons]
      cases hk : other == key with
      | true =>
        have : other ≠ name := by
          rintro rfl
          exact here (by simpa using (beq_iff_eq.mp hk).symm)
        simp [this]
      | false => simpa using step

end Variables

/-! ## Environments and contexts -/

/-- What the bitwise level does to a value that reaches it without a bitwise
operator. -/
inductive FractionPolicy where
  /-- Every value that passes through is cut to a word. -/
  | truncate
  /-- Values are cut only when a bitwise operator applies. -/
  | preserve
deriving DecidableEq, Repr

/-- What an evaluation only reads. -/
structure Environment where
  functions : Registry UnaryFunction
  modifiers : Registry Modifier
  history : History
  policy : FractionPolicy

/-- The state that evaluations share. -/
structure Context extends Environment where
  vars : Variables
  requests : Requests

namespace Context

/-- Gives the constants their values. -/
def seedConstants (vars : Variables) : Variables :=
  Builtin.constants.foldl (fun vars (name, value) => vars.set name value)
    vars

/-- A context without functions, modifiers, variables and constants. -/
def bare (history : History) : Context where
  functions := .empty
  modifiers := .empty
  history := history
  policy := .truncate
  vars := .empty
  requests := .none

/-- A context with the builtin names around a history. -/
def withHistory (history : History) : Context where
  functions := Builtin.functions
  modifiers := Builtin.modifiers
  history := history
  policy := .truncate
  vars := seedConstants .empty
  requests := .none

/-- Forgets variables and history and seeds the constants again.
Functions, modifiers, requests and the policy stay. -/
def reset (context : Context) : Context :=
  { context with
    vars := seedConstants .empty
    history := context.history.clear }

end Context

end Reckoner
