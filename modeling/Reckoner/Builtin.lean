/-
# Registries and builtin names

A registry finds what is registered under a name: the functions of one
operand, or the modifiers, which are called for their effect alone.  A
modifier cannot reach the session while an expression is being evaluated; it
leaves a request, and the session acts on it when the line is done.  The
builtin functions, modifiers and constants are those that a session starts
with.
-/
import Reckoner.Number.Binary

namespace Reckoner

/-! ## Registries -/

/-- What is registered under which name. -/
structure Registry (α : Type) where
  entries : List (String × α)

namespace Registry

variable {α : Type}

/-- Nothing registered. -/
def empty : Registry α := ⟨[]⟩

/-- Registers `item` under `name`; an earlier item of that name is lost. -/
def register (registry : Registry α) (name : String) (item : α) :
    Registry α :=
  ⟨(name, item) :: registry.entries.filter fun entry => entry.1 != name⟩

/-- The item registered under `name`. -/
def get? (registry : Registry α) (name : String) : Option α :=
  registry.entries.lookup name

/-- Says whether anything is registered under `name`. -/
def contains (registry : Registry α) (name : String) : Bool :=
  (registry.get? name).isSome

end Registry

/-- What modifiers have asked for and the session has not yet done. -/
structure Requests where
  /-- End the session. -/
  quit : Bool
  /-- Drop the variables and the history. -/
  clear : Bool
deriving DecidableEq, Repr

/-- No request. -/
def Requests.none : Requests := ⟨false, false⟩

/-- A function of one operand. -/
abbrev UnaryFunction := Float → Float

/-- The effect of a modifier on the pending requests. -/
abbrev Modifier := Requests → Requests

/-! ## Builtin names -/

namespace Builtin

/-! ### Functions -/

/-- The bits of pi, rounded. -/
def pi : Float := Float.ofBits 0x400921fb54442d18

/-- The bits of Euler's number, rounded. -/
def e : Float := Float.ofBits 0x4005bf0a8b145769

/-- The integer part, toward zero; the sign of a zero is that of the
operand. -/
def trunc (x : Float) : Float := if x < 0 then x.ceil else x.floor

/-- Zero for a zero, else one with the sign of the operand. -/
def sign (x : Float) : Float :=
  if x == 0 then 0 else if x < 0 then -1 else if 0 < x then 1 else x

/-- Degrees as radians; the factor is rounded first. -/
def radians (x : Float) : Float := x * (pi / 180)

/-- Radians as degrees; the factor is rounded first. -/
def degrees (x : Float) : Float := x * (180 / pi)

/-- The builtin functions. -/
def functions : Registry UnaryFunction := ⟨[
  ("sin", Float.sin),
  ("cos", Float.cos),
  ("tan", Float.tan),
  ("asin", Float.asin),
  ("acos", Float.acos),
  ("atan", Float.atan),
  ("sinh", Float.sinh),
  ("cosh", Float.cosh),
  ("tanh", Float.tanh),
  ("sqrt", Float.sqrt),
  ("cbrt", Binary.cubeRoot),
  ("ln", Float.log),
  ("log", Float.log10),
  ("log2", Float.log2),
  ("exp", Float.exp),
  ("abs", Float.abs),
  ("floor", Float.floor),
  ("ceil", Float.ceil),
  ("round", Float.round),
  ("trunc", trunc),
  ("sign", sign),
  ("radians", radians),
  ("degrees", degrees)]⟩

/-! ### Modifiers -/

/-- Asks for the end of the session. -/
def quit : Modifier := fun requests => { requests with quit := true }

/-- Asks for variables and history to be dropped. -/
def clear : Modifier := fun requests => { requests with clear := true }

/-- The builtin modifiers. -/
def modifiers : Registry Modifier := ⟨[
  ("quit", quit),
  ("exit", quit),
  ("clear", clear)]⟩

/-! ### Constants -/

/-- The constants, which are ordinary variables with a value from the
start. -/
def constants : List (String × Float) := [("pi", pi), ("e", e)]

end Builtin

end Reckoner
