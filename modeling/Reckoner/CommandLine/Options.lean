/-
# Command-line options

Arguments are read from the left.  An option has a long name behind `--` and
may have a short one behind `-`; short ones can be run together.  The value
of an option is attached (`--radix=hex`, `-p2`, `-p=2`) or is the next
argument, which must not look like an option.  Other arguments are lines to
evaluate, before or behind options; after `--` every argument is one.

No option may be given twice, and a file excludes lines.  The first thing
that ends the reading decides: a misuse, or a request for help or for the
version.
-/
import Reckoner.Session

namespace Reckoner

namespace CommandLine

/-- What a command line asks for. -/
structure Options where
  /-- The file that holds the lines. -/
  file : Option String := none
  capacity : Option Nat := none
  precision : Option Nat := none
  radix : Option Radix := none
  preserveFractions : Bool := false
  /-- Whether a log of the evaluation was asked for.  None is kept. -/
  verbose : Bool := false
  /-- The arguments that are lines, in order. -/
  lines : List String := []
deriving DecidableEq, Repr

/-- Why the reading of arguments ended without options. -/
inductive Stop where
  | misuse
  | help
  | version
deriving DecidableEq, Repr

/-- The options without a value. -/
inductive Switch where
  | preserveFractions
  | verbose
  | help
  | version
deriving DecidableEq, Repr

/-- The options with a value. -/
inductive Parameter where
  | file
  | history
  | precision
  | radix
deriving DecidableEq, Repr

/-- An option. -/
inductive Key where
  | switch (s : Switch)
  | parameter (p : Parameter)
deriving DecidableEq, Repr

/-! ## Names -/

/-- The option with a long name. -/
def longKey? : String → Option Key
  | "file" => some (.parameter .file)
  | "history" => some (.parameter .history)
  | "precision" => some (.parameter .precision)
  | "radix" => some (.parameter .radix)
  | "preserve-fractions" => some (.switch .preserveFractions)
  | "verbose" => some (.switch .verbose)
  | "help" => some (.switch .help)
  | "version" => some (.switch .version)
  | _ => none

/-- The option with a short name. -/
def shortKey? : Char → Option Key
  | 'f' => some (.parameter .file)
  | 'p' => some (.parameter .precision)
  | 'r' => some (.parameter .radix)
  | 'v' => some (.switch .verbose)
  | 'h' => some (.switch .help)
  | 'V' => some (.switch .version)
  | _ => none

/-- The base with a name. -/
def radix? : String → Option Radix
  | "decimal" => some .decimal
  | "hex" => some .hex
  | "octal" => some .octal
  | "binary" => some .binary
  | _ => none

/-- A count below `2 ^ 64` in decimal digits, with or without a plus in
front. -/
def count? (text : String) : Option Nat :=
  let digits :=
    match text.toList with
    | '+' :: rest => rest
    | rest => rest
  let n := Digits.ofList 10 digits
  if digits.isEmpty || !digits.all (Digits.isDigit 10) then none
  else if n < Nat.pow 2 64 then some n
  else none

/-! ## Reading arguments -/

/-- Turns a switch on. -/
def turnOn (options : Options) : Switch → Except Stop Options
  | .preserveFractions =>
    if options.preserveFractions then .error .misuse
    else .ok { options with preserveFractions := true }
  | .verbose =>
    if options.verbose then .error .misuse
    else .ok { options with verbose := true }
  | .help => .error .help
  | .version => .error .version

/-- A first value for a parameter; a second one or no value at all is a
misuse. -/
def once {α : Type} (earlier value : Option α) : Except Stop (Option α) :=
  if earlier.isSome || value.isNone then .error .misuse else .ok value

/-- A path, which must not be empty. -/
def path? (text : String) : Option String :=
  if text.isEmpty then none else some text

/-- Gives a parameter its value. -/
def assign (options : Options) (text : String) :
    Parameter → Except Stop Options
  | .file =>
    (once options.file (path? text)).map
      fun file => { options with file }
  | .history =>
    (once options.capacity (count? text)).map
      fun capacity => { options with capacity }
  | .precision =>
    (once options.precision (count? text)).map
      fun precision => { options with precision }
  | .radix =>
    (once options.radix (radix? text)).map
      fun radix => { options with radix }

/-- The forms of an argument. -/
inductive Form where
  /-- A `--` alone: all that follows is lines. -/
  | terminator
  /-- A long name, with the value behind `=` if there is one. -/
  | long (name : String) (value : Option String)
  /-- Short names run together. -/
  | short (names : List Char)
  | line

/-- The form of an argument.  A `-` alone is a line. -/
def form (argument : String) : Form :=
  match argument.toList with
  | ['-', '-'] => .terminator
  | '-' :: '-' :: rest =>
    let name := String.ofList (rest.takeWhile (· != '='))
    match rest.dropWhile (· != '=') with
    | [] => .long name none
    | _ :: value => .long name (some (String.ofList value))
  | '-' :: c :: rest => .short (c :: rest)
  | _ => .line

/-- Reads short names; the last one may be a parameter without a value. -/
def readShort (options : Options) :
    List Char → Except Stop (Options × Option Parameter)
  | [] => .ok (options, none)
  | c :: rest =>
    match shortKey? c, rest with
    | none, _ => .error .misuse
    | some (.switch s), rest => do
      let options ← turnOn options s
      readShort options rest
    | some (.parameter p), [] => .ok (options, some p)
    | some (.parameter p), '=' :: value => do
      return (← assign options (String.ofList value) p, none)
    | some (.parameter p), value => do
      return (← assign options (String.ofList value) p, none)

/-- Reads one argument that is no terminator; it may leave a parameter
without a value. -/
def readArgument (options : Options) (argument : String) :
    Except Stop (Options × Option Parameter) :=
  match form argument with
  | .terminator | .line =>
    .ok ({ options with lines := options.lines ++ [argument] }, none)
  | .short names => readShort options names
  | .long name value =>
    match longKey? name, value with
    | none, _ => .error .misuse
    | some (.switch s), none => do return (← turnOn options s, none)
    | some (.switch _), some _ => .error .misuse
    | some (.parameter p), none => .ok (options, some p)
    | some (.parameter p), some value => do
      return (← assign options value p, none)

/-- Reads arguments; `pending` is a parameter whose value comes next. -/
def readArguments (options : Options) (pending : Option Parameter) :
    List String → Except Stop Options
  | [] => if pending.isSome then .error .misuse else .ok options
  | argument :: rest =>
    match pending, form argument with
    | some p, .line => do
      readArguments (← assign options argument p) none rest
    | some _, _ => .error .misuse
    | none, .terminator =>
      .ok { options with lines := options.lines ++ rest }
    | none, _ => do
      let (options, pending) ← readArgument options argument
      readArguments options pending rest

/-- The options that the arguments give. -/
def Options.ofArguments (arguments : List String) : Except Stop Options := do
  let options ← readArguments {} none arguments
  if options.file.isSome && !options.lines.isEmpty then .error .misuse
  else return options

/-- The settings that the options ask for. -/
def Options.settings (options : Options) : Settings where
  capacity := options.capacity.getD 64
  precision := options.precision
  radix := options.radix.getD .decimal
  policy := if options.preserveFractions then .preserve else .truncate

end CommandLine

end Reckoner
