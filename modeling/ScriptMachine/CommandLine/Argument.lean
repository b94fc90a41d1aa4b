/-!
# Arguments

Splitting the arguments of a command into options and operands. An option has a long name and may
have a short one; some take a value. A value is attached (`--ticks=3`, `-t3`, `-t=3`) or is the next
argument, which must then not look like an option. Short options that take no value can be put
together. After `--` everything is an operand.

What is no argument of the command is kept as `Argument.bad`, so that what else was said still
counts.
-/

namespace ScriptMachine.CommandLine

/-- An option that a command knows. -/
structure Switch where
  name : String
  short : Option Char := none
  hasValue : Bool := false
deriving DecidableEq, Repr

/-- What an argument, or an option with the argument after it, amounts to. -/
inductive Argument where
  | operand (text : String)
  | flag (name : String)
  | valued (name : String) (value : String)
  | bad
deriving DecidableEq, Repr

/-- What a single argument amounts to: whole arguments, and an option that still lacks its value. -/
structure Reading where
  given : List Argument
  lacking : Option Switch := none

namespace Reading

def bad : Reading := { given := [.bad] }

/-- Reads an argument that begins with two dashes, given without them. -/
def long (switches : List Switch) (text : List Char) : Reading :=
  let (name, rest) := text.span (· != '=')
  match switches.find? (·.name == String.ofList name) with
  | none => bad
  | some s =>
    match s.hasValue, rest with
    | false, [] => { given := [.flag s.name] }
    | false, _ => bad
    | true, [] => { given := [], lacking := some s }
    | true, _ :: value => { given := [.valued s.name (String.ofList value)] }

/-- Reads an argument that begins with one dash, given without it. -/
def short (switches : List Switch) : List Char → Reading
  | [] => { given := [] }
  | c :: rest =>
    match switches.find? (·.short == some c) with
    | none => bad
    | some s =>
      if s.hasValue then
        match rest with
        | [] => { given := [], lacking := some s }
        | '=' :: value => { given := [.valued s.name (String.ofList value)] }
        | value => { given := [.valued s.name (String.ofList value)] }
      else
        let others := short switches rest
        { others with given := .flag s.name :: others.given }

/-- Reads an argument that looks like an option; none if it does not. A lone dash does not. -/
def ofArgument? (switches : List Switch) (text : String) : Option Reading :=
  match text.toList with
  | '-' :: '-' :: rest => some (long switches rest)
  | '-' :: c :: rest => some (short switches (c :: rest))
  | _ => none

end Reading

/-- Splits arguments, the first of which may be the value that an option lacks. -/
def split (switches : List Switch) (lacking : Option Switch) : List String → List Argument
  | [] => if lacking.isSome then [.bad] else []
  | text :: rest =>
    match lacking, Reading.ofArgument? switches text with
    -- An option that still lacks its value takes the next argument, but never another option.
    | some s, none => .valued s.name text :: split switches none rest
    | some _, some _ => [.bad]
    | none, none => .operand text :: split switches none rest
    | none, some reading =>
      if text = "--" then rest.map .operand
      else reading.given ++ split switches reading.lacking rest

/-! ### Looking things up -/

/-- The arguments, if none of them is bad. -/
def wellFormed? (given : List Argument) : Option (List Argument) :=
  if given.contains .bad then none else some given

def operands (given : List Argument) : List String :=
  given.filterMap fun
    | .operand text => some text
    | _ => none

def values (name : String) (given : List Argument) : List String :=
  given.filterMap fun
    | .valued n value => if n = name then some value else none
    | _ => none

/-- Whether a flag is given; none if it is given more than once. -/
def flag? (name : String) (given : List Argument) : Option Bool :=
  match given.count (.flag name) with
  | 0 => some false
  | 1 => some true
  | _ => none

/-- The value of an option that may be given once; none if it is given twice or is not a value. -/
def value? {α : Type} (name : String) (read : String → Option α) (given : List Argument) :
    Option (Option α) :=
  match values name given with
  | [] => some none
  | [text] => (read text).map some
  | _ => none

end ScriptMachine.CommandLine
