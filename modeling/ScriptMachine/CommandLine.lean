import ScriptMachine.CommandLine.Argument
import ScriptMachine.Dump
import ScriptMachine.Viewer

/-!
# The command line

Four commands on a file that holds an image: `info` and `dump` show what it holds, `run` runs ticks
and shows the counters, `view` opens the viewer. Reading a command (`Invocation.ofArguments?`) and
carrying it out (`Command.perform`) are pure; files are read before and written after.
-/

namespace ScriptMachine

namespace CommandLine

/-! ### Commands -/

/-- How ticks are run: which kinds of scripts take part, and how long a tick lasts. -/
structure Pace where
  mask : ScriptKind
  tickLength : Single
deriving DecidableEq, Repr

inductive Command where
  | info (file : String)
  | dump (file : String) (part : Section)
  | run (file : String) (ticks : UInt32) (pace : Pace) (save : Option String)
  /-- The viewer, with the size of its history in bytes. -/
  | view (file : String) (pace : Pace) (limit : Nat)
deriving DecidableEq, Repr

/-- What is asked for. -/
inductive Invocation where
  | help
  | version
  | command (c : Command)
deriving DecidableEq, Repr

def Command.file : Command → String
  | info file => file
  | dump file _ => file
  | run file _ _ _ => file
  | view file _ _ => file

/-! ### Values of options -/

/-- A number in decimal digits, which may begin with a plus sign. -/
def natural? (text : String) : Option Nat :=
  let digits :=
    match text.toList with
    | '+' :: rest => rest
    | all => all
  if digits ≠ [] ∧ digits.all Char.isDigit then
    some (digits.foldl (fun n c => 10 * n + (c.toNat - '0'.toNat)) 0)
  else none

/-- A number of ticks. A minus sign is allowed, but only zero can have one. -/
def ticks? (text : String) : Option UInt32 :=
  let size :=
    match text.toList with
    | '-' :: c :: rest =>
      if c.isDigit then (natural? (String.ofList (c :: rest))).filter (· == 0) else none
    | _ => natural? text
  (size.filter (· < UInt32.size)).map UInt32.ofNat

/-- A size that a machine word can count. -/
def size? (text : String) : Option Nat := (natural? text).filter (· ≤ History.noLimit)

/-- A path is any text but the empty one. -/
def path? (text : String) : Option String := if text = "" then none else some text

/-- The kinds of scripts by the names that they have on the command line. -/
def kinds : List (String × ScriptKind) :=
  [ ("script", .script), ("help", .help), ("challenge-help", .challengeHelp),
    ("temple-help", .templeHelp), ("temple-special", .templeSpecial),
    ("multiplayer-help", .multiplayerHelp) ]

/-- The union of the kinds that are named; all kinds if none is. -/
def mask? (names : List String) : Option ScriptKind := do
  let masks ← names.mapM fun name => kinds.lookup name
  return if masks.isEmpty then .all else masks.foldl .union .none

/-! ### Reading a command -/

def verbose : Switch := { name := "verbose", short := some 'v' }

def help : Switch := { name := "help", short := some 'h' }

def version : Switch := { name := "version", short := some 'V' }

def sections : Switch := { name := "section", short := some 's', hasValue := true }

def ticks : Switch := { name := "ticks", short := some 't', hasValue := true }

def mask : Switch := { name := "mask", short := some 'm', hasValue := true }

def tickDuration : Switch := { name := "tick-duration", hasValue := true }

def trace : Switch := { name := "trace" }

def save : Switch := { name := "save", hasValue := true }

def historyLimit : Switch := { name := "history-limit", hasValue := true }

/-- The only operand, a path. -/
def file? (given : List Argument) : Option String :=
  match operands given with
  | [file] => path? file
  | _ => none

def pace? (given : List Argument) : Option Pace := do
  let mask ← mask? (values mask.name given)
  let tickLength ← value? tickDuration.name Single.ofText? given
  return { mask, tickLength := tickLength.getD Setting.defaultTickLength }

def info? (given : List Argument) : Option Command := return .info (← file? given)

def dump? (given : List Argument) : Option Command := do
  let part ← value? sections.name Section.ofName? given
  return .dump (← file? given) (part.getD .all)

def run? (given : List Argument) : Option Command := do
  let count ← value? ticks.name ticks? given
  let pace ← pace? given
  let _ ← flag? trace.name given
  let target ← value? save.name path? given
  return .run (← file? given) (count.getD 1) pace target

/-- Megabytes, of which there are at most as many as a machine word can count bytes. -/
def view? (given : List Argument) : Option Command := do
  let pace ← pace? given
  let limit ← value? historyLimit.name size? given
  return .view (← file? given) pace (min (limit.getD 256 * 0x100000) History.noLimit)

/-- The commands by name, with the options of their own and how they are read. -/
def commands : List (String × List Switch × (List Argument → Option Command)) :=
  [ ("info", [], info?),
    ("dump", [sections], dump?),
    ("run", [ticks, mask, tickDuration, trace, save], run?),
    ("view", [mask, tickDuration, historyLimit], view?) ]

/-- Reads what comes after the name of a command. -/
def ofCommand? (name : String) (rest : List String) : Option Invocation := do
  let (switches, read) ← commands.lookup name
  let given := split (verbose :: help :: switches) none rest
  if given.contains (.flag help.name) then return .help
  let given ← wellFormed? given
  let _ ← flag? verbose.name given
  return .command (← read given)

/-- Reads what comes before the name of a command, given what was read so far. The first request for
help or the version is what counts. -/
def ofLeading? (given : List Argument) : List String → Option Invocation
  | [] => none
  | text :: rest =>
    match Reading.ofArgument? [verbose, help, version] text with
    | some reading => do
      let given := given ++ reading.given
      let (before, others) := given.span (· = .flag verbose.name)
      let _ ← flag? verbose.name before
      match others with
      | [] => ofLeading? given rest
      | .flag name :: _ => return if name = help.name then .help else .version
      | _ => none
    | none => if text = "help" then some .help else ofCommand? text rest

/-- Reads a whole command line; none if it is used wrongly. -/
def Invocation.ofArguments? (arguments : List String) : Option Invocation := ofLeading? [] arguments

/-! ### Carrying out a command -/

/-- What a command comes to. -/
inductive Result where
  /-- A text to print, and then a file to write. -/
  | report (text : String) (save : Option (String × List UInt8))
  | viewer (v : Viewer)

/-- A machine without natives that goes on from a file. -/
def Pace.machine (contents : Option (List UInt8)) : Except LoadError Machine := do
  return Machine.resume {} (← Image.ofFile contents)

def Pace.setting (p : Pace) : Setting := { tickLength := p.tickLength }

/-- Runs a number of ticks. Nobody is told of the events. -/
def Pace.runTicks (p : Pace) : Nat → Machine → Option Machine
  | 0, m => some m
  | count + 1, m =>
    match Machine.tick p.setting Machine.lifetime p.mask m with
    | none => none
    | some m => runTicks p count { m with log := #[] }

/-- Carries out a command on the contents of its file, if there is such a file; none if a tick does
not come to an end. -/
def Command.perform (c : Command) (contents : Option (List UInt8)) :
    Option (Except LoadError Result) :=
  match c with
  | info _ => some ((Image.ofFile contents).map fun i => .report (i.dump .info) none)
  | dump _ part => some ((Image.ofFile contents).map fun i => .report (i.dump part) none)
  | run _ ticks pace save =>
    match Pace.machine contents with
    | .error e => some (.error e)
    | .ok m => do
      let m ← pace.runTicks ticks.toNat m
      let text := (m.image true).dump .counters
      return .ok (.report text (save.map fun path => (path, m.save)))
  | view _ pace limit =>
    some ((Pace.machine contents).map fun m => .viewer (.of pace.setting m limit pace.mask))

/-! ### Ending -/

/-- The name and version of the program. -/
def versionText : String := "lhvm 0.1.0\n"

/-- How the program is used. -/
def usageText : String :=
  "usage: lhvm info FILE\n" ++
  "       lhvm dump [--section SECTION] FILE\n" ++
  "       lhvm run [--ticks N] [--mask KIND]... [--tick-duration SECONDS] [--trace] [--save FILE]"
++   " FILE\n" ++
  "       lhvm view [--mask KIND]... [--tick-duration SECONDS] [--history-limit MEGABYTES] FILE\n"

/-- How the program ends: its exit code and, if something failed, what. -/
structure Ending where
  code : UInt32
  failure : Option LoadError := none
deriving DecidableEq, Repr

def Ending.done : Ending := { code := 0 }

/-- The command line was wrong. -/
def Ending.misused : Ending := { code := 2 }

def Ending.failed (e : LoadError) : Ending := { code := 1, failure := some e }

end CommandLine

end ScriptMachine
