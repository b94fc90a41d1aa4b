import ScriptMachine.CommandLine
import ScriptMachine.Viewer.Drawing

/-!
# The program

Reads the file that a command is about, carries the command out, prints and writes what comes of it.
The viewer is shown as plain text on a screen of a fixed size, and takes the name of a key per line.
-/

namespace ScriptMachine.Session

open ScriptMachine.CommandLine

/-- Tells a file that is not there from other trouble, which is not caught. -/
def ifThere {α : Type} (act : IO α) : IO (Option α) := do
  match ← act.toBaseIO with
  | .ok a => return some a
  | .error (.noFileOrDirectory ..) => return none
  | .error e => throw e

def finish (ending : Ending) : IO UInt32 := do
  if let some e := ending.failure then IO.eprintln ("Error: " ++ e.term)
  return ending.code

def screenSize : Size := ⟨80, 24⟩

/-- The loop of the viewer. While it waits for a line, the next tick of playing comes due. -/
partial def view (v : Viewer) : IO UInt32 := do
  let (shown, v) := v.draw screenSize
  (← IO.getStdout).putStrLn (String.intercalate "\n" shown.texts)
  if v.quitting then return 0
  let line ← (← IO.getStdin).getLine
  if line.isEmpty then return 0
  match { v with due := true }.turn (Viewer.Key.ofName? line.trimAscii.toString) with
  | none => return 0
  | some v => view v

def perform (c : Command) : IO UInt32 := do
  let contents ← ifThere (IO.FS.readBinFile c.file)
  match c.perform (contents.map (·.toList)) with
  | none => return 0
  | some (.error e) => finish (.failed e)
  | some (.ok (.viewer v)) => view v
  | some (.ok (.report text save)) =>
    IO.print text
    match save with
    | none => finish .done
    | some (path, bytes) =>
      match ← ifThere (IO.FS.writeBinFile path (ByteArray.mk bytes.toArray)) with
      | some () => finish .done
      | none => finish (.failed .fileNotFound)

end ScriptMachine.Session

open ScriptMachine ScriptMachine.CommandLine in
def main (arguments : List String) : IO UInt32 :=
  match Invocation.ofArguments? arguments with
  | none => do
    IO.eprint usageText
    Session.finish .misused
  | some .help => do
    IO.print usageText
    Session.finish .done
  | some .version => do
    IO.print versionText
    Session.finish .done
  | some (.command c) => Session.perform c
