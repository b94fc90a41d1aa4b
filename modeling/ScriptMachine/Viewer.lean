import ScriptMachine.Machine.Run
import ScriptMachine.Screen

/-!
# The viewer

A `Viewer` steps a machine tick by tick, forward and back. Before every tick it puts the state into
a history, and it goes back by restoring the newest moment from there. A tick for which the history
has no room is not run, and where the history is empty there is no way back.

It shows four panes, one of which has the focus, and follows one of the tasks. The keys that change
this are in `Viewer.press`; how much of each pane is visible is settled when it is drawn.
-/

namespace ScriptMachine

/-! ### Panes -/

inductive Pane where
  | code
  | tasks
  | stack
  | globals
deriving DecidableEq, Repr

namespace Pane

def next : Pane → Pane
  | code => tasks
  | tasks => stack
  | stack => globals
  | globals => code

def previous : Pane → Pane
  | code => globals
  | tasks => code
  | stack => tasks
  | globals => stack

@[simp] theorem previous_next (p : Pane) : p.next.previous = p := by cases p <;> rfl

@[simp] theorem next_previous (p : Pane) : p.previous.next = p := by cases p <;> rfl

def name : Pane → String
  | code => "code"
  | tasks => "tasks"
  | stack => "stack"
  | globals => "globals"

end Pane

/-- Which part of the code is visible: the first line, and the row in which the current instruction
is kept. Without a row it is in the middle. -/
structure CodeScroll where
  first : Nat := 0
  row : Option Nat := none
deriving DecidableEq, Repr

/-! ### The state of a viewer -/

structure Viewer where
  setting : Setting
  machine : Machine
  history : History
  /-- The kinds of the tasks that take part in a tick. -/
  mask : ScriptKind
  listing : List ListingLine
  focus : Pane := .code
  /-- The place of the selected task among all tasks. -/
  selected : Nat := 0
  codeScroll : CodeScroll := {}
  /-- The first visible line of the stack pane. -/
  stackScroll : Nat := 0
  /-- The first visible line of the globals pane. -/
  globalsScroll : Nat := 0
  message : String := "Ready!"
  failed : Bool := false
  /-- Ticks are run without a key. -/
  playing : Bool := false
  /-- It is time for the next tick of playing. -/
  due : Bool := false
  quitting : Bool := false

namespace Viewer

/-- A viewer of a loaded machine. -/
def of (setting : Setting) (machine : Machine) (limit : Nat) (mask : ScriptKind) : Viewer :=
  { setting, machine, history := { limit }, mask, listing := (machine.symbols setting).listing }

def tasks (v : Viewer) : List Task := v.machine.tasks.toList

def selectedTask? (v : Viewer) : Option Task := v.tasks[v.selected]?

/-- The script that the selected task runs. -/
def selectedScript? (v : Viewer) : Option Script := do
  v.machine.program.script? (← v.selectedTask?).scriptId

/-- Where the selected task is in the listing. -/
def currentLine? (v : Viewer) : Option Nat := do
  let t ← v.selectedTask?
  v.listing.findIdx? (·.address? == some t.address)

/-- The addresses of the tasks that are not selected. -/
def otherAddresses (v : Viewer) : List UInt32 :=
  (v.tasks.filter fun t => v.selectedTask?.all (·.id != t.id)).map (·.address)

/-- The globals without the null variable. -/
def globals (v : Viewer) : List Variable := v.machine.globals.drop 1

def say (v : Viewer) (message : String) : Viewer := { v with message, failed := false }

def complain (v : Viewer) (message : String) : Viewer := { v with message, failed := true }

/-- Keeps the selection within the tasks. -/
def clampSelection (v : Viewer) : Viewer :=
  { v with selected := min v.selected (v.machine.tasks.size - 1) }

/-! ### Steps -/

/-- Runs a tick, if the state before it finds room in the history. Tells whether it did; none if the
tick does not come to an end. Nobody is told of the events. -/
def forward (v : Viewer) : Option (Bool × Viewer) :=
  match v.history.push v.machine.moment with
  | .error e =>
    some (false, v.complain ("Tick history full (" ++ toString e.limit ++ " bytes)"))
  | .ok history => do
    let machine ← Machine.tick v.setting Machine.lifetime v.mask v.machine
    -- The log does not grow: there is nobody to read it.
    let v := { v with history, machine := { machine with log := v.machine.log } }.clampSelection
    return (true, v.say ("Ran tick " ++ toString machine.ticks.toNat))

/-- Goes back to the newest moment in the history. Tells whether it did. -/
def backward (v : Viewer) : Bool × Viewer :=
  match v.history.pop? with
  | none => (false, v.complain "Cannot step backward: at the first recorded tick")
  | some (moment, history) =>
    match v.machine.restoreBytes moment.save with
    | .error e =>
      (false, { v with history }.complain ("Cannot step backward: " ++ e.message))
    | .ok machine =>
      let v := { v with history, machine }.clampSelection
      (true, v.say ("Back to tick " ++ toString moment.tick.toNat))

/-- Runs the tick that is due, if the viewer plays. Playing ends when a tick is refused. -/
def play (v : Viewer) : Option Viewer :=
  if v.playing && v.due then do
    let (done, v) ← v.forward
    return { v with playing := done, due := false }
  else some v

/-! ### Keys -/

inductive Key where
  | left
  | right
  | up
  | down
  | tab
  | backTab
  | char (c : Char)
deriving DecidableEq, Repr

/-- The key with the given name. A single character is its own name. -/
def Key.ofName? (name : String) : Option Key :=
  match name with
  | "left" => some left
  | "right" => some right
  | "up" => some up
  | "down" => some down
  | "tab" => some tab
  | "backtab" => some backTab
  | "space" => some (char ' ')
  | _ =>
    match name.toList with
    | [c] => some (char c)
    | _ => none

/-- Moves the view, or the selection, by one line toward the beginning. -/
def scrollUp (v : Viewer) : Viewer :=
  match v.focus with
  | .code =>
    -- The row follows, or drawing would scroll back to the current instruction.
    { v with
      codeScroll := { first := v.codeScroll.first - 1, row := v.codeScroll.row.map (· + 1) } }
  | .tasks => { v with selected := v.selected - 1, stackScroll := 0 }
  | .stack => { v with stackScroll := v.stackScroll - 1 }
  | .globals => { v with globalsScroll := v.globalsScroll - 1 }

/-- Moves the view, or the selection, by one line toward the end. -/
def scrollDown (v : Viewer) : Viewer :=
  match v.focus with
  | .code =>
    { v with
      codeScroll := { first := v.codeScroll.first + 1, row := v.codeScroll.row.map (· - 1) } }
  | .tasks => { { v with selected := v.selected + 1 }.clampSelection with stackScroll := 0 }
  | .stack => { v with stackScroll := v.stackScroll + 1 }
  | .globals => { v with globalsScroll := v.globalsScroll + 1 }

def pause (v : Viewer) : Viewer := { v with playing := false }

/-- Starts playing, with a tick due at once, or stops it. -/
def togglePlaying (v : Viewer) : Viewer :=
  if v.playing then v.pause.say "Paused"
  else { v with playing := true, due := true }.say "Playing..."

/-- What a key does. A step by hand ends playing. -/
def press (v : Viewer) : Key → Option Viewer
  | .left => some v.pause.backward.2
  | .right => v.pause.forward.map fun (_, v) => v
  | .up => some v.scrollUp
  | .down => some v.scrollDown
  | .tab => some { v with focus := v.focus.next }
  | .backTab => some { v with focus := v.focus.previous }
  | .char c =>
    if c = 'q' ∨ c = 'Q' then some { v with quitting := true }
    else if c = ' ' then some v.togglePlaying
    else some v

/-- What happens between two drawings: the tick that is due is run, and a key is taken if there is
one. -/
def turn (v : Viewer) (key : Option Key) : Option Viewer := do
  let v ← v.play
  match key with
  | none => return v
  | some key => v.press key

end Viewer

end ScriptMachine
