import ScriptMachine.Viewer
import ScriptMachine.Viewer.Contents

/-!
# Drawing the viewer

The last row of the screen is the status bar. Above it there are two columns of two panes each: the
code over the tasks, and the stack over the globals. Drawing first settles how far the panes are
scrolled (`Viewer.settle`), so that no pane shows less than it could and the current instruction is
visible, and then paints what is visible (`Viewer.paint`). Both go by a layout, whichever it is; the
one that the viewer draws in is `Layout.of`.
-/

namespace ScriptMachine

/-! ### Layout -/

/-- A share of a length in percent, rounded to whole cells, a half upward. -/
def share (percent length : Nat) : Nat := (percent * length + 50) / 100

/-- The sizes of the panes and of the left half of the status bar. -/
structure Layout where
  code : Size
  tasks : Size
  stack : Size
  globals : Size
  statusWidth : Nat

def Layout.of (screen : Size) : Layout :=
  let height := screen.height - 1
  let left := share 55 screen.width
  let right := screen.width - left
  let codeHeight := share 70 height
  let stackHeight := share 55 height
  { code := ⟨left, codeHeight⟩
    tasks := ⟨left, height - codeHeight⟩
    stack := ⟨right, stackHeight⟩
    globals := ⟨right, height - stackHeight⟩
    statusWidth := share 50 screen.width }

/-- How many lines are visible in a framed pane. A pane without room counts as one with one line. -/
def Size.visible (pane : Size) : Nat := max pane.inner.height 1

/-- The first visible line nearest to the one asked for, such that the last page stays full. -/
def clampScroll (first total visible : Nat) : Nat := min first (total - visible)

namespace Viewer

/-! ### What the panes hold -/

def stackPaneLines (v : Viewer) : List Line :=
  match v.selectedTask? with
  | some t =>
    let parameters := (v.selectedScript?.map (·.parameterCount.toNat)).getD 0
    Contents.taskDataLines t parameters
  | none => Contents.mainStackLines v.machine.stack

/-- The first visible line of the task pane: the selected task is the last one visible, unless it is
visible anyway. -/
def tasksScroll (v : Viewer) (visible : Nat) : Nat :=
  clampScroll (v.selected - (visible - 1)) v.machine.tasks.size visible

/-! ### Settling -/

/-- Keeps the current instruction in its row. -/
def settleCode (v : Viewer) (visible : Nat) : CodeScroll :=
  let row := min (v.codeScroll.row.getD (visible / 2)) (visible - 1)
  let wanted :=
    match v.currentLine? with
    | some line => line - row
    | none => v.codeScroll.first
  { first := clampScroll wanted v.listing.length visible, row := some row }

/-- The viewer as it stands once it is drawn in a layout. -/
def settle (v : Viewer) (layout : Layout) : Viewer :=
  { v with
    codeScroll := v.settleCode layout.code.visible
    stackScroll := clampScroll v.stackScroll v.stackPaneLines.length layout.stack.visible
    globalsScroll := clampScroll v.globalsScroll v.globals.length layout.globals.visible }

/-! ### Painting -/

def paintPane (v : Viewer) (pane : Pane) (size : Size) (title : String) (lines : List Line) :
    Rows :=
  let frame : Style :=
    if v.focus = pane then (Style.colored Palette.focusedFrame).strong
    else Style.colored Palette.frame
  Rows.framed size frame title fun inner => Rows.ofLines inner lines

def paintCode (v : Viewer) (size : Size) : Rows :=
  let title :=
    match v.selectedTask? with
    | some t => " Code @ " ++ toString t.address.toNat ++ " "
    | none => " Code "
  v.paintPane .code size title <|
    (Contents.codeLines v.listing v.currentLine? v.otherAddresses).drop v.codeScroll.first

def paintTasks (v : Viewer) (size : Size) : Rows :=
  v.paintPane .tasks size " Tasks " <|
    (Contents.taskLines v.tasks v.selected).drop (v.tasksScroll size.visible)

def paintStack (v : Viewer) (size : Size) : Rows :=
  v.paintPane .stack size " Stack " (v.stackPaneLines.drop v.stackScroll)

def paintGlobals (v : Viewer) (size : Size) : Rows :=
  v.paintPane .globals size (" Globals (" ++ toString v.globals.length ++ ") ") <|
    (Contents.globalLines v.globals).drop v.globalsScroll

def paintStatus (v : Viewer) (leftWidth rightWidth : Nat) : List Cell :=
  let idle := v.machine.tasks.size == 0
  (Contents.statusLine v.machine.toState v.history.length v.message v.failed).paint leftWidth
    ++ (Contents.keyLine v.playing idle).paintRight rightWidth

/-- What a settled viewer looks like. -/
def paint (v : Viewer) (layout : Layout) (screen : Size) : Screen :=
  let left := v.paintCode layout.code ++ v.paintTasks layout.tasks
  let right := v.paintStack layout.stack ++ v.paintGlobals layout.globals
  let bar := v.paintStatus layout.statusWidth (screen.width - layout.statusWidth)
  .ofRows screen ((Rows.beside left right ++ [bar]).take screen.height)

/-- Draws a viewer in a layout on a screen of a given size. -/
def drawIn (v : Viewer) (layout : Layout) (screen : Size) : Screen × Viewer :=
  let v := v.settle layout
  (v.paint layout screen, v)

/-- Draws a viewer on a screen of a given size. -/
def draw (v : Viewer) (screen : Size) : Screen × Viewer := v.drawIn (Layout.of screen) screen

/-! ### The loop -/

/-- Draws and takes a turn with each key in order, until there are no more or the viewer is told to
quit. It is drawn once more at the end. -/
def run (screen : Size) (v : Viewer) : List Key → Option (Screen × Viewer)
  | [] => some (v.draw screen)
  | key :: keys =>
    let (shown, v) := v.draw screen
    if v.quitting then some (shown, v)
    else
      match v.turn (some key) with
      | none => none
      | some v => v.run screen keys

end Viewer

end ScriptMachine
