import ScriptMachine.Machine
import ScriptMachine.Listing
import ScriptMachine.Viewer.Palette

/-!
# What the panes show

The lines of each pane of the viewer, as functions of what they show. Which of the lines are visible
is decided elsewhere, when it is known how much room there is.
-/

namespace ScriptMachine.Contents

/-! ### Spans -/

def span (text : String) (c : Color) : Span := ⟨text, .colored c⟩

def strongSpan (text : String) (c : Color) : Span := ⟨text, (Style.colored c).strong⟩

/-- A line all of one style, the rest of its row included. -/
def notice (text : String) : Line := { spans := [⟨text, {}⟩], style := .colored Palette.muted }

/-- A heading within a pane. -/
def heading (text : String) : Line :=
  { spans := [span "▸ " Palette.highlight, strongSpan text Palette.script] }

/-- A value, coloured by its type. -/
def valueSpan (v : Value) : Span :=
  match v.tag with
  | .int => span (toString v.int.toInt) Palette.number
  | .float | .vector => span (v.single.fixed 3) Palette.number
  | .boolean => span (toString v.truth) Palette.mnemonic
  | .object =>
    if v.object = 0 then span "null" Palette.muted
    else span ("#" ++ toString v.object.toNat) Palette.highlight
  | .untyped | .reserved5 | .reserved7 =>
    ⟨"0x" ++ Text.hexWord v.bits, { foreground := some Palette.bad, dim := true }⟩

/-- The name of the type of a value, and the value. -/
def typedValue (v : Value) : List Span :=
  [span (Text.padRight 7 v.tag.name) Palette.typeName, ⟨" ", {}⟩, valueSpan v]

/-! ### Code -/

/-- A mnemonic and its operand, if it has one. -/
def instructionSpans (text : String) : List Span :=
  let (mnemonic, rest) := text.toList.span (· != ' ')
  let isNumber (operand : List Char) : Bool := operand.head?.any fun c => c.isDigit || c == '-'
  let operandSpan (operand : List Char) : Span :=
    span (String.ofList operand) (if isNumber operand then Palette.number else Palette.operandName)
  strongSpan (Text.padRight 10 (String.ofList mnemonic)) Palette.mnemonic
    :: match rest with
      | [] => []
      | _ :: operand => [operandSpan operand]

/-- Who is about to run an instruction. -/
inductive Reader where
  | selected
  | other
  | nobody
deriving DecidableEq, Repr

def codeSpans (address : UInt32) (text : String) (reader : Reader) : List Span :=
  let number := Text.rightAligned 5 address.toNat ++ " "
  match reader with
  | .selected =>
    let spans := span "▶ " Palette.highlight :: strongSpan number Palette.highlight
      :: instructionSpans text
    spans.map fun s => { s with style := s.style.on Palette.bar }
  | .other => span "▷ " Palette.muted :: span number Palette.muted :: instructionSpans text
  | .nobody => ⟨"  ", {}⟩ :: span number Palette.muted :: instructionSpans text

def codeLine (line : ListingLine) (reader : Reader) : Line :=
  { spans :=
      match line with
      | .opening signature => [strongSpan ("begin " ++ signature) Palette.script]
      | .localName name => [span "      local " Palette.muted, span name Palette.plain]
      | .label name => [span (name ++ ":") Palette.label]
      | .code address text => codeSpans address text reader
      | .blank => [] }

/-- The listing. The selected task reads the line with the index `current`, and other tasks the
instructions at the given addresses. -/
def codeLines (listing : List ListingLine) (current : Option Nat) (others : List UInt32) :
    List Line :=
  listing.zipIdx.map fun (line, index) =>
    let isOther := line.address?.any others.contains
    codeLine line (if current = some index then .selected else if isOther then .other else .nobody)

/-! ### Tasks -/

def statusColor : Task.Status → Color
  | .stopped => Palette.bad
  | .waiting | .sleeping => Palette.muted
  | .inHandler => Palette.highlight
  | .runnable => Palette.good

def taskLine (t : Task) (selected : Bool) : Line :=
  let address := Text.padRight 6 (toString t.address.toNat)
  { spans :=
      [ span (Text.rightAligned 4 t.id.toNat ++ " ") Palette.muted,
        span (Text.padRight 24 t.name ++ " ") Palette.script,
        span ("@" ++ address ++ " ") Palette.number,
        span t.status.name (statusColor t.status) ]
        ++ if t.isWaiting then [span (" on " ++ toString t.waitingFor.toNat) Palette.muted] else []
    style := if selected then { background := some Palette.bar, bold := true } else {} }

/-- The tasks, of which the one with the index `selected` is marked. -/
def taskLines (tasks : List Task) (selected : Nat) : List Line :=
  if tasks.isEmpty then [notice "(no tasks)"]
  else tasks.zipIdx.map fun (t, index) => taskLine t (index == selected)

/-! ### Stacks and variables -/

/-- The slots of a stack from the top down. -/
def stackLines (s : Stack) : List Line :=
  if s.slots.isEmpty then [notice "  (empty)"]
  else s.slots.zipIdx.map fun (v, depth) =>
    { spans := span ("  [" ++ Text.rightAligned 2 depth ++ "] ") Palette.muted :: typedValue v }

/-- The locals of a task, of which the first `parameterCount` are parameters. -/
def localLines (locals : List Variable) (parameterCount : Nat) : List Line :=
  if locals.isEmpty then [notice "  (none)"]
  else locals.zipIdx.map fun (x, index) =>
    { spans :=
        [ span (if index < parameterCount then "  param " else "  local ") Palette.muted,
          span (Text.padRight 16 x.name ++ " ") Palette.plain ] ++ typedValue x.value }

/-- The stack and locals of a task. -/
def taskDataLines (t : Task) (parameterCount : Nat) : List Line :=
  let room := toString t.stack.size ++ "/" ++ toString Stack.capacity
  heading ("Stack of task " ++ toString t.id.toNat ++ " (" ++ room ++ ")") :: stackLines t.stack
    ++ heading ("Locals of " ++ t.name) :: localLines t.locals parameterCount

def mainStackLines (s : Stack) : List Line :=
  heading ("Main stack (" ++ toString s.size ++ ")") :: stackLines s

/-- The globals, numbered from 1. -/
def globalLines (globals : List Variable) : List Line :=
  if globals.isEmpty then [notice "(no globals)"]
  else globals.zipIdx.map fun (x, index) =>
    { spans :=
        [ span (Text.rightAligned 4 (index + 1) ++ " ") Palette.muted,
          span (Text.padRight 24 x.name ++ " ") Palette.plain ] ++ typedValue x.value }

/-! ### The status bar -/

/-- The counters of a run, and the message of the last action. -/
def statusLine (s : State) (back : Nat) (message : String) (failed : Bool) : Line :=
  let counters := " " ++ toString s.executed.toNat ++ " instr │ " ++ toString s.tasks.size
    ++ " tasks │ " ++ toString back ++ " back "
  let onBar (text : String) (c : Color) : Span := ⟨text, (Style.colored c).on Palette.bar⟩
  let tick : Style := (Style.colored .black).on (if failed then Palette.bad else Palette.accent)
  { spans :=
      [ ⟨" Tick " ++ toString s.ticks.toNat ++ " ", tick.strong⟩,
        onBar counters Palette.muted,
        onBar (" " ++ message ++ " ") (if failed then Palette.bad else Palette.plain) ]
    style := { background := some Palette.bar } }

/-- The keys that the viewer knows, and whether it plays or has nothing to play. -/
def keyLine (playing idle : Bool) : Line :=
  let onBar (text : String) (c : Color) : Span := ⟨text, (Style.colored c).on Palette.bar⟩
  let key (name : String) : Span := ⟨name, (Style.colored .black).on Palette.muted⟩
  let what (text : String) : Span := onBar text Palette.plain
  let bar : Span := onBar "│" Palette.muted
  let badge (text : String) (c : Color) : Span := ⟨text, ((Style.colored .black).on c).strong⟩
  { spans :=
      [ key " ←/→ ", what " tick ", bar, what " ",
        key " ⎵ ", what " play ", bar, what " ",
        key " ⇥ ", what " pane ", bar, what " ",
        key "q", what " quit " ]
        ++ if playing then [bar, badge " ▶ PLAYING " Palette.highlight]
          else if idle then [bar, badge " IDLE " Palette.good]
          else []
    style := { background := some Palette.bar } }

end ScriptMachine.Contents
