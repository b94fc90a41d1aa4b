import ScriptMachine.Text.Column

/-!
# Screens

What can be put on a screen of character cells. A `Line` is a list of `Span`s, each a text in one
style; painting a line fits it to a width, one cell per character. Everything else on a screen is
made by putting rows of cells side by side and on top of each other.

A `Style` leaves open what it does not say, so that styles can be laid over each other.
-/

namespace ScriptMachine

/-! ### Styles -/

inductive Color where
  | black
  | rgb (red green blue : UInt8)
deriving DecidableEq, Repr

structure Style where
  foreground : Option Color := none
  background : Option Color := none
  bold : Bool := false
  dim : Bool := false
deriving DecidableEq, Repr, Inhabited

namespace Style

/-- A style that only says how the characters are coloured. -/
def colored (c : Color) : Style := { foreground := some c }

def on (s : Style) (background : Color) : Style := { s with background := some background }

def strong (s : Style) : Style := { s with bold := true }

/-- A style laid over another one: what it leaves open is taken from below. -/
def upon (s below : Style) : Style :=
  { foreground := s.foreground <|> below.foreground
    background := s.background <|> below.background
    bold := s.bold || below.bold
    dim := s.dim || below.dim }

end Style

/-! ### Cells and lines -/

structure Cell where
  symbol : Char := ' '
  style : Style := {}
deriving DecidableEq, Repr, Inhabited

/-- A text in one style. -/
structure Span where
  text : String
  style : Style := {}
deriving DecidableEq, Repr

/-- Spans one after the other. The style of the line lies under them, on the whole row. -/
structure Line where
  spans : List Span := []
  style : Style := {}
deriving DecidableEq, Repr, Inhabited

namespace Line

/-- The line of a single span. -/
def ofSpan (s : Span) : Line := { spans := [s] }

/-- The cells of the text, however many they are. -/
def symbols (l : Line) : List Cell :=
  l.spans.flatMap fun s => s.text.toList.map fun c => ⟨c, s.style.upon l.style⟩

/-- A row of blank cells. -/
def blank (l : Line) (count : Nat) : List Cell := List.replicate count ⟨' ', l.style⟩

/-- The line in a row of the given width: what does not fit is cut off at the end. -/
def paint (l : Line) (width : Nat) : List Cell :=
  l.symbols.take width ++ l.blank (width - l.symbols.length)

/-- The line at the right end of a row. What does not fit is cut off at the end all the same. -/
def paintRight (l : Line) (width : Nat) : List Cell :=
  l.blank (width - l.symbols.length) ++ l.symbols.take width

@[simp] theorem length_paint (l : Line) (width : Nat) : (l.paint width).length = width := by
  simp only [paint, blank, List.length_append, List.length_take, List.length_replicate]
  omega

@[simp] theorem length_paintRight (l : Line) (width : Nat) :
    (l.paintRight width).length = width := by
  simp only [paintRight, blank, List.length_append, List.length_take, List.length_replicate]
  omega

end Line

/-! ### Areas -/

/-- How many cells there are across and down. -/
structure Size where
  width : Nat
  height : Nat
deriving DecidableEq, Repr, Inhabited

namespace Size

/-- What a frame of single lines leaves free. -/
def inner (size : Size) : Size := ⟨size.width - 2, size.height - 2⟩

end Size

/-- Rows of cells, the topmost first. -/
abbrev Rows := List (List Cell)

namespace Rows

/-- Two areas side by side. -/
def beside (left right : Rows) : Rows := List.zipWith (· ++ ·) left right

/-- Lines one below the other; the rows that are left over stay blank. -/
def ofLines (size : Size) (lines : List Line) : Rows :=
  (lines.take size.height).map (·.paint size.width)
    ++ List.replicate (size.height - lines.length) (Line.paint {} size.width)

/-- A row between two ends. A row too short for both keeps the left one. -/
def bracket (width : Nat) (left : Cell) (between : List Cell) (right : Cell) : List Cell :=
  (left :: between ++ [right]).take width

/-- Rows in a frame with a title on its upper edge. A frame too low for two edges keeps the upper
one. -/
def framed (size : Size) (frame : Style) (title : String) (content : Size → Rows) : Rows :=
  let cell (symbol : Char) : Cell := ⟨symbol, frame⟩
  let titled := (title.toList.take size.inner.width).map cell
  let edge (rest : Nat) : List Cell := List.replicate rest (cell '─')
  let upper := bracket size.width (cell '┌') (titled ++ edge (size.inner.width - titled.length))
    (cell '┐')
  let lower := bracket size.width (cell '└') (edge size.inner.width) (cell '┘')
  let middle := (content size.inner).map fun row => bracket size.width (cell '│') row (cell '│')
  (upper :: middle ++ [lower]).take size.height

end Rows

/-! ### Screens -/

/-- What a screen shows, row after row. -/
structure Screen where
  size : Size
  cells : List Cell
deriving DecidableEq, Repr

namespace Screen

def ofRows (size : Size) (rows : Rows) : Screen := { size, cells := rows.flatten }

/-- A screen that nothing has been drawn on. -/
def blank (size : Size) : Screen :=
  { size, cells := List.replicate (size.width * size.height) {} }

/-- The screen after its size has changed and before it is drawn again: the cells are kept in their
order, and so they move into other rows. -/
def resize (s : Screen) (size : Size) : Screen :=
  let count := size.width * size.height
  { size, cells := s.cells.take count ++ List.replicate (count - s.cells.length) {} }

def rows (s : Screen) : Rows :=
  (List.range s.size.height).map fun row => (s.cells.drop (row * s.size.width)).take s.size.width

/-- The characters of each row. -/
def texts (s : Screen) : List String := s.rows.map fun row => String.ofList (row.map (·.symbol))

end Screen

end ScriptMachine
