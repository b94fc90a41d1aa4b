import ScriptMachine.Viewer.Drawing
import Mathlib.Algebra.BigOperators.Group.List.Basic

/-!
# Panes on a screen

A screen keeps its cells in one list. As long as every row that is put on it is as wide as the screen
the rows can be read off again (`Screen.rows_ofRows`), and so can the part of them in which a pane
stands (`Rows.window`). So it is shown of everything that is painted how wide and how high it is
(`Rows.Fills`); no pane runs into its neighbour then, and each stands in its place on the screen, in
any layout that fits it (`Viewer.standsOn_paint`).
-/

namespace ScriptMachine

/-! ### Areas -/

namespace Rows

variable {rows left right top bottom : Rows} {width height : Nat}

/-- There are as many rows as an area is high, all as long as it is wide. -/
structure Fills (rows : Rows) (width height : Nat) : Prop where
  height : rows.length = height
  width : ∀ row ∈ rows, row.length = width

/-- The part of an area that begins at a column and a row and has a given size. -/
def window (rows : Rows) (column row : Nat) (size : Size) : Rows :=
  ((rows.drop row).take size.height).map fun cells => (cells.drop column).take size.width

/-- The columns can be cut out before the rows. -/
theorem window_eq (rows : Rows) (column row : Nat) (size : Size) :
    rows.window column row size =
      ((rows.map fun cells => (cells.drop column).take size.width).drop row).take size.height := by
  rw [window, List.map_take, List.map_drop]

theorem Fills.append {upper lower : Nat} (h_top : top.Fills width upper)
    (h_bottom : bottom.Fills width lower) : (top ++ bottom).Fills width (upper + lower) where
  height := by rw [List.length_append, h_top.height, h_bottom.height]
  width row h_row := (List.mem_append.1 h_row).elim (h_top.width row) (h_bottom.width row)

theorem Fills.beside {width' : Nat} (h_left : left.Fills width height)
    (h_right : right.Fills width' height) : (left.beside right).Fills (width + width') height where
  height := by
    rw [Rows.beside, List.length_zipWith, h_left.height, h_right.height, Nat.min_self]
  width row h_row := by
    -- Each row is one of the left and the one of the right beside it.
    obtain ⟨k, h_k, rfl⟩ := List.mem_iff_getElem.1 h_row
    simp only [Rows.beside, List.getElem_zipWith, List.length_append]
    rw [h_left.width _ (List.getElem_mem _), h_right.width _ (List.getElem_mem _)]

/-- The left one of two areas side by side. -/
theorem Fills.map_take_beside (h_left : left.Fills width height) (h_right : right.length = height) :
    (left.beside right).map (fun row => (row.drop 0).take width) = left := by
  refine List.ext_getElem ?_ fun k h_k h_k' => ?_
  · rw [List.length_map, Rows.beside, List.length_zipWith, h_left.height, h_right, Nat.min_self]
  · simp only [Rows.beside, List.getElem_map, List.getElem_zipWith, List.drop_zero]
    exact List.take_left' (h_left.width _ (List.getElem_mem _))

/-- The right one of two areas side by side. -/
theorem Fills.map_drop_beside {width' : Nat} (h_left : left.Fills width height)
    (h_right : right.Fills width' height) :
    (left.beside right).map (fun row => (row.drop width).take width') = right := by
  refine List.ext_getElem ?_ fun k h_k h_k' => ?_
  · rw [List.length_map, Rows.beside, List.length_zipWith, h_left.height, h_right.height,
      Nat.min_self]
  · simp only [Rows.beside, List.getElem_map, List.getElem_zipWith]
    rw [List.drop_left' (h_left.width _ (List.getElem_mem _)),
      List.take_of_length_le (Nat.le_of_eq (h_right.width _ (List.getElem_mem _)))]

/-! ### Lines in a frame -/

/-- A line is painted in a row of a framed pane. -/
def Shows (rows : Rows) (size : Size) (row : Nat) (line : Line) : Prop :=
  row < size.inner.height ∧ ∃ bar : Cell, bar.symbol = '│' ∧
    rows[row + 1]? = some (bracket size.width bar (line.paint size.inner.width) bar)

theorem length_ofLines (size : Size) (lines : List Line) :
    (ofLines size lines).length = size.height := by
  unfold ofLines
  rw [List.length_append, List.length_map, List.length_take, List.length_replicate]
  omega

theorem fills_ofLines (size : Size) (lines : List Line) :
    (ofLines size lines).Fills size.width size.height where
  height := length_ofLines size lines
  width row h_row := by
    -- the rows with lines come first, then empty ones up to the height
    obtain h_row | h_row := List.mem_append.1 h_row
    · obtain ⟨line, -, rfl⟩ := List.mem_map.1 h_row
      exact Line.length_paint line size.width
    · rw [List.eq_of_mem_replicate h_row]
      exact Line.length_paint {} size.width

/-- A row between two ends is as long as its frame is wide, however narrow that is. -/
theorem length_bracket {size : Size} {between : List Cell} (left right : Cell)
    (h : between.length = size.inner.width) :
    (bracket size.width left between right).length = size.width := by
  have h_inner : size.inner.width = size.width - 2 := rfl
  rw [bracket, List.length_take, List.length_append, List.length_cons, List.length_singleton, h,
    h_inner]
  omega

theorem fills_framed (size : Size) (frame : Style) (title : String) (lines : List Line) :
    (framed size frame title fun inner => ofLines inner lines).Fills size.width size.height where
  height := by
    have h_inner : size.inner.height = size.height - 2 := rfl
    rw [framed, List.length_take, List.length_append, List.length_cons, List.length_map,
      length_ofLines, List.length_singleton, h_inner]
    omega
  width row h_row := by
    -- a row is one of the two edges or one of the content
    have h_row := List.mem_of_mem_take h_row
    rw [List.cons_append, List.mem_cons, List.mem_append, List.mem_singleton] at h_row
    obtain rfl | h_row | rfl := h_row
    · refine length_bracket _ _ ?_
      rw [List.length_append, List.length_map, List.length_take, List.length_replicate]
      omega
    · obtain ⟨inner, h_inner, rfl⟩ := List.mem_map.1 h_row
      exact length_bracket _ _ ((fills_ofLines size.inner lines).width inner h_inner)
    · exact length_bracket _ _ List.length_replicate

theorem getElem?_ofLines {size : Size} {lines : List Line} {row : Nat} {line : Line}
    (h_row : row < size.height) (h_line : lines[row]? = some line) :
    (ofLines size lines)[row]? = some (line.paint size.width) := by
  have h_lt := (List.getElem?_eq_some_iff.1 h_line).1
  unfold ofLines
  rw [List.getElem?_append_left (by rw [List.length_map, List.length_take]; omega),
    List.getElem?_map, List.getElem?_take_of_lt h_row, h_line]
  rfl

theorem shows_framed {size : Size} {frame : Style} {title : String} {lines : List Line} {row : Nat}
    {line : Line} (h_row : row < size.inner.height) (h_line : lines[row]? = some line) :
    (framed size frame title fun inner => ofLines inner lines).Shows size row line := by
  have h_height : row + 1 < size.height := by
    unfold Size.inner at h_row
    dsimp only at h_row
    omega
  refine ⟨h_row, ⟨'│', frame⟩, rfl, ?_⟩
  unfold framed
  dsimp only
  -- The upper edge is the row at the top, so the content is one row further down.
  rw [List.getElem?_take_of_lt h_height, List.cons_append, List.getElem?_cons_succ,
    List.getElem?_append_left ?_, List.getElem?_map, getElem?_ofLines h_row h_line]
  · rfl
  · rwa [List.length_map, length_ofLines]

end Rows

/-! ### Screens -/

namespace Screen

/-- Rows of one width are so many cells apart. -/
theorem drop_flatten {rows : Rows} {width height : Nat} (h : rows.Fills width height) {k : Nat}
    (h_k : k ≤ height) : rows.flatten.drop (k * width) = (rows.drop k).flatten := by
  have h_lengths : rows.map List.length = List.replicate height width := by
    rw [← h.height, ← List.map_const']
    exact List.map_congr_left h.width
  -- The rows before the k-th have as many cells together as `k` rows of the width.
  have h_sum : ((rows.map List.length).take k).sum = k * width := by
    rw [h_lengths, List.take_replicate, Nat.min_eq_left h_k, List.sum_replicate_nat]
  rw [← h_sum, List.drop_sum_flatten]

/-- The rows of which a screen was made are those that it shows. -/
theorem rows_ofRows {size : Size} {rows : Rows} (h : rows.Fills size.width size.height) :
    (ofRows size rows).rows = rows := by
  refine List.ext_getElem ?_ fun k h_k h_k' => ?_
  · rw [Screen.rows, List.length_map, List.length_range, h.height]
    rfl
  · -- Cut at the beginning of a row, what is left begins with that row.
    have h_drop : rows.flatten.drop (k * size.width) = rows[k] ++ (rows.drop (k + 1)).flatten := by
      rw [drop_flatten h (h.height ▸ Nat.le_of_lt h_k'), List.drop_eq_getElem_cons h_k',
        List.flatten_cons]
    simp only [Screen.rows, List.getElem_map, List.getElem_range]
    change (rows.flatten.drop (k * size.width)).take size.width = rows[k]
    rw [h_drop]
    exact List.take_left' (h.width _ (List.getElem_mem h_k'))

end Screen

/-! ### Layouts -/

/-- The panes and the status bar below them fill the screen: each column of panes is as high as it
can be, and the two are as wide as the screen. -/
structure Layout.Fits (layout : Layout) (screen : Size) : Prop where
  left : layout.tasks.width = layout.code.width
  right : layout.globals.width = layout.stack.width
  width : layout.code.width + layout.stack.width = screen.width
  leftHeight : layout.code.height + layout.tasks.height + 1 = screen.height
  rightHeight : layout.stack.height + layout.globals.height + 1 = screen.height
  status : layout.statusWidth ≤ screen.width

theorem share_le {percent length : Nat} (h : percent ≤ 99) : share percent length ≤ length := by
  have h_mul : percent * length ≤ 99 * length := Nat.mul_le_mul_right length h
  unfold share
  omega

/-- The viewer fills every screen on which there is room for its status bar. -/
theorem Layout.fits_of {screen : Size} (h : 0 < screen.height) : (Layout.of screen).Fits screen where
  left := rfl
  right := rfl
  width := Nat.add_sub_cancel' (share_le (by decide))
  leftHeight := by
    have h_share : share 70 (screen.height - 1) ≤ screen.height - 1 := share_le (by decide)
    unfold Layout.of
    dsimp only
    omega
  rightHeight := by
    have h_share : share 55 (screen.height - 1) ≤ screen.height - 1 := share_le (by decide)
    unfold Layout.of
    dsimp only
    omega
  status := share_le (by decide)

namespace Viewer

variable {v : Viewer} {layout : Layout} {screen : Size}

/-- What a screen shows is the panes of a viewer, each in its place: the code over the tasks, and to
the right of them the stack over the globals. -/
structure StandsOn (v : Viewer) (layout : Layout) (shown : Screen) : Prop where
  code : shown.rows.window 0 0 layout.code = v.paintCode layout.code
  tasks : shown.rows.window 0 layout.code.height layout.tasks = v.paintTasks layout.tasks
  stack : shown.rows.window layout.code.width 0 layout.stack = v.paintStack layout.stack
  globals : shown.rows.window layout.code.width layout.stack.height layout.globals =
    v.paintGlobals layout.globals

theorem fills_paintPane (v : Viewer) (pane : Pane) (size : Size) (title : String)
    (lines : List Line) : (v.paintPane pane size title lines).Fills size.width size.height :=
  Rows.fills_framed size _ title lines

theorem length_paintStatus (v : Viewer) (leftWidth rightWidth : Nat) :
    (v.paintStatus leftWidth rightWidth).length = leftWidth + rightWidth := by
  simp only [paintStatus, List.length_append, Line.length_paint, Line.length_paintRight]

/-- The two columns of panes. -/
theorem fills_left (v : Viewer) (h : layout.Fits screen) :
    (v.paintCode layout.code ++ v.paintTasks layout.tasks).Fills layout.code.width
      (layout.code.height + layout.tasks.height) :=
  (v.fills_paintPane _ _ _ _).append (h.left ▸ v.fills_paintPane _ layout.tasks _ _)

theorem fills_right (v : Viewer) (h : layout.Fits screen) :
    (v.paintStack layout.stack ++ v.paintGlobals layout.globals).Fills layout.stack.width
      (layout.code.height + layout.tasks.height) := by
  -- Both columns end where the status bar begins, so they are of one height.
  have h_height : layout.code.height + layout.tasks.height =
      layout.stack.height + layout.globals.height :=
    Nat.add_right_cancel (h.leftHeight.trans h.rightHeight.symm)
  rw [h_height]
  exact (v.fills_paintPane _ _ _ _).append (h.right ▸ v.fills_paintPane _ layout.globals _ _)

/-- The rows of the screen: the two columns side by side, and the status bar. -/
theorem rows_paint (v : Viewer) (h : layout.Fits screen) :
    ∃ bar, (v.paint layout screen).rows =
      (v.paintCode layout.code ++ v.paintTasks layout.tasks).beside
        (v.paintStack layout.stack ++ v.paintGlobals layout.globals) ++ [bar] := by
  refine ⟨v.paintStatus layout.statusWidth (screen.width - layout.statusWidth), ?_⟩
  have h_panes := (v.fills_left h).beside (v.fills_right h)
  have h_bar : Rows.Fills [v.paintStatus layout.statusWidth (screen.width - layout.statusWidth)]
      screen.width 1 := by
    refine ⟨rfl, fun row h_row => ?_⟩
    rw [List.mem_singleton.1 h_row, length_paintStatus, Nat.add_sub_cancel' h.status]
  -- What is put together has as many rows as the screen, so nothing is cut off below.
  have h_all := (h.width ▸ h_panes).append h_bar
  rw [h.leftHeight] at h_all
  change (Screen.ofRows screen (List.take screen.height _)).rows = _
  rw [List.take_of_length_le (Nat.le_of_eq h_all.height)]
  exact Screen.rows_ofRows h_all

/-- Painted in a layout that fits the screen, each pane stands in its place. -/
theorem standsOn_paint (v : Viewer) (h : layout.Fits screen) :
    v.StandsOn layout (v.paint layout screen) := by
  obtain ⟨bar, h_rows⟩ := v.rows_paint h
  have h_left := v.fills_left h
  have h_right := v.fills_right h
  have h_code : (v.paintCode layout.code).length = layout.code.height :=
    (v.fills_paintPane _ _ _ _).height
  have h_tasks : (v.paintTasks layout.tasks).length = layout.tasks.height :=
    (v.fills_paintPane _ _ _ _).height
  have h_stack : (v.paintStack layout.stack).length = layout.stack.height :=
    (v.fills_paintPane _ _ _ _).height
  have h_globals : (v.paintGlobals layout.globals).length = layout.globals.height :=
    (v.fills_paintPane _ _ _ _).height
  -- a window is cut out of its column, and the status bar is below both columns
  refine ⟨?_, ?_, ?_, ?_⟩
  all_goals rw [h_rows, Rows.window_eq, List.map_append]
  · rw [h_left.map_take_beside h_right.height, List.append_assoc, List.drop_zero,
      List.take_left' h_code]
  · rw [h.left, h_left.map_take_beside h_right.height, List.append_assoc, List.drop_left' h_code,
      List.take_left' h_tasks]
  · rw [h_left.map_drop_beside h_right, List.append_assoc, List.drop_zero, List.take_left' h_stack]
  · rw [h.right, h_left.map_drop_beside h_right, List.append_assoc, List.drop_left' h_stack,
      List.take_left' h_globals]

end Viewer

end ScriptMachine
