import ScriptMachine.Proofs.Viewer.Stepping
import ScriptMachine.Proofs.Viewer.Panes

/-!
# What is selected is shown

A tick may end the selected task or take it to other code, and a key scrolls by a line however many
lines there are. Two things keep what is selected in view. Every step that may leave the selection
behind the tasks clamps it (`Viewer.Inside`). And every drawing settles the panes anew, from a
wanted window that holds the selected line; clamping the window to the lines that there are does not
lose a line that it holds (`within_clampScroll`).

So of where the panes were scrolled to before, and of the screens that were drawn on, nothing has to
be known (`Viewer.selection_shown`). How the screen is shared out among the panes does not matter
either: what is settled in a layout is shown in it, and if the layout fits the screen the panes stand
there as they are painted (`Viewer.StandsOn`).
-/

namespace ScriptMachine

/-! ### Windows -/

theorem clampScroll_le (first total visible : Nat) :
    clampScroll first total visible ≤ total - visible := Nat.min_le_right _ _

/-- A line in the wanted window is in the clamped one. -/
theorem within_clampScroll (first visible : Nat) {total line : Nat} (h_first : first ≤ line)
    (h_last : line < first + visible) (h_total : line < total) :
    clampScroll first total visible ≤ line ∧ line < clampScroll first total visible + visible := by
  unfold clampScroll
  omega

theorem Size.visible_eq {pane : Size} (h : 1 ≤ pane.inner.height) :
    pane.visible = pane.inner.height := Nat.max_eq_left h

/-- Each pane has a row within its frame. -/
structure Layout.Roomy (layout : Layout) : Prop where
  code : 1 ≤ layout.code.inner.height
  tasks : 1 ≤ layout.tasks.inner.height
  stack : 1 ≤ layout.stack.inner.height
  globals : 1 ≤ layout.globals.inner.height

namespace Viewer

/-! ### The selection -/

/-- The selection is one of the tasks, or the first place if there are none. -/
def Inside (v : Viewer) : Prop := v.selected ≤ v.machine.tasks.size - 1

variable {v v' : Viewer}

theorem Inside.lt_or (h : v.Inside) :
    v.selected < v.machine.tasks.size ∨ v.machine.tasks.size = 0 ∧ v.selected = 0 := by
  unfold Inside at h
  omega

theorem inside_clampSelection (v : Viewer) : v.clampSelection.Inside := Nat.min_le_right _ _

theorem Inside.forward (h : v.Inside) {done : Bool} (h_forward : v.forward = some (done, v')) :
    v'.Inside := by
  unfold Viewer.forward at h_forward
  split at h_forward
  · -- a step that is refused beforehand changes no task
    obtain ⟨-, rfl⟩ := Prod.mk.inj (Option.some.inj h_forward)
    exact h
  · obtain ⟨machine, -, h_forward⟩ := Option.bind_eq_some_iff.1 h_forward
    obtain ⟨-, rfl⟩ := Prod.mk.inj (Option.some.inj h_forward)
    exact inside_clampSelection _

theorem Inside.backward (h : v.Inside) : v.backward.2.Inside := by
  unfold Viewer.backward
  split
  · exact h
  · split
    · exact h
    · exact inside_clampSelection _

theorem Inside.play (h : v.Inside) (h_play : v.play = some v') : v'.Inside := by
  unfold Viewer.play at h_play
  split at h_play
  · obtain ⟨⟨done, v₁⟩, h_forward, h_play⟩ := Option.bind_eq_some_iff.1 h_play
    obtain rfl := Option.some.inj h_play
    have h_v₁ : v₁.Inside := h.forward h_forward
    exact h_v₁
  · exact Option.some.inj h_play ▸ h

theorem Inside.scrollUp (h : v.Inside) : v.scrollUp.Inside := by
  unfold Viewer.scrollUp
  cases v.focus with
  | tasks => exact Nat.le_trans (Nat.sub_le _ _) h
  | code => exact h
  | stack => exact h
  | globals => exact h

theorem Inside.scrollDown (h : v.Inside) : v.scrollDown.Inside := by
  unfold Viewer.scrollDown
  cases v.focus with
  | tasks => exact inside_clampSelection { v with selected := v.selected + 1 }
  | code => exact h
  | stack => exact h
  | globals => exact h

theorem Inside.togglePlaying (h : v.Inside) : v.togglePlaying.Inside := by
  unfold Viewer.togglePlaying
  split <;> exact h

theorem Inside.press (h : v.Inside) {key : Key} (h_press : v.press key = some v') : v'.Inside := by
  unfold Viewer.press at h_press
  cases key with
  -- Only steps change the tasks, and only scrolling in the task pane the selection; steps clamp it.
  | left => exact Option.some.inj h_press ▸ Inside.backward (v := v.pause) h
  | right =>
    obtain ⟨⟨done, v₁⟩, h_forward, rfl⟩ := Option.map_eq_some_iff.1 h_press
    exact Inside.forward (v := v.pause) h h_forward
  | up => exact Option.some.inj h_press ▸ h.scrollUp
  | down => exact Option.some.inj h_press ▸ h.scrollDown
  | tab => exact Option.some.inj h_press ▸ h
  | backTab => exact Option.some.inj h_press ▸ h
  | char c =>
    dsimp only at h_press
    split at h_press
    · exact Option.some.inj h_press ▸ h
    · split at h_press
      · exact Option.some.inj h_press ▸ h.togglePlaying
      · exact Option.some.inj h_press ▸ h

/-! ### What happens to a viewer -/

/-- What can happen to a viewer: a key, a tick in either direction, time that passes until the next
tick of playing is due, that tick, and a drawing in any layout on a screen of any size. -/
inductive Event where
  | key (key : Key)
  | forward
  | backward
  | wait
  | play
  | draw (layout : Layout) (screen : Size)

def react (v : Viewer) : Event → Option Viewer
  | .key key => v.press key
  | .forward => v.forward.map (·.2)
  | .backward => some v.backward.2
  | .wait => some { v with due := true }
  | .play => v.play
  | .draw layout screen => some (v.drawIn layout screen).2

/-- A viewer after some events; none if a tick does not come to an end. -/
def after (v : Viewer) : List Event → Option Viewer
  | [] => some v
  | event :: rest => (v.react event).bind (·.after rest)

/-- A viewer of a loaded machine, with moments to go back to. -/
def opened (setting : Setting) (m : Machine) (history : History) (mask : ScriptKind) : Viewer :=
  { of setting m history.limit mask with history }

theorem inside_opened (setting : Setting) (m : Machine) (history : History) (mask : ScriptKind) :
    (opened setting m history mask).Inside := Nat.zero_le _

theorem Inside.react (h : v.Inside) {event : Event} (h_react : v.react event = some v') :
    v'.Inside := by
  cases event with
  | key key => exact h.press h_react
  | forward =>
    obtain ⟨⟨done, v₁⟩, h_forward, rfl⟩ := Option.map_eq_some_iff.1 h_react
    exact h.forward h_forward
  | backward => exact Option.some.inj h_react ▸ h.backward
  | wait => exact Option.some.inj h_react ▸ h
  | play => exact h.play h_react
  | draw layout screen => exact Option.some.inj h_react ▸ h

theorem Inside.after (h : v.Inside) {events : List Event} (h_after : v.after events = some v') :
    v'.Inside := by
  induction events generalizing v with
  | nil => exact Option.some.inj h_after ▸ h
  | cons event rest ih =>
    -- one event keeps the selection inside, and the rest begins there
    obtain ⟨v₁, h_react, h_rest⟩ := Option.bind_eq_some_iff.1 h_after
    exact ih (h.react h_react) h_rest

/-! ### What is shown -/

/-- The selection is shown. -/
structure ShowsSelection (v : Viewer) (layout : Layout) : Prop where
  /-- One of the tasks is selected, or the first place if there are none. -/
  selected : v.selected < v.machine.tasks.size ∨ v.machine.tasks.size = 0 ∧ v.selected = 0
  /-- The selected task is in a row of the task pane, and marked there. -/
  task : ∀ t, v.selectedTask? = some t →
    ∃ row, v.tasksScroll layout.tasks.inner.height + row = v.selected ∧
      (v.paintTasks layout.tasks).Shows layout.tasks row (Contents.taskLine t true)
  /-- The first line with its instruction is in a row of the code pane, and marked there. -/
  code : ∀ t line text, v.selectedTask? = some t →
    v.listing[line]? = some (.code t.address text) →
    (∀ k < line, ∀ text', v.listing[k]? ≠ some (.code t.address text')) →
    ∃ row, v.codeScroll.first + row = line ∧
      (v.paintCode layout.code).Shows layout.code row
        (Contents.codeLine (.code t.address text) .selected)
  /-- No pane is scrolled further than to its last page. -/
  codeFirst : v.codeScroll.first ≤ v.listing.length - layout.code.inner.height
  stackFirst : v.stackScroll ≤ v.stackPaneLines.length - layout.stack.inner.height
  globalsFirst : v.globalsScroll ≤ v.globals.length - layout.globals.inner.height

/-! ### Drawing -/

theorem getElem?_taskLines {tasks : List Task} {k : Nat} {t : Task} (h : tasks[k]? = some t)
    (selected : Nat) :
    (Contents.taskLines tasks selected)[k]? = some (Contents.taskLine t (k == selected)) := by
  unfold Contents.taskLines
  -- The line that says that there is no task stands alone.
  rw [if_neg (by rintro h_empty; simp [List.isEmpty_iff.1 h_empty] at h), List.getElem?_map,
    List.getElem?_zipIdx, h, Nat.zero_add]
  rfl

theorem shows_task {size : Size} (h_room : 1 ≤ size.inner.height) {t : Task}
    (h_t : v.selectedTask? = some t) :
    ∃ row, v.tasksScroll size.inner.height + row = v.selected ∧
      (v.paintTasks size).Shows size row (Contents.taskLine t true) := by
  have h_lt : v.selected < v.machine.tasks.size := (List.getElem?_eq_some_iff.1 h_t).1
  obtain ⟨h_first, h_last⟩ := within_clampScroll (v.selected - (size.inner.height - 1))
    size.inner.height (Nat.sub_le _ _) (by omega) h_lt
  change v.tasksScroll size.inner.height ≤ v.selected at h_first
  change v.selected < v.tasksScroll size.inner.height + size.inner.height at h_last
  refine ⟨v.selected - v.tasksScroll size.inner.height, Nat.add_sub_cancel' h_first, ?_⟩
  -- The rows of the pane begin at the first line in view.
  refine Rows.shows_framed (by omega) ?_
  rw [Size.visible_eq h_room, List.getElem?_drop, Nat.add_sub_cancel' h_first,
    getElem?_taskLines h_t, beq_self_eq_true]

theorem currentLine?_eq {t : Task} {line : Nat} {text : String} (h_t : v.selectedTask? = some t)
    (h_line : v.listing[line]? = some (.code t.address text))
    (h_before : ∀ k < line, ∀ text', v.listing[k]? ≠ some (.code t.address text')) :
    v.currentLine? = some line := by
  unfold currentLine?
  rw [h_t]
  obtain ⟨h_lt, h_get⟩ := List.getElem?_eq_some_iff.1 h_line
  refine List.findIdx?_eq_some_iff_getElem.2 ⟨h_lt, ?_, fun k h_k h_found => ?_⟩
  · simp [h_get, ListingLine.address?]
  · -- another line with the address would be one of code
    have h_some : v.listing[k]? = some v.listing[k] := List.getElem?_eq_getElem (by omega)
    cases h_l : v.listing[k] with
    | code a text' =>
      rw [h_l] at h_found h_some
      obtain rfl : a = t.address := by simpa [ListingLine.address?] using h_found
      exact h_before k h_k text' h_some
    | _ => simp [h_l, ListingLine.address?] at h_found

/-- The window of the code pane holds the current line. -/
theorem within_settleCode {visible line : Nat} (h_visible : 1 ≤ visible)
    (h_line : v.currentLine? = some line) (h_lt : line < v.listing.length) :
    (v.settleCode visible).first ≤ line ∧ line < (v.settleCode visible).first + visible := by
  unfold settleCode
  dsimp only
  rw [h_line]
  -- Wherever the line was in the window, its row is taken to be one of the rows that there are now.
  have h_row : min (v.codeScroll.row.getD (visible / 2)) (visible - 1) ≤ visible - 1 :=
    Nat.min_le_right _ _
  exact within_clampScroll _ visible (Nat.sub_le _ _) (by dsimp only; omega) h_lt

theorem getElem?_codeLines {listing : List ListingLine} {line : Nat} {l : ListingLine}
    (h : listing[line]? = some l) (others : List UInt32) :
    (Contents.codeLines listing (some line) others)[line]? =
      some (Contents.codeLine l .selected) := by
  unfold Contents.codeLines
  rw [List.getElem?_map, List.getElem?_zipIdx, h, Nat.zero_add]
  simp

theorem shows_code {size : Size} (h_room : 1 ≤ size.inner.height) {line : Nat} {l : ListingLine}
    (h_current : v.currentLine? = some line) (h_line : v.listing[line]? = some l)
    (h_first : v.codeScroll.first ≤ line) (h_last : line < v.codeScroll.first + size.visible) :
    ∃ row, v.codeScroll.first + row = line ∧
      (v.paintCode size).Shows size row (Contents.codeLine l .selected) := by
  rw [Size.visible_eq h_room] at h_last
  refine ⟨line - v.codeScroll.first, Nat.add_sub_cancel' h_first, ?_⟩
  refine Rows.shows_framed (by omega) ?_
  rw [List.getElem?_drop, Nat.add_sub_cancel' h_first, h_current, getElem?_codeLines h_line]

/-- Drawing brings the selection into view, wherever the panes were scrolled to. -/
theorem Inside.showsSelection (h : v.Inside) {layout : Layout} (h_room : layout.Roomy) :
    (v.settle layout).ShowsSelection layout where
  selected := h.lt_or
  task t h_t := shows_task (v := v.settle layout) h_room.tasks h_t
  code t line text h_t h_line h_before := by
    have h_current : v.currentLine? = some line := currentLine?_eq h_t h_line h_before
    obtain ⟨h_first, h_last⟩ := within_settleCode (Nat.le_max_right _ 1) h_current
      (List.getElem?_eq_some_iff.1 h_line).1
    exact shows_code (v := v.settle layout) h_room.code h_current h_line h_first h_last
  codeFirst := by
    rw [← Size.visible_eq h_room.code]
    exact clampScroll_le _ _ _
  stackFirst := by
    rw [← Size.visible_eq h_room.stack]
    exact clampScroll_le _ _ _
  globalsFirst := by
    rw [← Size.visible_eq h_room.globals]
    exact clampScroll_le _ _ _

/-- **The selection is always shown.** Take a viewer opened on any machine with any history, and let
anything happen to it: keys, ticks, and drawings in any layouts on screens of any sizes. When it is
drawn then in a layout with room in each pane, one of the tasks is selected if there is one; the
selected task is in a row of the task pane, and the first line of the listing with its instruction,
if there is one, in a row of the code pane; and no pane leaves rows empty that it has lines for. If
the layout fits the screen, these panes with their rows are what the screen shows, each in its
place. -/
theorem selection_shown (setting : Setting) (m : Machine) (history : History) (mask : ScriptKind)
    (events : List Event) (v : Viewer) (h : (opened setting m history mask).after events = some v)
    (layout : Layout) (h_room : layout.Roomy) (screen : Size) :
    (v.drawIn layout screen).2.ShowsSelection layout ∧
      (layout.Fits screen →
        (v.drawIn layout screen).2.StandsOn layout (v.drawIn layout screen).1) :=
  ⟨((inside_opened setting m history mask).after h).showsSelection h_room,
    fun h_fits => (v.settle layout).standsOn_paint h_fits⟩

/-- A tick is run and taken back, and the code is scrolled, on a screen with few rows. -/
theorem selection_shown_counting :
    ∃ v, (opened addingSetting (Machine.load {} countingImage) { limit := 900 } .all).after
        [.draw (.of ⟨60, 12⟩) ⟨60, 12⟩, .key .right, .key .down, .draw (.of ⟨60, 12⟩) ⟨60, 12⟩,
          .key .left, .key .up] = some v ∧
      v.currentLine? = some 2 ∧ (Layout.of ⟨60, 12⟩).Roomy ∧
      (v.draw ⟨60, 12⟩).2.ShowsSelection (.of ⟨60, 12⟩) ∧
      (v.draw ⟨60, 12⟩).2.StandsOn (.of ⟨60, 12⟩) (v.draw ⟨60, 12⟩).1 := by
  have h_line : ((opened addingSetting (Machine.load {} countingImage) { limit := 900 } .all).after
      [.draw (.of ⟨60, 12⟩) ⟨60, 12⟩, .key .right, .key .down, .draw (.of ⟨60, 12⟩) ⟨60, 12⟩,
        .key .left, .key .up]).map currentLine? = some (some 2) := by
    decide +kernel
  obtain ⟨v, h, h_v⟩ := Option.map_eq_some_iff.1 h_line
  have h_room : (Layout.of ⟨60, 12⟩).Roomy := ⟨by decide, by decide, by decide, by decide⟩
  obtain ⟨h_shows, h_stands⟩ := selection_shown _ _ _ _ _ v h _ h_room ⟨60, 12⟩
  exact ⟨v, h, h_v, h_room, h_shows, h_stands (Layout.fits_of (by decide))⟩

end Viewer

end ScriptMachine
