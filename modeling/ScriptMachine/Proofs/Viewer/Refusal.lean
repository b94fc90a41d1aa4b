import ScriptMachine.Proofs.Machine.Passes
import ScriptMachine.Proofs.Machine.Restorable
import ScriptMachine.Proofs.Viewer.Stepping

/-!
# Steps that are refused

A viewer asks for room before it runs a tick, so a step forward that is refused changes nothing but
the message. A step back is not as careful. It takes the newest moment out of the history before it
knows whether the moment can be restored, and if not, the machine stays where it is while the moment
is lost (`Viewer.backward_refused`).

Whether that can happen is a matter of the program (`Viewer.refused_steps`). It never does if what
was recorded can be put back (`Viewer.Sheltered`), and that is so if the ids of all scripts stand
for some script (`Program.Resolved`). Otherwise it is enough to start a script whose id does not.
-/

namespace ScriptMachine

/-! ### What a refusal changes -/

namespace Viewer

variable {v v' : Viewer}

/-- **A step forward is refused** if there is no room, and then only the message is another one. -/
theorem forward_refused (h : v.forward = some (false, v')) :
    v.history.limit < v.history.used + v.machine.moment.size ∧
      v' = v.complain ("Tick history full (" ++ toString v.history.limit ++ " bytes)") := by
  -- A step forward records first and ticks then, so what is refused has not ticked.
  unfold forward at h
  split at h
  · rename_i e h_push
    unfold History.push at h_push
    split at h_push
    · contradiction
    · rename_i h_full
      obtain rfl := Except.error.inj h_push
      obtain ⟨-, rfl⟩ := Prod.mk.inj (Option.some.inj h)
      exact ⟨Nat.lt_of_not_le h_full, rfl⟩
  · -- a tick that comes to an end is not refused
    obtain ⟨machine, -, h⟩ := Option.bind_eq_some_iff.1 h
    exact absurd (congrArg Prod.fst (Option.some.inj h)) nofun

/-- **A step back is refused** if there is no moment in the history, and then only the message is
another one; or if the newest moment cannot be restored, and then that moment is lost. -/
theorem backward_refused (h : v.backward.1 = false) :
    (v.history.length = 0 ∧
      v.backward.2 = v.complain "Cannot step backward: at the first recorded tick") ∨
    ∃ moment history e, v.history.pop? = some (moment, history) ∧
      v.machine.restoreBytes moment.save = .error e ∧
      v.backward.2 = { v with history }.complain ("Cannot step backward: " ++ e.message) := by
  unfold backward at h ⊢
  split at h
  · rename_i h_pop
    rw [h_pop]
    exact .inl ⟨History.pop?_eq_none_iff.1 h_pop, rfl⟩
  · -- there is a moment, and it is taken out before it is tried
    rename_i moment history h_pop
    rw [h_pop]
    dsimp only
    split at h
    · rename_i e h_restore
      exact .inr ⟨moment, history, e, rfl, h_restore, rfl⟩
    · contradiction

/-! ### Walks on which nothing is lost -/

/-- Every state that is recorded in the course of the steps can be counted. -/
def Tallies (v : Viewer) (strides : List Stride) : Prop :=
  ∀ past, past ++ [.forward] <+: strides → ∀ v', v.walk past = some v' →
    v'.history.used + v'.machine.moment.size ≤ v'.history.limit → v'.machine.Countable

/-- The machine, and whatever the history leads back to, is in a state that can be put back. -/
structure Sheltered (p : Program) (v : Viewer) : Prop where
  setting : v.setting.Ordinary
  machine : v.machine.Restorable p
  moments : ∀ moment ∈ v.history.newestFirst,
    ∃ s : State, s.Restorable p ∧ s.Countable ∧ moment.save = s.save

theorem limit_stride {s : Stride} (h : v.stride s = some v') :
    v'.history.limit = v.history.limit := by
  cases s with
  | forward =>
    -- a push keeps the limit, and the tick is none of the history's
    obtain ⟨⟨done, v₁⟩, h_forward, rfl⟩ := Option.map_eq_some_iff.1 h
    unfold forward at h_forward
    split at h_forward
    · obtain ⟨-, rfl⟩ := Prod.mk.inj (Option.some.inj h_forward)
      rfl
    · rename_i history h_push
      obtain ⟨-, rfl⟩ := History.push_eq_ok_iff.1 h_push
      obtain ⟨machine, -, h_forward⟩ := Option.bind_eq_some_iff.1 h_forward
      obtain ⟨-, rfl⟩ := Prod.mk.inj (Option.some.inj h_forward)
      rfl
  | backward =>
    obtain rfl := Option.some.inj h
    unfold backward
    split
    · rfl
    · rename_i moment history h_pop
      have h_limit := (History.of_pop?_eq_some h_pop).2
      split
      · exact h_limit
      · exact h_limit

theorem limit_walk {strides : List Stride} (h : v.walk strides = some v') :
    v'.history.limit = v.history.limit := by
  induction strides generalizing v with
  | nil =>
    obtain rfl := Option.some.inj h
    rfl
  | cons s rest ih =>
    obtain ⟨v₁, h_stride, h_rest⟩ := Option.bind_eq_some_iff.1 h
    exact (ih h_rest).trans (limit_stride h_stride)

/-- In a small history there is no room for a state that cannot be counted. -/
theorem tallies_of_limit (h_limit : v.history.limit < 2 ^ 34) (strides : List Stride) :
    v.Tallies strides := by
  intro past _ v' h_walk h_room
  refine State.countable_of_length_save ?_
  calc v'.machine.save.length
    _ ≤ v'.machine.moment.size := Nat.le_add_right _ _
    _ ≤ v'.history.limit := Nat.le_trans (Nat.le_add_left _ _) h_room
    _ = v.history.limit := limit_walk h_walk
    _ < 2 ^ 34 := h_limit

theorem Tallies.of_prefix {strides strides' : List Stride} (h : v.Tallies strides')
    (h_begins : strides <+: strides') : v.Tallies strides :=
  fun past h_past => h past (h_past.trans h_begins)

namespace Sheltered

variable {p : Program}

theorem forward (h : v.Sheltered p) (h_p : p.Writable) (h_resolved : p.Resolved)
    (h_count : v.history.used + v.machine.moment.size ≤ v.history.limit → v.machine.Countable)
    {done : Bool} (h_forward : v.forward = some (done, v')) : v'.Sheltered p := by
  unfold Viewer.forward at h_forward
  split at h_forward
  · obtain ⟨-, rfl⟩ := Prod.mk.inj (Option.some.inj h_forward)
    exact ⟨h.setting, h.machine, h.moments⟩
  · rename_i history h_push
    obtain ⟨h_room, rfl⟩ := History.push_eq_ok_iff.1 h_push
    obtain ⟨machine, h_tick, h_forward⟩ := Option.bind_eq_some_iff.1 h_forward
    obtain ⟨-, rfl⟩ := Prod.mk.inj (Option.some.inj h_forward)
    have h_runs := Machine.runs_tick h.setting Machine.lifetime _ _ _ h_tick
    have h_machine := h.machine.runs h_p h_resolved h_runs
    refine ⟨h.setting, ?_, List.forall_mem_cons.2 ⟨?_, h.moments⟩⟩
    · -- the log is none of the state
      exact ⟨h_machine.program, h_machine.globals, h_machine.tasks, h_machine.focus,
        h_machine.running⟩
    · -- the new moment leads back to the state before the tick, which was restorable as it is
      exact ⟨v.machine.toState, h.machine, h_count h_room, rfl⟩

/-- **Where all can be put back**, a step back is refused only if there is no way back. -/
theorem backward (h : v.Sheltered p) (h_p : p.Writable) :
    v.backward.2.Sheltered p ∧ (v.backward.1 = false → v.history.length = 0) := by
  cases h_pop : v.history.pop? with
  | none =>
    unfold Viewer.backward
    rw [h_pop]
    exact ⟨⟨h.setting, h.machine, h.moments⟩, fun _ => History.pop?_eq_none_iff.1 h_pop⟩
  | some popped =>
    obtain ⟨moment, history⟩ := popped
    obtain ⟨h_list, -⟩ := History.of_pop?_eq_some h_pop
    have h_moments := h.moments
    rw [h_list] at h_moments
    -- The newest moment is that of a state that can be put back, so no restore is refused.
    obtain ⟨⟨s, h_s, h_count, h_save⟩, h_older⟩ := List.forall_mem_cons.1 h_moments
    obtain ⟨machine, h_restore, h_machine⟩ := h_s.restoreBytes_save h_p h_count v.machine
    rw [← h_save] at h_restore
    obtain ⟨h_done, h_eq, h_history, h_setting, -⟩ := backward_of_restoreBytes h_pop h_restore
    refine ⟨⟨h_setting ▸ h.setting, h_eq ▸ h_machine, h_history ▸ h_older⟩, ?_⟩
    rw [h_done]
    nofun

theorem walk (h : v.Sheltered p) (h_p : p.Writable) (h_resolved : p.Resolved)
    {strides : List Stride} (h_tallies : v.Tallies strides) (h_walk : v.walk strides = some v') :
    v'.Sheltered p := by
  -- on the last step, as it is taken by a viewer that the steps before have led to
  induction strides using List.reverseRecOn generalizing v' with
  | nil =>
    obtain rfl := Option.some.inj h_walk
    exact h
  | append_singleton strides s ih =>
    rw [walk_concat] at h_walk
    obtain ⟨v₁, h_before, h_stride⟩ := Option.bind_eq_some_iff.1 h_walk
    have h_v₁ := ih (h_tallies.of_prefix (List.prefix_append strides [s])) h_before
    cases s with
    | forward =>
      obtain ⟨⟨done, v₂⟩, h_forward, rfl⟩ := Option.map_eq_some_iff.1 h_stride
      exact h_v₁.forward h_p h_resolved (h_tallies strides List.prefix_rfl v₁ h_before) h_forward
    | backward =>
      obtain rfl := Option.some.inj h_stride
      exact (h_v₁.backward h_p).1

end Sheltered

/-! ### Walks on which something is lost -/

theorem exists_of_backward (h : v.backward.1 = true) :
    ∃ moment history machine, v.history.pop? = some (moment, history) ∧
      v.machine.restoreBytes moment.save = .ok machine := by
  unfold backward at h
  split at h
  · contradiction
  · rename_i moment history h_pop
    dsimp only at h
    split at h
    · contradiction
    · rename_i machine h_restore
      exact ⟨moment, history, machine, h_pop, h_restore⟩

/-- Nothing but the message is changed by a refusal exactly if there was nothing to lose. -/
theorem backward_intact_iff (h : v.backward.1 = false) :
    (∃ message, v.backward.2 = v.complain message) ↔ v.history.length = 0 := by
  rcases backward_refused h with ⟨h_empty, h_eq⟩ | ⟨moment, history, e, h_pop, -, h_eq⟩
  · exact iff_of_true ⟨_, h_eq⟩ h_empty
  · -- a moment was tried, and is gone
    have h_list := (History.of_pop?_eq_some h_pop).1
    have h_length : v.history.length = history.length + 1 := congrArg List.length h_list
    refine iff_of_false ?_ (by omega)
    rintro ⟨message, h_same⟩
    -- the history would have to be as long as it was
    have h_history : history = v.history := congrArg Viewer.history (h_eq.symm.trans h_same)
    rw [← h_history] at h_length
    omega

end Viewer

namespace Machine

theorem pass_of_skip {serve : Task → Machine → Option Machine}
    (h : ∀ t m, serve t m = some m) (cursor : Option UInt32) (m : Machine) :
    m.pass serve cursor = some m := by
  induction cursor, m using pass.induct serve with
  | case1 cursor m h_after => rw [pass, h_after]
  | case2 cursor m t h_after h_none =>
    rw [h t m] at h_none
    contradiction
  | case3 cursor m t h_after m₁ h_some ih =>
    obtain rfl := Option.some.inj ((h t m).symm.trans h_some)
    rw [pass, h_after]
    simp only [h_some]
    exact ih

/-- A tick in which nobody takes part comes to an end. -/
theorem isSome_tick_none (setting : Setting) (bound : Nat) (m : Machine) :
    (tick setting (bound + 1) .none m).isSome := by
  have h_turn (p : Pass) (t : Task) (m : Machine) :
      p.turn setting (bodies setting bound) (bound + 1) .none t m = some m := by
    have h_kind : t.kind.overlaps .none = false := by
      simp [ScriptKind.overlaps, ScriptKind.none]
    rw [Pass.turn_eq, Pass.service_of_not_overlaps h_kind]
  have h_tick : tick setting (bound + 1) .none m =
      (m.pass (Pass.turn .handlers setting (bodies setting bound) (bound + 1) .none) none).bind
        fun m₁ => (m₁.pass (Pass.turn .normal setting (bodies setting bound) (bound + 1) .none)
          none).bind fun m₂ => some (m₂.settle .none) := rfl
  rw [h_tick, pass_of_skip (h_turn .handlers), Option.bind_some, pass_of_skip (h_turn .normal)]
  rfl

end Machine

/-- A viewer records the state that it is opened on. -/
theorem Viewer.exists_recording (m : Machine) : ∃ v,
    (Viewer.of plainSetting m m.moment.size .none).walk [.forward] = some v ∧
      v.history.newestFirst = [m.moment] := by
  obtain ⟨machine, h_tick⟩ := Option.isSome_iff_exists.1
    (Machine.isSome_tick_none plainSetting (Machine.lifetime - 1) m)
  have h_push : History.push { limit := m.moment.size } m.moment =
      .ok { limit := m.moment.size, newestFirst := [m.moment], used := 0 + m.moment.size } :=
    History.push_eq_ok_iff.2 ⟨Nat.le_of_eq (Nat.zero_add _), rfl⟩
  unfold walk stride forward Viewer.of
  dsimp only
  rw [h_push, show Machine.lifetime = Machine.lifetime - 1 + 1 from rfl, h_tick]
  exact ⟨_, rfl, rfl⟩

/-- If nothing is lost whatever the image comes to, the ids of its scripts stand for scripts. -/
theorem Image.resolved_of_intact {bytes : List UInt8} {i : Image}
    (h_decode : decode bytes = .ok i)
    (h : ∀ (m : Machine) (v : Viewer), i.Opening m → m.Countable →
      (Viewer.of plainSetting m m.moment.size .none).walk [.forward] = some v →
      v.backward.1 = false → v.history.length = 0) : i.program.Resolved := by
  intro s h_s
  -- a task of the script is recorded, and the viewer goes back to it
  obtain ⟨m, h_outcome, h_count, t, h_t, h_title⟩ := exists_outcome h_decode h_s
  obtain ⟨v, h_walk, h_list⟩ := Viewer.exists_recording m
  -- The viewer has one moment. If the step back were refused, nothing could be lost by hypothesis,
  -- but there is something.
  have h_done : v.backward.1 = true := by
    by_contra h_refused
    have h_empty := h m v h_outcome.opening h_count h_walk (Bool.eq_false_iff.2 h_refused)
    unfold History.length at h_empty
    rw [h_list] at h_empty
    contradiction
  obtain ⟨moment, history, machine, h_pop, h_restore⟩ := Viewer.exists_of_backward h_done
  obtain ⟨h_cons, -⟩ := History.of_pop?_eq_some h_pop
  obtain ⟨rfl, -⟩ := List.cons.inj (h_list.symm.trans h_cons)
  have h_restored := (h_outcome.restoreBytes_save h_decode h_count v.machine).symm.trans h_restore
  obtain ⟨s', h_s'⟩ : ∃ s', m.restored = .ok s' := by
    cases h_m : m.restored with
    | error e =>
      rw [h_m] at h_restored
      contradiction
    | ok s' => exact ⟨s', rfl⟩
  -- What was restored has found a script for each task, also for that of the script in question.
  obtain ⟨script, h_script⟩ := State.exists_restored_iff.1 ⟨s', h_s'⟩ t h_t
  obtain ⟨h_id, -⟩ := Prod.mk.inj h_title
  rw [h_outcome.rooted.program, h_id] at h_script
  exact ⟨script, h_script⟩

/-- **What a refused step changes.** A step forward is refused only if the history has no room for
the state before it, and a step back only if the history is empty or its newest moment cannot be
restored. The machine and the selection stay as they are, and so does the history, except that a
moment that cannot be restored is lost. Take all viewers that are opened on what an accepted image
has come to, by whatever ordinary requests, with any limit and for any kinds of tasks, and let them
go any steps forward and back on which no state is recorded that has more tasks or handlers than 32
bits can count; in a history of less than 16 gigabytes there is no room for such a state. Then no
refused step changes anything but the message if and only if the id of each script of the image
stands for a script, for example if the scripts are numbered by their ordinals. -/
theorem Viewer.refused_steps {bytes : List UInt8} {i : Image}
    (h_decode : Image.decode bytes = .ok i) :
    (∀ v v' : Viewer, v.forward = some (false, v') →
      v.history.limit < v.history.used + v.machine.moment.size ∧
      v' = v.complain ("Tick history full (" ++ toString v.history.limit ++ " bytes)")) ∧
    (∀ v : Viewer, v.backward.1 = false →
      (v.history.length = 0 ∧
        v.backward.2 = v.complain "Cannot step backward: at the first recorded tick") ∨
      ∃ moment history e, v.history.pop? = some (moment, history) ∧
        v.machine.restoreBytes moment.save = .error e ∧
        v.backward.2 = { v with history }.complain ("Cannot step backward: " ++ e.message)) ∧
    ((∀ (setting : Setting) (m : Machine) (limit : Nat) (mask : ScriptKind) (strides : List Stride)
        (v : Viewer), setting.Ordinary → i.Opening m →
        (Viewer.of setting m limit mask).Tallies strides →
        (Viewer.of setting m limit mask).walk strides = some v →
        v.backward.1 = false → ∃ message, v.backward.2 = v.complain message) ↔
      i.program.Resolved) ∧
    (∀ (setting : Setting) (m : Machine) (limit : Nat) (mask : ScriptKind) (strides : List Stride),
      limit < 2 ^ 34 → (Viewer.of setting m limit mask).Tallies strides) ∧
    (i.program.Numbered → i.program.Resolved) := by
  have h_i := Image.writable_of_decode h_decode
  refine ⟨fun v v' h => forward_refused h, fun v h => backward_refused h, ⟨fun h => ?_, ?_⟩,
    fun setting m limit mask strides h_limit => tallies_of_limit h_limit strides,
    fun h_numbered => h_numbered.titled.resolved⟩
  · refine Image.resolved_of_intact h_decode fun m v h_opening h_count h_walk h_done => ?_
    refine (backward_intact_iff h_done).1 (h plainSetting m _ .none [.forward] v
      (fun _ h_native => absurd h_native List.not_mem_nil) h_opening ?_ h_walk h_done)
    -- the one state that is recorded is the first
    intro past h_past v' h_walk' _
    obtain rfl := List.length_eq_zero_iff.1 (by simpa using h_past.length_le)
    obtain rfl := Option.some.inj h_walk'
    exact h_count
  · intro h_resolved setting m limit mask strides v h_setting h_opening h_tallies h_walk h_done
    have h_opened : (Viewer.of setting m limit mask).Sheltered i.program :=
      ⟨h_setting, h_opening.restorable h_i h_resolved, List.forall_mem_nil _⟩
    have h_v := h_opened.walk h_i.program h_resolved h_tallies h_walk
    exact (backward_intact_iff h_done).2 ((h_v.backward h_i.program).2 h_done)

/-- There is room for two moments. A third step forward is refused, and so is a third step back. -/
theorem refused_steps_counting :
    Image.decode countingImage.encode = .ok countingImage ∧
    (∃ v v' : Viewer,
      (Viewer.of addingSetting (Machine.load {} countingImage) 900 .all).walk
        [.forward, .forward] = some v ∧
      v.forward = some (false, v') ∧ v' = v.complain "Tick history full (900 bytes)") ∧
    ∃ v : Viewer,
      (Viewer.of addingSetting (Machine.load {} countingImage) 900 .all).walk
        [.forward, .forward, .backward, .backward] = some v ∧
      v.backward.1 = false ∧ ∃ message, v.backward.2 = v.complain message := by
  have h_decode : Image.decode countingImage.encode = .ok countingImage := by decide +kernel
  obtain ⟨h_forward, -, h_intact, h_tallies, h_numbered⟩ := Viewer.refused_steps h_decode
  have h_opening : countingImage.Opening (Machine.load {} countingImage) :=
    ⟨plainSetting, Unit, .done (), {}, _, (), fun _ h => absurd h List.not_mem_nil, trivial,
      .inl rfl, rfl⟩
  refine ⟨h_decode, ?_, ?_⟩
  · have h_full : (((Viewer.of addingSetting (Machine.load {} countingImage) 900 .all).walk
        [.forward, .forward]).bind Viewer.forward).map
          (fun r => (r.1, r.2.history.limit)) = some (false, 900) := by decide +kernel
    obtain ⟨⟨done, v'⟩, h_bind, h_facts⟩ := Option.map_eq_some_iff.1 h_full
    obtain ⟨rfl, h_limit⟩ := Prod.mk.inj h_facts
    obtain ⟨v, h_walk, h_v'⟩ := Option.bind_eq_some_iff.1 h_bind
    obtain ⟨-, rfl⟩ := h_forward v v' h_v'
    refine ⟨v, _, h_walk, h_v', ?_⟩
    rw [show v.history.limit = 900 from h_limit]
    rfl
  · have h_empty : ((Viewer.of addingSetting (Machine.load {} countingImage) 900 .all).walk
        [.forward, .forward, .backward, .backward]).map (·.backward.1) = some false := by
      decide +kernel
    obtain ⟨v, h_walk, h_refused⟩ := Option.map_eq_some_iff.1 h_empty
    refine ⟨v, h_walk, h_refused, ?_⟩
    exact h_intact.2 (h_numbered countingImage_numbered) addingSetting _ 900 .all _ v
      addingSetting_ordinary h_opening (h_tallies addingSetting _ 900 .all _ (by decide)) h_walk
      h_refused

/-- The tick can be taken, but not be taken back, and what was recorded for that is lost. -/
theorem refusal_loses_stray :
    (∃ v : Viewer,
      (Viewer.of plainSetting strayMachine History.noLimit .all).walk [.forward] = some v ∧
      v.backward.1 = false ∧ v.history.length = 1 ∧ v.backward.2.history.length = 0 ∧
      v.backward.2.message = "Cannot step backward: task 1 refers to unknown script 5") ∧
    ¬ ∀ (bytes : List UInt8) (i : Image) (setting : Setting) (m₀ : Machine) (limit : Nat)
      (mask : ScriptKind) (strides : List Viewer.Stride) (v : Viewer),
      Image.decode bytes = .ok i →
      (Viewer.of setting (m₀.load i) limit mask).walk strides = some v →
      v.backward.1 = false → v.backward.2.history = v.history := by
  have h_lost : ((Viewer.of plainSetting strayMachine History.noLimit .all).walk [.forward]).map
      (fun v => (v.backward.1, v.history.length, v.backward.2.history.length,
        v.backward.2.message)) =
        some (false, 1, 0, "Cannot step backward: task 1 refers to unknown script 5") := by
    decide +kernel
  obtain ⟨v, h_walk, h_facts⟩ := Option.map_eq_some_iff.1 h_lost
  simp only [Prod.mk.injEq] at h_facts
  obtain ⟨h_refused, h_length, h_length', h_message⟩ := h_facts
  refine ⟨⟨v, h_walk, h_refused, h_length, h_length', h_message⟩, fun h => ?_⟩
  rw [h _ strayImage plainSetting {} _ .all _ v decode_strayImage h_walk h_refused,
    h_length] at h_length'
  exact Nat.one_ne_zero h_length'

end ScriptMachine
