import Mathlib.Algebra.GroupWithZero.Nat
import ScriptMachine.Machine.Run

/-!
# The accounts of a history

A history does not add up what its moments take; it keeps the sum along, in a number of its own.
`History.memory_accounted` says that the two never part, whatever is done to a history in which
order ever. So a moment is refused if and only if it would pass the limit, and no subtraction takes
more than there is.

The invariant is `History.Sound`. Only a push and a pop touch the sum, since forgetting many moments
is the same as taking them out one after the other (`History.truncate_eq_pops`). What stands in a
history is said a second time, of lists of moments and without any sum kept along
(`History.Change.apply`).
-/

namespace ScriptMachine

namespace History

variable {h h' : History} {x : Moment}

theorem get?_of_cons (h_cons : h'.newestFirst = x :: h.newestFirst) (k : Nat) :
    h'.get? k = if k = h.length then some x else h.get? k := by
  unfold get? length
  rw [h_cons, List.reverse_cons, ← List.length_reverse]
  split
  · rename_i h_k
    rw [h_k, List.getElem?_concat_length]
  · rename_i h_k
    rcases Nat.lt_or_gt_of_ne h_k with h_lt | h_gt
    · rw [List.getElem?_append_left h_lt]
    · -- beyond the end of both
      rw [List.getElem?_eq_none (by rw [List.length_append, List.length_singleton]; omega),
        List.getElem?_eq_none (by omega)]

theorem lt_length_of_get? {k : Nat} (h_k : h.get? k = some x) : k < h.length := by
  unfold get? at h_k
  obtain ⟨h_lt, -⟩ := List.getElem?_eq_some_iff.1 h_k
  rwa [List.length_reverse] at h_lt

theorem exists_get? {k : Nat} (h_k : k < h.length) : ∃ x, h.get? k = some x := by
  unfold get?
  exact ⟨_, List.getElem?_eq_getElem (by rwa [List.length_reverse])⟩

theorem push_eq_ok_iff : h.push x = .ok h' ↔
    h.used + x.size ≤ h.limit ∧
      { h with newestFirst := x :: h.newestFirst, used := h.used + x.size } = h' := by
  unfold push
  split
  · rename_i h_room
    exact ⟨fun h_ok => ⟨h_room, Except.ok.inj h_ok⟩, fun h_ok => congrArg Except.ok h_ok.2⟩
  · rename_i h_full
    exact ⟨nofun, fun h_ok => absurd h_ok.1 h_full⟩

theorem of_pop?_eq_some (h_pop : h'.pop? = some (x, h)) :
    h'.newestFirst = x :: h.newestFirst ∧ h.limit = h'.limit := by
  unfold pop? at h_pop
  split at h_pop
  · contradiction
  · rename_i y rest h_list
    obtain ⟨rfl, rfl⟩ := Prod.mk.inj (Option.some.inj h_pop)
    exact ⟨h_list, rfl⟩

theorem pop?_eq_none_iff : h.pop? = none ↔ h.length = 0 := by
  unfold pop? length
  split <;> simp [*]

/-! ### Changes -/

/-- The moments that stand in a history, the oldest first. -/
def moments (h : History) : List Moment := h.newestFirst.reverse

/-- What can be done to a history. -/
inductive Change where
  | push (x : Moment)
  | record (s : State)
  | pop
  | truncate (length : Nat)

/-- What a change makes of a history. One that is refused, or has nothing to take out, makes no
difference. -/
def change (h : History) : Change → History
  | .push x => (h.push x).toOption.getD h
  | .record s => (h.push s.moment).toOption.getD h
  | .pop => (h.pop?.map (·.2)).getD h
  | .truncate length => h.truncate length

/-- What comes of an empty history with a limit. -/
def after (limit : Nat) (changes : List Change) : History := changes.foldl change { limit }

/-- Adds a moment to others if all of them together keep to the limit. -/
def accept (limit : Nat) (kept : List Moment) (x : Moment) : List Moment :=
  if (kept.map Moment.size).sum + x.size ≤ limit then kept ++ [x] else kept

/-- The moments that were accepted and neither taken out nor forgotten since, the oldest first. -/
def Change.apply (limit : Nat) (kept : List Moment) : Change → List Moment
  | .push x => accept limit kept x
  | .record s => accept limit kept s.moment
  | .pop => kept.dropLast
  | .truncate length => kept.take length

/-! ### The sum -/

/-- The memory in use is what the moments take together, and keeps to the limit. -/
structure Sound (h : History) : Prop where
  used : h.used = (h.moments.map Moment.size).sum
  used_le : h.used ≤ h.limit

theorem moments_cons {rest : List Moment} (h_list : h.newestFirst = x :: rest) :
    h.moments = rest.reverse ++ [x] := by
  unfold moments
  rw [h_list, List.reverse_cons]

theorem change_push_of_le (h_room : h.used + x.size ≤ h.limit) : h.change (.push x) =
    { h with newestFirst := x :: h.newestFirst, used := h.used + x.size } := by
  unfold change
  dsimp only
  rw [push_eq_ok_iff.2 ⟨h_room, rfl⟩]
  rfl

theorem push_eq_error (h_full : h.limit < h.used + x.size) :
    h.push x = .error ⟨h.used, x.size, h.limit⟩ := if_neg (Nat.not_le.2 h_full)

/-- **Refusal.** Exactly the moments that would pass the limit are refused. -/
theorem exists_push_eq_error_iff :
    (∃ e, h.push x = .error e) ↔ h.limit < h.used + x.size := by
  constructor
  · rintro ⟨e, h_error⟩
    refine Nat.lt_of_not_le fun h_room => ?_
    rw [push_eq_ok_iff.2 ⟨h_room, rfl⟩] at h_error
    contradiction
  · exact fun h_full => ⟨_, push_eq_error h_full⟩

theorem change_push_of_lt (h_full : h.limit < h.used + x.size) : h.change (.push x) = h := by
  unfold change
  dsimp only
  rw [push_eq_error h_full]
  rfl

theorem change_pop_nil (h_list : h.newestFirst = []) : h.change .pop = h := by
  unfold change pop?
  rw [h_list]
  rfl

theorem change_pop_cons {rest : List Moment} (h_list : h.newestFirst = x :: rest) :
    h.change .pop = { h with newestFirst := rest, used := h.used - x.size } := by
  unfold change pop?
  rw [h_list]
  rfl

/-- **Forgetting is taking out.** A history is cut down one moment after the other. -/
theorem truncate_eq_pops (h : History) (length : Nat) :
    h.truncate length = (List.replicate (h.length - length) .pop).foldl change h := by
  -- By induction on how many moments go too many, for every history: each step takes the newest one
  -- out of both.
  have h_drop (excess : Nat) : ∀ h : History,
      { h with
        newestFirst := h.newestFirst.drop excess
        used := (h.newestFirst.take excess).foldl (fun used m => used - m.size) h.used } =
      (List.replicate excess .pop).foldl change h := by
    induction excess with
    | zero => exact fun _ => rfl
    | succ excess ih =>
      intro h
      rw [List.replicate_succ, List.foldl_cons, ← ih]
      cases h_list : h.newestFirst with
      | nil =>
        -- Nothing is left to take out: both sides stand still.
        rw [change_pop_nil h_list, h_list, List.drop_nil, List.drop_nil, List.take_nil,
          List.take_nil]
      | cons x rest =>
        rw [change_pop_cons h_list]
        rfl
  exact h_drop _ h

namespace Sound

theorem push (h_sound : h.Sound) (x : Moment) : (h.change (.push x)).Sound := by
  by_cases h_room : h.used + x.size ≤ h.limit
  · rw [change_push_of_le h_room]
    refine ⟨?_, h_room⟩
    rw [moments_cons rfl, List.map_append, List.sum_append, h_sound.used]
    rfl
  · -- refused: the history is as it was
    rw [change_push_of_lt (Nat.lt_of_not_le h_room)]
    exact h_sound

/-- The memory in use covers what the newest moment takes, and the rest is what the others take. -/
theorem used_cons (h_sound : h.Sound) {rest : List Moment} (h_list : h.newestFirst = x :: rest) :
    h.used = (rest.reverse.map Moment.size).sum + x.size := by
  rw [h_sound.used, moments_cons h_list, List.map_append, List.sum_append]
  rfl

theorem pop (h_sound : h.Sound) : (h.change .pop).Sound := by
  cases h_list : h.newestFirst with
  | nil =>
    rw [change_pop_nil h_list]
    exact h_sound
  | cons x rest =>
    -- The sum holds the newest moment as a summand of its own, so the difference below is one of
    -- natural numbers that does not stop at zero.
    have h_used := h_sound.used_cons h_list
    rw [change_pop_cons h_list]
    refine ⟨?_, Nat.le_trans (Nat.sub_le ..) h_sound.used_le⟩
    show h.used - x.size = (rest.reverse.map Moment.size).sum
    omega

/-- What is taken out is the newest moment, and no more memory is released than was in use. -/
theorem of_pop?_eq_some (h_sound : h.Sound) (h_pop : h.pop? = some (x, h')) :
    h.moments = h'.moments ++ [x] ∧ x.size ≤ h.used ∧ h'.used = h.used - x.size := by
  obtain ⟨h_list, -⟩ := History.of_pop?_eq_some h_pop
  have h_used := h_sound.used_cons h_list
  have h_rest : h' = h.change .pop := by
    unfold History.change
    dsimp only
    rw [h_pop]
    rfl
  refine ⟨moments_cons h_list, by omega, ?_⟩
  rw [h_rest, change_pop_cons h_list]

theorem pops (h_sound : h.Sound) (count : Nat) :
    ((List.replicate count .pop).foldl History.change h).Sound := by
  induction count generalizing h with
  | zero => exact h_sound
  | succ count ih =>
    rw [List.replicate_succ]
    exact ih h_sound.pop

theorem change (h_sound : h.Sound) (c : Change) : (h.change c).Sound := by
  cases c with
  | push x => exact h_sound.push x
  | record s => exact h_sound.push s.moment
  | pop => exact h_sound.pop
  | truncate length =>
    -- no case of its own: to forget is to take out, some number of times
    show (h.truncate length).Sound
    rw [truncate_eq_pops]
    exact h_sound.pops _

end Sound

/-! ### What stands in a history -/

theorem limit_change (h : History) (c : Change) : (h.change c).limit = h.limit := by
  have h_push (x : Moment) : (h.change (.push x)).limit = h.limit := by
    by_cases h_room : h.used + x.size ≤ h.limit
    · rw [change_push_of_le h_room]
    · rw [change_push_of_lt (Nat.lt_of_not_le h_room)]
  cases c with
  | push x => exact h_push x
  | record s => exact h_push s.moment
  | pop =>
    cases h_list : h.newestFirst with
    | nil => rw [change_pop_nil h_list]
    | cons x rest => rw [change_pop_cons h_list]
  | truncate length => rfl

theorem moments_push (h_sound : h.Sound) (x : Moment) :
    (h.change (.push x)).moments = accept h.limit h.moments x := by
  unfold accept
  -- The list asks for the sum of the sizes, the history for the memory in use; soundness makes the
  -- two one.
  rw [← h_sound.used]
  split
  · rename_i h_room
    rw [change_push_of_le h_room, moments_cons rfl]
    rfl
  · rename_i h_full
    rw [change_push_of_lt (Nat.lt_of_not_le h_full)]

theorem moments_truncate (h : History) (length : Nat) :
    (h.truncate length).moments = h.moments.take length := by
  -- The newest moment stands first in the history and last in the list.
  show (h.newestFirst.drop _).reverse = h.newestFirst.reverse.take length
  rw [List.reverse_drop, List.take_eq_take_iff, List.length_reverse]
  unfold History.length
  omega

theorem moments_change (h_sound : h.Sound) (c : Change) :
    (h.change c).moments = c.apply h.limit h.moments := by
  cases c with
  | push x => exact moments_push h_sound x
  | record s => exact moments_push h_sound s.moment
  | pop =>
    show (h.change .pop).moments = h.moments.dropLast
    cases h_list : h.newestFirst with
    | nil =>
      rw [change_pop_nil h_list]
      unfold moments
      rw [h_list]
      rfl
    | cons x rest => rw [change_pop_cons h_list, moments_cons h_list, List.dropLast_concat]; rfl
  | truncate length => exact moments_truncate h length

/-- **Changes one after the other.** -/
theorem foldl_change (changes : List Change) {h : History} (h_sound : h.Sound) :
    (changes.foldl change h).Sound ∧ (changes.foldl change h).limit = h.limit ∧
      (changes.foldl change h).moments = changes.foldl (Change.apply h.limit) h.moments := by
  induction changes generalizing h with
  | nil => exact ⟨h_sound, rfl, rfl⟩
  | cons c changes ih =>
    -- Each change leaves a sound history with the same limit, which is what the rest of the changes
    -- needs.
    obtain ⟨h_rest, h_limit, h_moments⟩ := ih (h_sound.change c)
    rw [limit_change] at h_limit h_moments
    rw [moments_change h_sound] at h_moments
    exact ⟨h_rest, h_limit, h_moments⟩

/-- A host whose moment is refused finds everything as it was. -/
theorem perform_pushMoment_of_lt {m : Machine} {x : Moment}
    (h_full : m.memory.history.limit < m.memory.history.used + x.size) (setting : Setting) :
    Machine.perform setting (Routine.pushMoment x) m =
      some (.error ⟨m.memory.history.used, x.size, m.memory.history.limit⟩, m) := by
  have h_push := push_eq_error h_full
  unfold Machine.perform Routine.pushMoment Routine.history Routine.request
  simp only [bind, pure, Routine.bind, Routine.run, Machine.answer]
  rw [h_push]
  rfl

/-- Recording the state of a machine is adding it as a moment. -/
theorem perform_recordMoment (setting : Setting) (m : Machine) :
    Machine.perform setting Routine.recordMoment m =
      Machine.perform setting (Routine.pushMoment m.moment) m := rfl

/-- **A history is accounted for.** Let anything be done to an empty history with a limit. The
memory in use is what the moments take together, and keeps to the limit. What stands there are the
moments that were accepted and neither taken out nor forgotten since, the oldest first. A moment is
refused if and only if it would pass the limit; the history stays as it is then, and so does all
else that a host can see. What is taken out is the newest moment; the memory in use covers it, and
is less by just that afterwards. To forget moments is to take them out one by one. -/
theorem memory_accounted (limit : Nat) (changes : List Change) :
    let h := after limit changes
    h.used = (h.moments.map Moment.size).sum ∧
    h.used ≤ limit ∧
    h.moments = changes.foldl (Change.apply limit) [] ∧
    (∀ x : Moment, (∃ e, h.push x = .error e) ↔ limit < h.used + x.size) ∧
    (∀ x : Moment, limit < h.used + x.size → h.change (.push x) = h ∧
      ∀ (setting : Setting) (m : Machine), m.memory.history = h →
        Machine.perform setting (Routine.pushMoment x) m =
          some (.error ⟨h.used, x.size, limit⟩, m) ∧
        (m.moment = x → Machine.perform setting Routine.recordMoment m =
          some (.error ⟨h.used, x.size, limit⟩, m))) ∧
    (∀ (x : Moment) (h' : History), h.pop? = some (x, h') →
      h.moments = h'.moments ++ [x] ∧ x.size ≤ h.used ∧ h'.used = h.used - x.size) ∧
    ∀ length, h.truncate length =
      after limit (changes ++ List.replicate (h.length - length) .pop) := by
  intro h
  obtain ⟨h_sound, h_limit, h_moments⟩ : h.Sound ∧ h.limit = limit ∧
      h.moments = changes.foldl (Change.apply limit) [] :=
    foldl_change changes (h := { limit }) ⟨rfl, Nat.zero_le _⟩
  refine ⟨h_sound.used, h_limit ▸ h_sound.used_le, h_moments, fun x => ?_, fun x h_full => ?_,
    fun x h' h_pop => h_sound.of_pop?_eq_some h_pop, fun length => ?_⟩
  · rw [← h_limit]
    exact exists_push_eq_error_iff
  · -- a refused moment leaves the history alone, and the machine that holds it
    have h_refused (setting : Setting) (m : Machine) (h_host : m.memory.history = h) :
        Machine.perform setting (Routine.pushMoment x) m =
          some (.error ⟨h.used, x.size, limit⟩, m) := by
      rw [← h_limit, ← h_host] at h_full ⊢
      exact perform_pushMoment_of_lt h_full setting
    refine ⟨change_push_of_lt (h_limit.symm ▸ h_full), fun setting m h_host =>
      ⟨h_refused setting m h_host, ?_⟩⟩
    rintro rfl
    rw [perform_recordMoment]
    exact h_refused setting m h_host
  · rw [truncate_eq_pops]
    exact List.foldl_append.symm

/-- A moment with a save file of so many bytes. -/
def momentOf (tick : UInt32) (bytes : Nat) : Moment := ⟨tick, 0, 1, List.replicate bytes 0⟩

/-- Three moments of different sizes. -/
def threePushes : List Change :=
  [.push (momentOf 0 10), .push (momentOf 1 20), .push (momentOf 2 5)]

/-- The third moment finds no room. When the second one is taken out it does. -/
theorem memory_accounted_small :
    (after 130 threePushes).moments = [momentOf 0 10, momentOf 1 20] ∧
    (∃ e, (after 130 threePushes).push (momentOf 2 5) = .error e) ∧
    (after 130 threePushes).change (.push (momentOf 2 5)) = after 130 threePushes ∧
    (∃ h', (after 130 threePushes).pop? = some (momentOf 1 20, h') ∧
      (momentOf 1 20).size ≤ (after 130 threePushes).used ∧
      h'.used = (after 130 threePushes).used - (momentOf 1 20).size) ∧
    (after 130 (threePushes ++ [.pop, .push (momentOf 2 5)])).moments =
      [momentOf 0 10, momentOf 2 5] := by
  obtain ⟨-, -, h_moments, h_refuses, h_stays, h_pops, -⟩ := memory_accounted 130 threePushes
  obtain ⟨-, -, h_later, -⟩ := memory_accounted 130 (threePushes ++ [.pop, .push (momentOf 2 5)])
  have h_full : 130 < (after 130 threePushes).used + (momentOf 2 5).size := by decide +kernel
  have h_pop : (after 130 threePushes).pop? = some (momentOf 1 20,
      { limit := 130, newestFirst := [momentOf 0 10], used := 50 }) := by decide +kernel
  obtain ⟨-, h_covered, h_left⟩ := h_pops _ _ h_pop
  refine ⟨h_moments.trans ?_, (h_refuses _).2 h_full, (h_stays _ h_full).1,
    ⟨_, h_pop, h_covered, h_left⟩, h_later.trans ?_⟩
  · decide +kernel
  · decide +kernel

end History

end ScriptMachine
