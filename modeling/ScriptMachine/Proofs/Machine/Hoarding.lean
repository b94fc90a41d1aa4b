import Mathlib.Algebra.Group.Nat.Defs
import ScriptMachine.Proofs.Machine.Executes
import ScriptMachine.Proofs.Machine.Instructions

/-!
# Hoarding handlers

Nothing bounds the handlers of a task but the instructions that register them. The programs here
register one handler, and then a second one in every round of a loop that counts a local up until it
is zero again. Within a single turn that makes as many handlers as the local needs rounds
(`Machine.tick_hoarding`): from zero on there are 2 ^ 32 rounds, and with them more handlers than a
word can count.

The turn is described by how many instructions lead from where to where (`Machine.Proceeds`). One
round takes the local one up and leaves everything else in the shape that it had, so that the rounds
are an induction on their number (`Machine.proceeds_rounds`). From then on the task jumps in place,
and each tick finds it as the one before has left it (`Machine.tick_resting`).
-/

namespace ScriptMachine

/-! ### The programs -/

def hoardingScript : Script := ⟨"Hoard", "hoard.chl", .script, 1, ["left"], 0, 0, 1⟩

/-- The local begins at a given number. The first handler leaves a trace of its turn in a global, the
others do nothing. -/
def hoardingCode (start : UInt32) : List Instruction :=
  [⟨.except, 0, .untyped, 12, 0⟩,
    ⟨.push, Mode.immediate, .int, start, 0⟩,
    ⟨.pop, Mode.reference, .int, 2, 0⟩,
    -- the loop
    ⟨.except, 0, .untyped, 15, 0⟩,
    ⟨.push, Mode.reference, .int, 2, 0⟩,
    ⟨.push, Mode.immediate, .int, 1, 0⟩,
    ⟨.add, 0, .int, 0, 0⟩,
    ⟨.pop, Mode.reference, .int, 2, 0⟩,
    ⟨.push, Mode.reference, .int, 2, 0⟩,
    ⟨.jumpIfZero, 1, .untyped, 11, 0⟩,
    -- a jump to before it that is not marked as backward, so the turn goes on
    ⟨.jump, 1, .untyped, 3, 0⟩,
    ⟨.jump, Mode.backward, .untyped, 11, 0⟩,
    -- the first handler
    ⟨.push, Mode.immediate, .int, 5, 0⟩,
    ⟨.pop, Mode.reference, .int, 1, 0⟩,
    ⟨.nextExcept, 0, .untyped, 0, 0⟩,
    -- and all others
    ⟨.nextExcept, 0, .untyped, 0, 0⟩]

def hoardingImage (start : UInt32) : Image :=
  { program := {
      globals := ["seen"]
      code := hoardingCode start
      autostart := [1]
      scripts := [hoardingScript] } }

/-- In the loop, with a number in the local and a few slots on the stack, whatever was pushed and
popped until then. -/
def hoardingTask (address left : UInt32) (handlers : List UInt32) (slots : List Value)
    (pushes pops : UInt32)
    (h : slots.length ≤ Stack.capacity := by exact Nat.le_of_ble_eq_true rfl) : Task :=
  { Task.start 1 hoardingScript with
    address, locals := [⟨"left", ⟨.int, left⟩⟩], handlers, stack := ⟨slots, pushes, pops, h⟩ }

/-- Past the loop, after a jump in place. -/
def restingTask (handlers : List UInt32) (savedAddress pushes pops ticks : UInt32) : Task :=
  { hoardingTask 11 0 handlers [] pushes pops with savedAddress, yielded := true, ticks }

/-- In a detour to one of the handlers that do nothing. -/
def detourTask (handlers : List UInt32) (index pushes pops ticks : UInt32) : Task :=
  { restingTask handlers 11 pushes pops ticks with
    address := 15, handlerIndex := index, inHandler := true, yielded := false }

/-- After such a detour. -/
def backTask (handlers : List UInt32) (pushes pops ticks : UInt32) : Task :=
  { restingTask handlers 11 pushes pops ticks with yielded := false }

namespace Machine

/-- The program with its task, between two turns. -/
def hoarding (start : UInt32) (t : Task) (executed ticks : UInt32) : Machine :=
  { load {} (hoardingImage start) with tasks := { toList := [t] }, executed, ticks }

/-- The task has its turn. -/
def inTurn (start : UInt32) (t : Task) (executed ticks : UInt32) : Machine :=
  { hoarding start t executed ticks with focus := .task 1, running := some 1 }

theorem load_hoarding (start : UInt32) :
    load {} (hoardingImage start) = hoarding start (Task.start 1 hoardingScript) 0 0 := rfl

/-! ### The first turn -/

/-- At the head of the loop. -/
def AtHead (start left : UInt32) (handlers : List UInt32) (m : Machine) : Prop :=
  ∃ pushes pops executed,
    m = inTurn start (hoardingTask 3 left handlers [] pushes pops) executed 0

/-- About to test whether the loop is over. -/
def AtTest (start left : UInt32) (handlers : List UInt32) (m : Machine) : Prop :=
  ∃ pushes pops executed,
    m = inTurn start (hoardingTask 9 left handlers [⟨.int, left⟩] pushes pops) executed 0

/-- Past the loop. -/
def AtEnd (start : UInt32) (handlers : List UInt32) (m : Machine) : Prop :=
  ∃ pushes pops executed, m = inTurn start (restingTask handlers 0 pushes pops 0) executed 0

section

variable (carryOut : Routine Unit → Machine → Option Machine) {start left : UInt32}
  {handlers : List UInt32} {m : Machine}

theorem proceeds_entry (start : UInt32) : ∃ m',
    (inTurn start (Task.start 1 hoardingScript) 0 0).Proceeds plainSetting carryOut 1 false 3 m' ∧
      AtHead start start [12] m' := by
  let entered : Task := { Task.start 1 hoardingScript with handlers := [12] }
  let pushed : Stack := ⟨[⟨.int, start⟩], 1, 0, Nat.le_add_left 1 31⟩
  refine ⟨inTurn start (hoardingTask 3 start [12] [] 1 1) 3 0, ?_, _, _, _, rfl⟩
  exact .head (inTurn start { entered with address := 1 } 1 0) rfl rfl rfl rfl <|
    .head (inTurn start { entered with address := 2, stack := pushed } 2 0) rfl rfl rfl rfl <|
    .head _ rfl rfl rfl rfl (.refl _)

/-- **One round**, up to its test. -/
theorem proceeds_round (h : AtHead start left handlers m) :
    ∃ m', m.Proceeds plainSetting carryOut 1 false 6 m' ∧
      AtTest start (left + 1) (handlers ++ [15]) m' := by
  obtain ⟨p, q, e, rfl⟩ := h
  generalize h_more : handlers ++ [15] = more
  refine ⟨inTurn start (hoardingTask 9 (left + 1) more [⟨.int, left + 1⟩] (p + 1 + 1 + 1 + 1)
    (q + 1 + 1 + 1)) (e + 1 + 1 + 1 + 1 + 1 + 1) 0, ?_, _, _, _, rfl⟩
  refine .head (inTurn start (hoardingTask 4 left more [] p q) (e + 1) 0) rfl rfl rfl ?_ ?_
  · rw [← h_more]
    rfl
  -- the sum is made on the stack
  refine .head (inTurn start (hoardingTask 5 left more [⟨.int, left⟩] (p + 1) q) (e + 1 + 1) 0)
    rfl rfl rfl rfl ?_
  refine .head (inTurn start (hoardingTask 6 left more [⟨.int, 1⟩, ⟨.int, left⟩] (p + 1 + 1) q)
    (e + 1 + 1 + 1) 0) rfl rfl rfl rfl ?_
  refine .head (inTurn start (hoardingTask 7 left more [⟨.int, left + 1⟩] (p + 1 + 1 + 1)
    (q + 1 + 1)) (e + 1 + 1 + 1 + 1) 0) rfl rfl rfl rfl ?_
  -- it is stored, and pushed again for the test
  refine .head (inTurn start (hoardingTask 8 (left + 1) more [] (p + 1 + 1 + 1) (q + 1 + 1 + 1))
    (e + 1 + 1 + 1 + 1 + 1) 0) rfl rfl rfl rfl ?_
  exact .head _ rfl rfl rfl rfl (.refl _)

/-- A test that does not end the loop. -/
theorem proceeds_again (h : AtTest start left handlers m) (h_left : left ≠ 0) :
    ∃ m', m.Proceeds plainSetting carryOut 1 false 2 m' ∧ AtHead start left handlers m' := by
  obtain ⟨p, q, e, rfl⟩ := h
  -- The number on top is not known, so what the test comes to is stated and not computed.
  have h_truth : Value.truth ⟨.int, left⟩ = true := bne_iff_ne.2 h_left
  have h_test : obey plainSetting 1 ⟨.jumpIfZero, 1, .untyped, 11, 0⟩
      (inTurn start (hoardingTask 9 left handlers [⟨.int, left⟩] p q) (e + 1) 0) =
      (.next, inTurn start (hoardingTask 9 left handlers [] p (q + 1)) (e + 1) 0) :=
    if_pos h_truth
  refine ⟨inTurn start (hoardingTask 3 left handlers [] p (q + 1)) (e + 1 + 1) 0, ?_, _, _, _, rfl⟩
  refine .head (inTurn start (hoardingTask 10 left handlers [] p (q + 1)) (e + 1) 0) rfl rfl rfl ?_
    (.head _ rfl rfl rfl rfl (.refl _))
  exact advance_of_next (m := inTurn start (hoardingTask 9 left handlers [⟨.int, left⟩] p q) e 0)
    (by decide) h_test

/-- The test that ends it. -/
theorem proceeds_out (h : AtTest start 0 handlers m) :
    ∃ m', m.Proceeds plainSetting carryOut 1 false 2 m' ∧ AtEnd start handlers m' := by
  obtain ⟨p, q, e, rfl⟩ := h
  refine ⟨inTurn start (restingTask handlers 0 p (q + 1) 0) (e + 1 + 1) 0, ?_, _, _, _, rfl⟩
  exact .head (inTurn start (hoardingTask 11 0 handlers [] p (q + 1)) (e + 1) 0) rfl rfl rfl rfl <|
    .head _ rfl rfl rfl rfl (.refl _)

/-- **Round after round**, as long as the local does not get to zero. -/
theorem proceeds_rounds (count : Nat) (h : AtHead start left handlers m)
    (h_room : left.toNat + count < 2 ^ 32) :
    ∃ m' left', m.Proceeds plainSetting carryOut 1 false (8 * count) m' ∧
      AtHead start left' (handlers ++ List.replicate count 15) m' ∧
      left'.toNat = left.toNat + count := by
  -- on the number of rounds; each begins where the one before has registered its handler
  induction count generalizing left handlers m with
  | zero => exact ⟨m, left, .refl m, by simpa using h, rfl⟩
  | succ count ih =>
    have h_next : (left + 1).toNat = left.toNat + 1 := by
      rw [UInt32.toNat_add, UInt32.toNat_one]
      omega
    have h_left : left + 1 ≠ 0 := by
      intro h_zero
      rw [h_zero] at h_next
      contradiction
    obtain ⟨m₁, h_round, h_test⟩ := proceeds_round carryOut h
    obtain ⟨m₂, h_again, h_head⟩ := proceeds_again carryOut h_test h_left
    obtain ⟨m', left', h_rest, h_head', h_sum⟩ := ih h_head (by omega)
    refine ⟨m', left', ?_, ?_, by omega⟩
    · have h_all := (h_round.trans h_again).trans h_rest
      rwa [show 6 + 2 + 8 * count = 8 * (count + 1) by omega] at h_all
    · rwa [List.append_assoc] at h_head'

/-- **The turn in which the handlers are registered**, one for each round until the local gets to
zero. -/
theorem proceeds_turn (start : UInt32) : ∃ m' count,
    (inTurn start (Task.start 1 hoardingScript) 0 0).Proceeds plainSetting carryOut 1 false
      count m' ∧
    count < 2 ^ 36 ∧ AtEnd start (12 :: List.replicate (2 ^ 32 - start.toNat) 15) m' := by
  have h_start := start.toNat_lt
  obtain ⟨rounds, h_rounds⟩ : ∃ rounds, 2 ^ 32 - start.toNat = rounds + 1 :=
    Nat.exists_eq_succ_of_ne_zero (by omega)
  obtain ⟨m₁, h_entry, h_head⟩ := proceeds_entry carryOut start
  obtain ⟨m₂, left, h_loop, h_head', h_sum⟩ := proceeds_rounds carryOut rounds h_head (by omega)
  -- the last round takes the local to zero
  have h_left : left + 1 = 0 := by
    rw [← UInt32.toNat_inj, UInt32.toNat_add, UInt32.toNat_one, UInt32.toNat_zero]
    omega
  obtain ⟨m₃, h_round, h_test⟩ := proceeds_round carryOut h_head'
  rw [h_left] at h_test
  obtain ⟨m₄, h_out, h_end⟩ := proceeds_out carryOut h_test
  refine ⟨m₄, _, ((h_entry.trans h_loop).trans h_round).trans h_out, by omega, ?_⟩
  rwa [List.append_assoc, ← List.replicate_succ', ← h_rounds] at h_end

end

/-! ### Later turns -/

theorem overlaps_script_all : ScriptKind.script.overlaps .all = true := by decide

/-- The only task is the one whose turn it is. -/
theorem ended_inTurn {start e n : UInt32} {t : Task} {begunInHandler : Bool}
    (h : turnEnds begunInHandler t = true) : (inTurn start t e n).Ended 1 begunInHandler := by
  intro u h_u
  obtain rfl := List.mem_singleton.1 (TaskTable.mem_of_find? h_u)
  exact h

section

variable (carryOut : Routine Unit → Machine → Option Machine) (start : UInt32)
  (handlers : List UInt32) (saved p q k e n : UInt32)

theorem begin_divert_resting :
    ((hoarding start (restingTask handlers saved p q k) e n).divert 1 15).begin 1 =
      inTurn start (detourTask handlers (UInt32.ofNat (handlers.length - 1)) p q k) e n := rfl

/-- **The detour to a handler whose place is 0** consists of that handler alone, however many there
are before it. -/
theorem executes_detour (h_place : UInt32.ofNat (handlers.length - 1) = 0) :
    (((hoarding start (restingTask handlers saved p q k) e n).divert 1 15).begin 1).Executes
      plainSetting carryOut 1 true [(15, ⟨.nextExcept, 0, .untyped, 0, 0⟩)]
      (inTurn start (backTask handlers p q k) (e + 1) n) := by
  -- The place in a word is that of the first handler, so there is no next one.
  rw [begin_divert_resting, h_place]
  exact .cons (t := detourTask handlers 0 p q k) rfl rfl rfl rfl (.nil _)

theorem handlerTurn_resting (h_last : handlers.getLast? = some 15)
    (h_place : UInt32.ofNat (handlers.length - 1) = 0) {budget : Nat} (h_budget : 1 < budget) :
    handlerTurn plainSetting carryOut budget .all (restingTask handlers saved p q k)
        (hoarding start (restingTask handlers saved p q k) e n) =
      some (hoarding start (backTask handlers p q k) (e + 1) n) := by
  -- The task has a handler and is in normal flow, so the first pass sends it to the last handler.
  have h_service : Pass.handlers.service .all (restingTask handlers saved p q k) = .divert 15 :=
    Pass.service_eq_divert_iff.2 ⟨rfl, overlaps_script_all, rfl, rfl, h_last⟩
  refine (Pass.turn_eq .handlers _ _).trans ?_
  rw [h_service]
  -- before its turn begins the task has still yielded
  exact (executes_detour carryOut start handlers saved p q k e n h_place).slice_eq
    (t := { detourTask handlers (UInt32.ofNat (handlers.length - 1)) p q k with yielded := true })
    rfl (ended_inTurn rfl) h_budget

theorem normalTurn_back {budget : Nat} (h_budget : 1 < budget) :
    normalTurn plainSetting carryOut budget .all (backTask handlers p q k)
        (hoarding start (backTask handlers p q k) e n) =
      some (hoarding start (restingTask handlers 11 p q k) (e + 1) n) := by
  have h_executes : ((hoarding start (backTask handlers p q k) e n).begin 1).Executes plainSetting
      carryOut 1 false [(11, ⟨.jump, Mode.backward, .untyped, 11, 0⟩)]
      (inTurn start (restingTask handlers 11 p q k) (e + 1) n) :=
    .cons (t := backTask handlers p q k) rfl rfl rfl rfl (.nil _)
  have h_service : Pass.normal.service .all (backTask handlers p q k) = .serve := by
    have h_kind : (backTask handlers p q k).kind.overlaps .all = true := overlaps_script_all
    unfold Pass.service
    rw [h_kind]
    rfl
  refine (Pass.turn_eq .normal _ _).trans ?_
  rw [h_service]
  exact h_executes.slice_eq (t := backTask handlers p q k) rfl (ended_inTurn rfl) h_budget

/-- At the end of a tick the task is a tick older. -/
theorem settle_hoarding :
    (hoarding start (restingTask handlers saved p q k) e n).settle .all =
      hoarding start (restingTask handlers saved p q (k + 1)) e (n + 1) := by
  have h_stop : (hoarding start (restingTask handlers saved p q k) e n).stopWhere (·.stopped) =
      hoarding start (restingTask handlers saved p q k) e n := rfl
  have h_kind : (restingTask handlers saved p q k).kind.overlaps .all = true := overlaps_script_all
  unfold settle
  rw [h_stop]
  unfold release TaskTable.map hoarding
  simp only [List.map_cons, List.map_nil, h_kind, if_true]
  rfl

end

/-! ### Ticks -/

/-- A pass over a single task gives it a turn and is over. -/
theorem pass_alone {serve : Task → Machine → Option Machine} {m m' : Machine} {t t' : Task}
    (h : m.tasks.toList = [t]) (h_serve : serve t m = some m') (h' : m'.tasks.toList = [t'])
    (h_id : t'.id = t.id) : m.pass serve none = some m' := by
  have h_first : m.tasks.after? none = some t := by
    unfold TaskTable.after?
    rw [h]
    rfl
  -- Ids ascend, so nobody comes after the only task.
  have h_none : m'.tasks.after? (some t.id) = none := by
    unfold TaskTable.after?
    rw [h']
    simp [h_id, UInt32.lt_irrefl]
  rw [pass, h_first]
  simp only [h_serve]
  rw [pass, h_none]

/-- How a tick carries out bodies of natives. -/
def carrying (bound : Nat) (body : Routine Unit) (m : Machine) : Option Machine :=
  (body.run (tick plainSetting bound) m).map (·.2)

/-- A tick of a single task, given what the two passes make of it. -/
theorem tick_alone (t t₁ t₂ : Task) {bound : Nat} {m m₁ m₂ : Machine}
    (h : m.tasks.toList = [t]) (h₁ : m₁.tasks.toList = [t₁]) (h₂ : m₂.tasks.toList = [t₂])
    (h_id₁ : t₁.id = t.id) (h_id₂ : t₂.id = t₁.id)
    (h_handlers : handlerTurn plainSetting (carrying bound) (bound + 1) .all t m = some m₁)
    (h_normal : normalTurn plainSetting (carrying bound) (bound + 1) .all t₁ m₁ = some m₂) :
    tick plainSetting (bound + 1) .all m = some (m₂.settle .all) := by
  unfold tick tickWithin
  dsimp only
  unfold carrying at h_handlers h_normal
  rw [pass_alone h h_handlers h₁ h_id₁, Option.bind_eq_bind, Option.bind_some,
    pass_alone h₁ h_normal h₂ h_id₂]
  rfl

/-- Between two ticks, past the loop. -/
def AtRest (start : UInt32) (handlers : List UInt32) (m : Machine) : Prop :=
  ∃ saved pushes pops own executed ticks,
    m = hoarding start (restingTask handlers saved pushes pops own) executed ticks

/-- **Hoarding.** After the first tick the task has a handler for every round that its local needed
to get to zero, and one more. -/
theorem tick_hoarding (start : UInt32) {bound : Nat} (h_bound : 2 ^ 36 ≤ bound) :
    ∃ m, tick plainSetting bound .all (load {} (hoardingImage start)) = some m ∧
      AtRest start (12 :: List.replicate (2 ^ 32 - start.toNat) 15) m := by
  obtain ⟨bound, rfl⟩ := Nat.exists_eq_succ_of_ne_zero (by omega : bound ≠ 0)
  obtain ⟨m', count, h_turn, h_count, h_end⟩ := proceeds_turn (carrying bound) start
  -- how many handlers there are does not matter to the rest of the tick
  generalize (12 :: List.replicate (2 ^ 32 - start.toNat) 15 : List UInt32) = handlers at h_end ⊢
  obtain ⟨p, q, e, rfl⟩ := h_end
  have h_normal : normalTurn plainSetting (carrying bound) (bound + 1) .all
      (Task.start 1 hoardingScript) (hoarding start (Task.start 1 hoardingScript) 0 0) =
        some (hoarding start (restingTask handlers 0 p q 0) e 0) := by
    have h_slice := h_turn.slice_eq (m := hoarding start (Task.start 1 hoardingScript) 0 0)
      (t := Task.start 1 hoardingScript) rfl (ended_inTurn rfl) (by omega : count < bound + 1)
    exact (if_pos (by decide)).trans h_slice
  rw [load_hoarding]
  refine ⟨_, tick_alone (Task.start 1 hoardingScript) (Task.start 1 hoardingScript)
    (restingTask handlers 0 p q 0) rfl rfl rfl rfl rfl rfl h_normal, 0, p, q, 0 + 1, e, 0 + 1,
    settle_hoarding ..⟩

/-- **Every further tick** leaves the task where it is, with all its handlers. -/
theorem tick_resting {start : UInt32} {handlers : List UInt32} {m : Machine}
    (h : AtRest start handlers m) (h_last : handlers.getLast? = some 15)
    (h_place : UInt32.ofNat (handlers.length - 1) = 0) {bound : Nat} (h_bound : 2 ≤ bound) :
    ∃ m', tick plainSetting bound .all m = some m' ∧ AtRest start handlers m' := by
  obtain ⟨bound, rfl⟩ := Nat.exists_eq_succ_of_ne_zero (by omega : bound ≠ 0)
  obtain ⟨saved, p, q, k, e, n, rfl⟩ := h
  have h_handlers :=
    handlerTurn_resting (carrying bound) start handlers saved p q k e n h_last h_place h_bound
  have h_normal := normalTurn_back (carrying bound) start handlers p q k (e + 1) n h_bound
  exact ⟨_, tick_alone (restingTask handlers saved p q k) (backTask handlers p q k)
    (restingTask handlers 11 p q k) rfl rfl rfl rfl rfl h_handlers h_normal,
    11, p, q, k + 1, e + 1 + 1, n + 1, settle_hoarding ..⟩

/-! ### More handlers than a word can count -/

end Machine

theorem decode_hoarding : Image.decode (hoardingImage 0).encode = .ok (hoardingImage 0) := by
  decide +kernel

namespace Machine

/-- What is registered if the local begins at zero. -/
def hoard : List UInt32 := 12 :: List.replicate (2 ^ 32) 15

theorem length_hoard : hoard.length = 2 ^ 32 + 1 := by
  unfold hoard
  rw [List.length_cons, List.length_replicate]

theorem getLast?_hoard : hoard.getLast? = some 15 := by
  unfold hoard
  rw [List.getLast?_cons, List.getLast?_replicate]
  rfl

theorem place_hoard : UInt32.ofNat (hoard.length - 1) = 0 := by
  rw [length_hoard]
  rfl

/-- **The hoard** is there after a single tick. -/
theorem tick_hoard : ∃ m, tick plainSetting lifetime .all (load {} (hoardingImage 0)) = some m ∧
    AtRest 0 hoard m := by
  obtain ⟨m, h_tick, h_rest⟩ := tick_hoarding 0 (by decide : 2 ^ 36 ≤ lifetime)
  rw [UInt32.toNat_zero, Nat.sub_zero] at h_rest
  exact ⟨m, h_tick, h_rest⟩

theorem perform_hoard : ∃ m, perform plainSetting (Routine.ticks .all 1)
    (load {} (hoardingImage 0)) = some ((), m) ∧ AtRest 0 hoard m := by
  obtain ⟨m, h_tick, h_rest⟩ := tick_hoard
  refine ⟨m, ?_, h_rest⟩
  unfold perform
  change Routine.run _ (.ask (.tick .all) fun _ => .done ()) _ = _
  rw [Routine.run_ask]
  dsimp only [answer]
  rw [h_tick]
  rfl

end Machine

end ScriptMachine
