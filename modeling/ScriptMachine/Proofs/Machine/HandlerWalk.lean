import Mathlib.Data.List.Forall2
import ScriptMachine.Proofs.Machine.Detour
import ScriptMachine.Proofs.Machine.Hoarding
import ScriptMachine.Proofs.Machine.Passes

/-!
# Walking through the handlers

A handler that is plain but for its last instruction, and ends by asking for the next one, passes on
to the handler that was registered before it. If all handlers of a task are like that
(`Program.Block`), then one turn goes through them from the last one registered to the first, and
brings the task back to where it was (`Machine.handlers_walk`).

A turn is described by the instructions that it executes, each with its address
(`Machine.Executes`). One block comes to what its last instruction makes of the task
(`Program.Block.executes`), since plain instructions leave alone what that depends on. The walk is
an induction on the place of the handler. That place is kept in a word, so it starts at the number
of handlers less one, modulo 2 ^ 32; up to 2 ^ 32 handlers all of them have a turn. With one handler
more only the last one has (`handlers_passed_over_hoarding`).
-/

namespace ScriptMachine

variable {setting : Setting} {carryOut : Routine Unit → Machine → Option Machine}

/-! ### Blocks -/

/-- From an address on, plain instructions stand one after the other in the code, and after them one
that asks for the next handler. -/
inductive Program.Block (p : Program) (setting : Setting) : UInt32 → List Instruction → Prop
  | last {address : UInt32} {i : Instruction} (h_code : p.code[address.toNat]? = some i)
      (h_opcode : i.opcode = .nextExcept) : Block p setting address [i]
  | cons {address : UInt32} {i : Instruction} {block : List Instruction}
      (h_code : p.code[address.toNat]? = some i) (h_plain : i.Plain setting)
      (h_rest : Block p setting (address + 1) block) : Block p setting address (i :: block)

/-- Instructions with the addresses at which they stand, one after the other from an address on. -/
def placed (address : UInt32) : List Instruction → List (UInt32 × Instruction)
  | [] => []
  | i :: rest => (address, i) :: placed (address + 1) rest

/-- What the next handler is does not depend on where the task has come to in this one. -/
theorem Task.afterNext_bearing {t t₁ : Task} {address : UInt32}
    (h : t₁.bearing = { t.bearing with address }) : t₁.afterNext.bearing = t.afterNext.bearing := by
  have h_bearing (t : Task) (address : UInt32) :
      { t.bearing with address }.afterNext.bearing = t.afterNext.bearing := by
    by_cases h_first : t.handlerIndex = 0
    · rw [afterNext_of_first h_first, afterNext_of_first (t := { t.bearing with address }) h_first]
      rfl
    · cases h_next : t.handlers[(t.handlerIndex - 1).toNat]? with
      | some handler =>
        rw [afterNext_of_some h_first h_next,
          afterNext_of_some (t := { t.bearing with address }) h_first h_next]
        rfl
      | none =>
        rw [afterNext_of_none h_first h_next,
          afterNext_of_none (t := { t.bearing with address }) h_first h_next]
        rfl
  -- nor does it depend on what is out of view
  have h_same : t₁.bearing.afterNext.bearing = t₁.afterNext.bearing := h_bearing t₁ t₁.address
  rw [← h_same, h, h_bearing]

variable (carryOut) in
/-- **A block** is executed from its beginning to its end, and what comes of the task is what the
last instruction makes of it. -/
theorem Program.Block.executes {p : Program} {address : UInt32} {block : List Instruction}
    (h : p.Block setting address block) {m : Machine} {task : UInt32} {t : Task}
    (h_program : m.program = p) (h_find : m.tasks.find? task = some t)
    (h_goes : Machine.turnEnds true t = false) (h_address : t.address = address) :
    ∃ m' t', m.Executes setting carryOut task true (placed address block) m' ∧ m'.program = p ∧
      m'.tasks.find? task = some t' ∧ t'.bearing = t.afterNext.bearing := by
  induction h generalizing m t with
  | @last address i h_code h_opcode =>
    -- the one that asks for the next handler
    obtain ⟨-, -, -, h_inside⟩ := Machine.turnEnds_eq_false_iff.1 h_goes
    obtain ⟨m', h_advance, h_same, h_after⟩ :=
      Machine.advance_nextExcept setting carryOut h_opcode h_find h_inside
    subst h_address h_program
    exact ⟨m', _, .cons h_find h_goes h_code h_advance (.nil m'), h_same, h_after, rfl⟩
  | @cons address i block h_code h_plain _ ih =>
    obtain ⟨m₁, t₁, h_advance, h_same, h_after, h_bearing⟩ :=
      Machine.advance_plain carryOut h_plain h_find
    subst h_address h_program
    have h_next : t₁.bearing.address = t.address + 1 := by rw [h_bearing]
    -- A plain instruction moves the task on and leaves all else that is in view, so the turn goes
    -- on.
    have h_goes₁ : Machine.turnEnds true t₁ = false := by
      have h_ends : Machine.turnEnds true t₁.bearing = Machine.turnEnds true t := by
        rw [h_bearing]
        rfl
      exact h_ends.trans h_goes
    obtain ⟨m', t', h_rest, h_program', h_after', h_bearing'⟩ := ih h_same h_after h_goes₁ h_next
    exact ⟨m', t', .cons h_find h_goes h_code h_advance h_rest, h_program', h_after',
      h_bearing'.trans (Task.afterNext_bearing h_bearing)⟩

/-! ### One block after the other -/

/-- The first blocks of some handlers, the last of them first. -/
def walk (handlers : List (UInt32 × List Instruction)) (count : Nat) :
    List (UInt32 × Instruction) :=
  (handlers.take count).reverse.flatMap fun (address, block) => placed address block

theorem walk_succ {handlers : List (UInt32 × List Instruction)} {count : Nat} {address : UInt32}
    {block : List Instruction} (h : handlers[count]? = some (address, block)) :
    walk handlers (count + 1) = placed address block ++ walk handlers count := by
  unfold walk
  rw [List.take_add_one, h]
  simp

theorem walk_length (handlers : List (UInt32 × List Instruction)) :
    walk handlers handlers.length =
      handlers.reverse.flatMap fun (address, block) => placed address block := by
  unfold walk
  rw [List.take_length]

theorem ofNat_succ_sub_one (count : Nat) : UInt32.ofNat (count + 1) - 1 = UInt32.ofNat count := by
  rw [UInt32.ofNat_add]
  exact UInt32.add_sub_cancel _ _

variable (carryOut) in
/-- **The walk.** A task that is in a block, and has so many handlers before it, executes the block
and then those of these handlers, and is where normal flow was left. -/
theorem Machine.exists_walk {p : Program} {handlers : List (UInt32 × List Instruction)}
    (h_blocks : ∀ handler ∈ handlers, p.Block setting handler.1 handler.2) {count : Nat}
    (h_count : count ≤ handlers.length) (h_word : count < UInt32.size) {m : Machine}
    {task : UInt32} {t : Task} {block : List Instruction}
    (h_block : p.Block setting t.address block) (h_program : m.program = p)
    (h_find : m.tasks.find? task = some t) (h_goes : turnEnds true t = false)
    (h_handlers : t.handlers = handlers.map Prod.fst)
    (h_index : t.handlerIndex = UInt32.ofNat count) :
    ∃ m' t', m.Executes setting carryOut task true
        (placed t.address block ++ walk handlers count) m' ∧
      m'.tasks.find? task = some t' ∧ t'.inHandler = false ∧ t'.address = t.savedAddress ∧
      t'.handlers = t.handlers := by
  -- on the number of handlers before it, which is the place of the block
  induction count generalizing m t block with
  | zero =>
    obtain ⟨m', t', h_executes, -, h_after, h_bearing⟩ :=
      h_block.executes carryOut h_program h_find h_goes rfl
    rw [Task.afterNext_of_first h_index] at h_bearing
    obtain ⟨h_outside, h_back, -, h_same, -⟩ := Task.of_bearing_eq h_bearing
    refine ⟨m', t', ?_, h_after, h_outside, h_back, h_same⟩
    rwa [show walk handlers 0 = [] from rfl, List.append_nil]
  | succ count ih =>
    obtain ⟨m₁, t₁, h_executes, h_same, h_after, h_bearing⟩ :=
      h_block.executes carryOut h_program h_find h_goes rfl
    -- the last instruction of the block goes on with the handler whose place is one less
    have h_lt : count < handlers.length := h_count
    have h_first : t.handlerIndex ≠ 0 := by
      rw [h_index, ← UInt32.toNat_inj.ne, UInt32.toNat_ofNat_of_lt' h_word]
      exact Nat.succ_ne_zero count
    have h_place : t.handlerIndex - 1 = UInt32.ofNat count := by
      rw [h_index, ofNat_succ_sub_one]
    have h_next : t.handlers[(t.handlerIndex - 1).toNat]? = some handlers[count].1 := by
      rw [h_place, UInt32.toNat_ofNat_of_lt' (Nat.lt_of_succ_lt h_word), h_handlers,
        List.getElem?_map, List.getElem?_eq_getElem h_lt]
      rfl
    rw [Task.afterNext_of_some h_first h_next] at h_bearing
    -- so the turn is where it was in the induction, but for one handler
    obtain ⟨-, h_address₁, h_index₁, h_handlers₁, h_saved₁⟩ := Task.of_bearing_eq h_bearing
    have h_goes₁ : turnEnds true t₁ = false := (turnEnds_bearing h_bearing).trans h_goes
    have h_block₁ : p.Block setting t₁.address handlers[count].2 := by
      rw [h_address₁]
      exact h_blocks _ (List.getElem_mem h_lt)
    obtain ⟨m', t', h_executes', h_after', h_outside, h_back, h_kept⟩ :=
      ih (Nat.le_of_lt h_lt) (Nat.lt_of_succ_lt h_word) h_block₁ h_same h_after h_goes₁
        (h_handlers₁.trans h_handlers) (h_index₁.trans h_place)
    refine ⟨m', t', ?_, h_after', h_outside, h_back.trans h_saved₁, h_kept.trans h_handlers₁⟩
    rw [walk_succ (List.getElem?_eq_getElem h_lt)]
    rw [h_address₁] at h_executes'
    exact h_executes.append h_executes'

/-! ### The turn -/

theorem exists_last_block {R : UInt32 → List Instruction → Prop} {handlers : List UInt32}
    {blocks : List (List Instruction)} (h : List.Forall₂ R handlers blocks) {last : UInt32}
    (h_last : handlers.getLast? = some last) : ∃ k block, handlers.length = k + 1 ∧
      blocks.getLast? = some block ∧ (handlers.zip blocks)[k]? = some (last, block) := by
  have h_some : handlers.length ≠ 0 :=
    Nat.ne_of_gt (List.length_pos_of_mem (List.mem_of_getLast? h_last))
  obtain ⟨k, h_k⟩ := Nat.exists_eq_succ_of_ne_zero h_some
  -- Handlers and blocks are as many, so the last ones stand side by side.
  have h_same := h.length_eq
  obtain ⟨block, h_block⟩ : ∃ block, blocks[k]? = some block :=
    ⟨_, List.getElem?_eq_getElem (by omega)⟩
  rw [List.getLast?_eq_getElem?, h_k] at h_last
  refine ⟨k, block, h_k, ?_, List.getElem?_zip_eq_some.2 ⟨h_last, h_block⟩⟩
  rw [List.getLast?_eq_getElem?, ← h_same, h_k]
  exact h_block

/-- **All handlers have their turn, from the last one registered to the first.** Let a task be live
and in normal flow, and neither wait nor be stopped, and let the code at each of its handlers be a
block. When the first pass of a tick for its kind arrives at it, it executes these blocks in the
reverse of the order in which their handlers were registered, each once, and nothing else, whatever
budget there is beyond that. It is back then where normal flow was left, with all its handlers.

The place of a handler is a word, so with more than 2 ^ 32 handlers it is the last one, and those
up to its place modulo 2 ^ 32. -/
theorem Machine.handlers_walk (carryOut : Routine Unit → Machine → Option Machine) {m : Machine}
    {t : Task} {mask : ScriptKind} {last : UInt32} {blocks : List (List Instruction)}
    (h_find : m.tasks.find? t.id = some t) (h_kind : t.kind.overlaps mask)
    (h_outside : t.inHandler = false) (h_runs : t.waitingFor = 0) (h_live : t.stopped = false)
    (h_last : t.handlers.getLast? = some last)
    (h_blocks : List.Forall₂ (m.program.Block setting) t.handlers blocks) :
    (∀ {before : Machine} {budget : Nat} {visits : List Visit} {ending : Option Machine},
      Visits (handlerTurn setting carryOut budget mask) none before visits ending →
      arrival ending t.id visits = some m → ⟨t, m⟩ ∈ visits) ∧
    ∃ executed ended, ((m.divert t.id last).begin t.id).Executes setting carryOut t.id true
        executed ended ∧
      (∀ {executed' m'}, ((m.divert t.id last).begin t.id).Executes setting carryOut t.id true
        executed' m' → executed' <+: executed) ∧
      (∀ {budget}, executed.length < budget → handlerTurn setting carryOut budget mask t m =
        some { ended with focus := m.focus, running := m.running }) ∧
      (∃ block, blocks.getLast? = some block ∧ executed = placed last block ++
        walk (t.handlers.zip blocks) ((t.handlers.length - 1) % UInt32.size)) ∧
      (t.handlers.length ≤ UInt32.size → executed =
        (t.handlers.zip blocks).reverse.flatMap fun (address, block) => placed address block) ∧
      ∃ t', ended.tasks.find? t.id = some t' ∧ t'.inHandler = false ∧ t'.address = t.address ∧
        t'.handlers = t.handlers := by
  refine ⟨fun h_visits h_arrival => h_visits.mem_of_arrival nofun h_arrival h_find, ?_⟩
  obtain ⟨k, block, h_k, h_block, h_pair⟩ := exists_last_block h_blocks h_last
  obtain ⟨h_length, h_zip⟩ := List.forall₂_iff_zip.1 h_blocks
  have h_all : (t.handlers.zip blocks).length = k + 1 := by
    rw [List.length_zip, ← h_length, Nat.min_self, h_k]
  -- the task is diverted to the last handler, whose place is k in a word
  have h_begun := find?_begin_divert h_find last
  have h_index : UInt32.ofNat (t.handlers.length - 1) = UInt32.ofNat (k % UInt32.size) := by
    rw [h_k]
    exact UInt32.ofNat_mod_size.symm
  have h_le : k % UInt32.size ≤ (t.handlers.zip blocks).length := by
    rw [h_all]
    exact Nat.le_succ_of_le (Nat.mod_le ..)
  obtain ⟨ended, t', h_executes, h_after, h_out, h_back, h_kept⟩ :=
    exists_walk carryOut (fun handler h => h_zip h) h_le (Nat.mod_lt k (by decide))
      (m := (m.divert t.id last).begin t.id) (h_zip (List.mem_of_getElem? h_pair)) rfl h_begun
      (turnEnds_eq_false_iff.2 ⟨h_live, rfl, h_runs, rfl⟩)
      (List.map_fst_zip (Nat.le_of_eq h_length)).symm h_index
  have h_ended : ended.Ended t.id true := by
    intro u h_u
    cases h_after.symm.trans h_u
    simp [turnEnds, h_out]
  refine ⟨_, ended, h_executes, h_executes.prefix_of_ended h_ended, fun {budget} h_budget => ?_,
    ⟨block, h_block, ?_⟩, fun h_size => ?_, t', h_after, h_out, h_back, h_kept⟩
  · have h_service : Pass.handlers.service mask t = .divert last :=
      Pass.service_eq_divert_iff.2 ⟨rfl, h_kind, h_outside, h_runs, h_last⟩
    have h_turn : handlerTurn setting carryOut budget mask t m =
        (m.divert t.id last).slice setting carryOut budget t.id := by
      refine (Pass.turn_eq .handlers t m).trans ?_
      rw [h_service]
    rw [h_turn]
    exact h_executes.slice_eq (find?_updateTask_self h_find _) h_ended h_budget
  · rw [h_k]
    rfl
  · have h_place : k % UInt32.size = k := Nat.mod_eq_of_lt (by omega)
    rw [← walk_length, h_all, walk_succ h_pair, h_place]

/-! ### Two handlers, one after the other -/

/-- A script that registers two handlers and then waits in a loop. Each handler pushes a number and
asks for the next one. -/
def walkingImage : Image :=
  { program := {
      code := [⟨.except, 0, .untyped, 3, 0⟩, ⟨.except, 0, .untyped, 5, 0⟩,
        ⟨.jump, Mode.backward, .untyped, 2, 0⟩,
        ⟨.push, 0, .int, 11, 0⟩, ⟨.nextExcept, 0, .untyped, 0, 0⟩,
        ⟨.push, 0, .int, 22, 0⟩, ⟨.nextExcept, 0, .untyped, 0, 0⟩]
      autostart := [1]
      scripts := [⟨"M", "", .script, 0, [], 0, 0, 1⟩] } }

def walkingTask : Task :=
  { Task.start 1 ⟨"M", "", .script, 0, [], 0, 0, 1⟩ with
    address := 2, handlers := [3, 5], ticks := 1, yielded := true }

/-- The machine after a tick: the task is in its loop. -/
def walkingMachine : Machine :=
  (Machine.tick plainSetting 5 .all (Machine.load {} walkingImage)).getD {}

/-- The handler registered last has its turn first, and then the one before it. -/
theorem handlers_walk_two :
    walkingMachine.tasks.find? 1 = some walkingTask ∧
    ∃ ended, ((walkingMachine.divert 1 5).begin 1).Executes plainSetting Machine.noBody 1 true
        [(5, ⟨.push, 0, .int, 22, 0⟩), (6, ⟨.nextExcept, 0, .untyped, 0, 0⟩),
          (3, ⟨.push, 0, .int, 11, 0⟩), (4, ⟨.nextExcept, 0, .untyped, 0, 0⟩)] ended ∧
      Machine.handlerTurn plainSetting Machine.noBody 5 .all walkingTask walkingMachine =
        some { ended with focus := walkingMachine.focus, running := walkingMachine.running } ∧
      ∃ t', ended.tasks.find? 1 = some t' ∧ t'.inHandler = false ∧ t'.address = 2 ∧
        t'.handlers = [3, 5] := by
  have h_find : walkingMachine.tasks.find? 1 = some walkingTask := by decide +kernel
  have h_code : walkingMachine.program.code = walkingImage.program.code := by decide +kernel
  have h_block {address number : UInt32}
      (h_push : walkingImage.program.code[address.toNat]? = some ⟨.push, 0, .int, number, 0⟩)
      (h_next : walkingImage.program.code[(address + 1).toNat]? =
        some ⟨.nextExcept, 0, .untyped, 0, 0⟩) :
      walkingMachine.program.Block plainSetting address
        [⟨.push, 0, .int, number, 0⟩, ⟨.nextExcept, 0, .untyped, 0, 0⟩] :=
    .cons (h_code ▸ h_push) trivial (.last (h_code ▸ h_next) rfl)
  have h_kind : walkingTask.kind.overlaps .all := by decide
  have h_blocks : List.Forall₂ (walkingMachine.program.Block plainSetting) walkingTask.handlers
      [[⟨.push, 0, .int, 11, 0⟩, ⟨.nextExcept, 0, .untyped, 0, 0⟩],
        [⟨.push, 0, .int, 22, 0⟩, ⟨.nextExcept, 0, .untyped, 0, 0⟩]] :=
    .cons (h_block rfl rfl) (.cons (h_block rfl rfl) .nil)
  obtain ⟨-, executed, ended, h_executes, -, h_turn, -, h_order, h_after⟩ :=
    Machine.handlers_walk Machine.noBody h_find h_kind rfl rfl rfl rfl h_blocks
  obtain rfl := h_order (by decide)
  exact ⟨h_find, ended, h_executes, h_turn (by decide), h_after⟩

/-! ### One handler too many -/

theorem forall₂_replicate {α β : Type} {R : α → β → Prop} {a : α} {b : β} (h : R a b) (n : Nat) :
    List.Forall₂ R (List.replicate n a) (List.replicate n b) := by
  induction n with
  | zero => exact .nil
  | succ n ih => exact .cons h ih

/-- The first handler of the program that hoards them. -/
def firstBlock : List Instruction :=
  [⟨.push, Mode.immediate, .int, 5, 0⟩, ⟨.pop, Mode.reference, .int, 1, 0⟩,
    ⟨.nextExcept, 0, .untyped, 0, 0⟩]

theorem forall₂_hoard {p : Program} (h_code : p.code = hoardingCode 0) :
    List.Forall₂ (p.Block plainSetting) Machine.hoard
      (firstBlock :: List.replicate (2 ^ 32) [⟨.nextExcept, 0, .untyped, 0, 0⟩]) := by
  have h_at {address : UInt32} {i : Instruction}
      (h : (hoardingCode 0)[address.toNat]? = some i) : p.code[address.toNat]? = some i :=
    h_code ▸ h
  refine .cons ?_ (forall₂_replicate (.last (h_at rfl) rfl) _)
  exact .cons (h_at rfl) trivial (.cons (h_at rfl) trivial (.last (h_at rfl) rfl))

/-- If all handlers had their turn, the first one would. -/
theorem mem_walk_hoard (blocks : List (List Instruction)) :
    (12, ⟨.push, Mode.immediate, .int, 5, 0⟩) ∈
      (Machine.hoard.zip (firstBlock :: blocks)).reverse.flatMap
        fun (address, block) => placed address block :=
  List.mem_flatMap.2 ⟨(12, firstBlock), List.mem_reverse.2 List.mem_cons_self, List.mem_cons_self⟩

/-- **Handlers that are passed over.** An accepted program runs a tick, and then its task has 2 ^ 32
handlers and one more, all of them blocks. In the next detour the last one has its turn and no other
has, and the task is back in normal flow with all its handlers. -/
theorem handlers_passed_over_hoarding :
    Image.decode (hoardingImage 0).encode = .ok (hoardingImage 0) ∧
    ∃ m t blocks,
      Machine.perform plainSetting (Routine.ticks .all 1) (Machine.load {} (hoardingImage 0)) =
        some ((), m) ∧
      m.tasks.find? t.id = some t ∧ t.kind.overlaps .all ∧ t.inHandler = false ∧
      t.waitingFor = 0 ∧ t.stopped = false ∧ t.handlers.getLast? = some 15 ∧
      List.Forall₂ (m.program.Block plainSetting) t.handlers blocks ∧
      ∃ ended, (∀ carryOut,
          ((m.divert t.id 15).begin t.id).Executes plainSetting carryOut t.id true
            [(15, ⟨.nextExcept, 0, .untyped, 0, 0⟩)] ended ∧
          Machine.handlerTurn plainSetting carryOut Machine.lifetime .all t m =
            some { ended with focus := m.focus, running := m.running }) ∧
        [(15, ⟨.nextExcept, 0, .untyped, 0, 0⟩)] ≠
          (t.handlers.zip blocks).reverse.flatMap fun (address, block) => placed address block := by
  obtain ⟨m, h_run, saved, p, q, k, e, n, rfl⟩ := Machine.perform_hoard
  refine ⟨decode_hoarding, _, restingTask Machine.hoard saved p q k, _, h_run, rfl,
    Machine.overlaps_script_all, rfl, rfl, rfl, Machine.getLast?_hoard, forall₂_hoard rfl,
    Machine.inTurn 0 (backTask Machine.hoard p q k) (e + 1) n, fun carryOut => ⟨?_, ?_⟩, ?_⟩
  · exact Machine.executes_detour carryOut 0 Machine.hoard saved p q k e n Machine.place_hoard
  · exact Machine.handlerTurn_resting carryOut 0 Machine.hoard saved p q k e n
      Machine.getLast?_hoard Machine.place_hoard (by decide)
  · -- the first handler would have its turn as well, and its block is another one
    intro h_all
    have h_first := mem_walk_hoard (List.replicate (2 ^ 32) [⟨.nextExcept, 0, .untyped, 0, 0⟩])
    have h_handlers : (restingTask Machine.hoard saved p q k).handlers = Machine.hoard := rfl
    rw [h_handlers] at h_all
    rw [← h_all] at h_first
    exact absurd (List.mem_singleton.1 h_first) (by decide)

end ScriptMachine
