import ScriptMachine.Proofs.Machine.Accord
import ScriptMachine.Proofs.Machine.Extent

/-!
# The null variable

The variable with the id 0 is not saved, as it is supposed to be blank at all times. That is up to
the program. Of all instructions two store something in the variable that their operand addresses
(`Instruction.stored?`): a pop can move a value there, and a cast can make it blank. All others
leave all globals alone (`Keeps`). Every task sees the null variable under the id 0, and no other
variable, so it is changed by those that say so in their operand (`Step.null`). It holds what the
last of them has put there, and was blank before the first (`nullAfter`).

If a program has no pop of this kind (`Program.SparesNull`), then the null variable is as it was
loaded after each ordinary routine, even if natives run ticks (`Machine.NullIntact.perform`). That
is an invariant that depends on the code, and the code is only known to the loop of a turn. So it is
proven as a relation between a machine and itself that turns keep (`Paced`).
-/

namespace ScriptMachine

/-! ### Programs that leave it alone -/

/-- The instruction moves a value into the null variable. -/
def Instruction.StoresNull (i : Instruction) : Prop :=
  i.opcode = .pop ∧ i.mode = Mode.reference ∧ i.operand = 0

instance (i : Instruction) : Decidable i.StoresNull :=
  inferInstanceAs (Decidable (i.opcode = .pop ∧ i.mode = Mode.reference ∧ i.operand = 0))

/-- No instruction moves a value into the null variable. -/
def Program.SparesNull (p : Program) : Prop := ∀ i ∈ p.code, ¬ i.StoresNull

theorem Place.toNat_of_ofId {id offset : UInt32} {index : Nat}
    (h : Place.ofId id offset = .globalSlot index) : id.toNat = index := by
  unfold Place.ofId at h
  split at h
  · exact Place.globalSlot.inj h
  · contradiction

namespace Machine

/-! ### What leaves all globals alone -/

variable {m m' : Machine} {task : UInt32}

theorem Gestures.keeps (h : Gestures task m m') : Keeps m m' := by
  induction h with
  | refl => exact .refl m
  | tail _ h_gesture ih =>
    refine ih.trans ?_
    cases h_gesture with
    | exchange h => exact h.keeps
    | steer | mark => exact ⟨rfl, rfl⟩

theorem keeps_start (m : Machine) (script : UInt32) : Keeps m (m.start script).2 := by
  unfold start
  split
  · exact keeps_spawn ..
  · exact ⟨rfl, rfl⟩

theorem keeps_callScript (m : Machine) (task : UInt32) (i : Instruction) :
    Keeps m (m.callScript task i).2 := by
  unfold callScript
  dsimp only
  split
  · exact keeps_start ..
  · -- that the caller waits is written into its task
    exact (keeps_start m i.operand).trans ⟨rfl, rfl⟩

theorem keeps_stop (m : Machine) (id : UInt32) : Keeps m (m.stop id) := by
  unfold stop
  split
  · exact keeps_remove m id
  · exact ⟨rfl, rfl⟩

theorem keeps_stopWhere (m : Machine) (selected : Task → Bool) :
    Keeps m (m.stopWhere selected) := by
  rw [stopWhere_eq]
  exact ⟨rfl, rfl⟩

theorem keeps_answer {q : Request} {a : q.Answer} (h_immediate : q.Immediate)
    (h : m.answer noTick q = some (a, m')) : Keeps m m' :=
  answer_lift Keeps.refl Keeps.trans Exchange.keeps keeps_spawn keeps_stop
    (fun _ _ => ⟨rfl, rfl⟩) h_immediate h

theorem keeps_settle (m : Machine) (mask : ScriptKind) : Keeps m (m.settle mask) := by
  rw [settle_eq]
  exact keeps_stopWhere ..

/-! ### What stores -/

theorem place_zero (offset : UInt32) : Place.ofId 0 offset = .globalSlot 0 :=
  if_pos (UInt32.zero_le)

/-- What is stored under the id 0 is in the null variable then, and what is stored under any other
id is not. -/
theorem head?_setVariable {t : Task} (h_find : m.tasks.find? task = some t) (id : UInt32)
    (v : Value) : (m.setVariable task id v).globals.head? =
      if id = 0 then m.globals.head?.map fun x => { x with value := v } else m.globals.head? := by
  unfold setVariable
  rw [h_find]
  dsimp only
  by_cases h_id : id = 0
  · rw [if_pos h_id, h_id, place_zero]
    dsimp only
    cases m.globals <;> rfl
  · rw [if_neg h_id]
    cases h_place : Place.ofId id t.offset with
    | localSlot index => rfl
    | globalSlot index =>
      -- Another id stands for another slot, and the first slot stays when a later one is changed.
      have h_index : index ≠ 0 := by
        rw [← Place.toNat_of_ofId h_place]
        exact fun h_zero => h_id (UInt32.toNat_inj.1 h_zero)
      obtain ⟨index, rfl⟩ := Nat.exists_eq_succ_of_ne_zero h_index
      dsimp only
      cases m.globals <;> rfl

theorem head?_writeVariable (h_live : m.tasks.contains task) (id : UInt32) (v : Value) :
    (m.writeVariable task id v).globals.head? =
      if id = 0 then m.globals.head?.map fun x => { x with value := v } else m.globals.head? := by
  obtain ⟨t, h_find⟩ := TaskTable.contains_eq_true_iff.1 h_live
  unfold writeVariable
  cases h_var : m.findVariable? task id with
  | some old =>
    dsimp only
    rw [foldl_emit]
    exact head?_setVariable h_find id v
  | none =>
    change m.globals.head? = _
    by_cases h_id : id = 0
    · -- it was meant for the null variable, and there is none
      unfold findVariable? at h_var
      rw [h_find, h_id, Option.bind_eq_bind, Option.bind_some, place_zero] at h_var
      have h_head : m.globals.head? = none := List.head?_eq_getElem?.trans h_var
      rw [if_pos h_id, h_head]
      rfl
    · rw [if_neg h_id]

end Machine

/-- The value that an instruction stores in the variable that its operand addresses, if any. -/
def Instruction.stored? (i : Instruction) (m : Machine) : Option Value :=
  if i.opcode = .pop ∧ i.mode = Mode.reference then some (m.pop.1.retag (Machine.slotTag i.tag))
  else if i.opcode = .cast ∧ i.mode = Mode.zero then some .blank
  else none

namespace Machine

variable {m m' : Machine} {task : UInt32} {p : Program}

/-- What an instruction does to globals: one store, or nothing at all. -/
inductive Storing (m : Machine) (task : UInt32) (i : Instruction) : Option Value → Machine → Prop
  | keeps {m' : Machine} (h : Keeps m m') : Storing m task i none m'
  /-- The value may have been taken off the stack before. -/
  | stores {m₁ : Machine} {v : Value} (h : Keeps m m₁)
      (h_live : m.tasks.contains task → m₁.tasks.contains task) :
      Storing m task i (some v) (m₁.writeVariable task i.operand v)

/-- **Instructions.** A pop into a variable and the cast that makes one blank store something there,
and no other instruction does. -/
theorem storing_obey (m : Machine) (task : UInt32) (setting : Setting) (i : Instruction) :
    Storing m task i (i.stored? m) (obey setting task i m).2 := by
  unfold Instruction.stored?
  by_cases h_pop : i.opcode = .pop
  · rw [obey_pop m task setting h_pop]
    by_cases h_mode : i.mode = Mode.reference
    · -- the value is taken off the stack, which leaves the globals, and stored then
      rw [if_pos ⟨h_pop, h_mode⟩, popOperand_of_reference m task h_mode]
      refine .stores (gestures_pop m task).keeps fun h_live => ?_
      exact TaskTable.contains_of_standing? ((exchange_pop m).confined.standing task) h_live
    · rw [if_neg fun h => h_mode h.2, if_neg fun h => by simp [h_pop] at h]
      exact .keeps (exchanges_popOperand m task h_mode).keeps
  -- It is no pop, so what is left that can store is a cast.
  rw [if_neg fun h => h_pop h.1]
  by_cases h_cast : i.opcode = .cast
  · rw [obey_cast m task setting h_cast]
    by_cases h_mode : i.mode = Mode.zero
    · rw [if_pos ⟨h_cast, h_mode⟩, cast_of_zero m task h_mode]
      exact .stores (.refl m) id
    · rw [if_neg fun h => h_mode h.2]
      exact .keeps (exchange_cast m task h_mode).keeps
  rw [if_neg fun h => h_cast h.1]
  by_cases h_finish : i.opcode = .finish
  · rw [obey_finish setting h_finish]
    exact .keeps ⟨rfl, rfl⟩
  by_cases h_call : i.opcode = .callScript
  · rw [obey_callScript setting h_call]
    exact .keeps (keeps_callScript m task i)
  -- All others leave every variable alone.
  exact .keeps (gestures_obey m task setting h_finish h_call h_pop h_cast).keeps

/-! ### What leaves the null variable alone -/

/-- The machine runs the program, and the null variable is as it was loaded. -/
def NullIntact (p : Program) (m : Machine) : Prop :=
  m.program = p ∧ m.globals.head? = some (.fresh nullVariableName)

theorem NullIntact.keep (h : m.NullIntact p) (h_keeps : Keeps m m') : m'.NullIntact p := by
  unfold NullIntact
  rw [h_keeps.1, h_keeps.2]
  exact h

/-- A value is stored elsewhere, or it makes the variable blank. -/
theorem NullIntact.writeVariable (h : m.NullIntact p) (task : UInt32) {id : UInt32} {v : Value}
    (h_store : id ≠ 0 ∨ v = .blank) : (m.writeVariable task id v).NullIntact p := by
  refine ⟨(confined_writeVariable m task id v).program.trans h.1, ?_⟩
  by_cases h_live : m.tasks.contains task
  · rw [head?_writeVariable h_live, h.2]
    split
    · rename_i h_id
      obtain rfl := h_store.resolve_left (not_not_intro h_id)
      rfl
    · rfl
  · -- nobody is there to see a variable under this id
    have h_find := TaskTable.contains_eq_false_iff.1 (Bool.eq_false_iff.2 h_live)
    unfold Machine.writeVariable findVariable?
    rw [h_find]
    exact h.2

/-- **Instructions.** None but that pop moves a value into the null variable. -/
theorem NullIntact.obey (h : m.NullIntact p) (setting : Setting) (task : UInt32) {i : Instruction}
    (h_spares : ¬ i.StoresNull) : (obey setting task i m).2.NullIntact p := by
  have h_storing := storing_obey m task setting i
  generalize h_stored : i.stored? m = stored at h_storing
  generalize (Machine.obey setting task i m).2 = m' at h_storing ⊢
  cases h_storing with
  | keeps h_keeps => exact h.keep h_keeps
  | @stores m₁ v h_keeps _ =>
    refine (h.keep h_keeps).writeVariable task ?_
    unfold Instruction.stored? at h_stored
    split at h_stored
    · -- a pop that stores under the id 0 is the one that is ruled out
      rename_i h_pop
      exact .inl fun h_id => h_spares ⟨h_pop.1, h_pop.2, h_id⟩
    · -- a cast stores a blank value, wherever that is
      split at h_stored
      · exact .inr (Option.some.inj h_stored).symm
      · contradiction

/-! ### Runs -/

/-- A machine and itself, as long as its null variable is as it was loaded. -/
def SelfIntact (p : Program) (m n : Machine) : Prop := n = m ∧ m.NullIntact p

theorem SelfIntact.keep (h : SelfIntact p m m') {f : Machine → Machine} (h_keeps : Keeps m (f m)) :
    SelfIntact p (f m) (f m') := by
  obtain ⟨rfl, h_intact⟩ := h
  exact ⟨rfl, h_intact.keep h_keeps⟩

theorem alike_selfIntact {α : Type} {f : Machine → α × Machine} (h : SelfIntact p m m')
    (h_out : (f m).2.NullIntact p) : Alike (SelfIntact p) (f m) (f m') := by
  obtain ⟨rfl, -⟩ := h
  exact ⟨rfl, rfl, h_out⟩

theorem paced_selfIntact (setting : Setting) (h_spares : p.SparesNull) (task : UInt32) :
    Paced setting task (SelfIntact p) where
  same_task h := by rw [h.1]
  same_program h := by rw [h.1]
  same_executed h := by rw [h.1]
  emit h e := h.keep (f := (·.emit e)) ⟨rfl, rfl⟩
  updateTask h change := h.keep (f := (·.updateTask task change)) ⟨rfl, rfl⟩
  setExecuted h executed := h.keep (f := fun m => { m with executed }) ⟨rfl, rfl⟩
  obey h i h_code := by
    have h_i : i ∈ p.code := h.2.1 ▸ h_code
    exact alike_selfIntact h (h.2.obey setting task (h_spares i h_i))
  callUnbound h function native :=
    h.keep (f := (·.callUnbound function native)) (exchanges_callUnbound _ _ _).keeps

theorem accord_selfIntact (setting : Setting) (h_spares : p.SparesNull) :
    Accord setting Request.Ordinary (SelfIntact p) where
  same_state h := by rw [h.1]
  paced := paced_selfIntact setting h_spares
  refocus h focus running := h.keep (f := fun m => { m with focus, running }) ⟨rfl, rfl⟩
  settle h mask := h.keep (f := (·.settle mask)) (keeps_settle _ mask)
  answer := by
    rintro _ m ⟨rfl, h⟩ tick h_tick q h_q
    by_cases h_immediate : q.Immediate
    · rw [answer_immediate h_immediate]
      cases h_answer : m.answer noTick q with
      | none => exact .none
      | some r => exact .some ⟨rfl, rfl, h.keep (keeps_answer h_immediate h_answer)⟩
    · -- a tick is kept by induction, and the requests that replace the program are not ordinary
      cases q with
      | load | restore | reboot => exact h_q.elim
      | tick mask => exact rel_map (h_tick mask ⟨rfl, h⟩) fun _ _ h_out => ⟨rfl, h_out⟩
      | _ => exact absurd trivial h_immediate

/-- **The null variable stays as it is** while ordinary routines are carried out. -/
theorem NullIntact.perform {α : Type} {setting : Setting} (h_setting : setting.Ordinary)
    (h_spares : p.SparesNull) (h : m.NullIntact p) {r : Routine α}
    (h_routine : r.Only Request.Ordinary) {a : α} (h_run : perform setting r m = some (a, m')) :
    m'.NullIntact p := by
  -- The relation of a machine to itself is kept, and that is to say that the variable stays.
  have h_self : SelfIntact p m m := ⟨rfl, h⟩
  have h_related := (accord_selfIntact setting h_spares).perform h_setting h_self h_routine
  rw [h_run] at h_related
  cases h_related with
  | some h_results => exact h_results.2.2

/-- So it is in a program that was loaded. -/
theorem nullIntact_load (m : Machine) (i : Image) : (m.load i).NullIntact i.program := by
  -- Starting the scripts of the program stores nothing.
  have h_starts (scripts : List UInt32) {n : Machine} (h : n.NullIntact i.program) :
      (scripts.foldl (fun m script => (m.start script).2) n).NullIntact i.program := by
    induction scripts generalizing n with
    | nil => exact h
    | cons script rest ih => exact ih (h.keep (keeps_start n script))
  exact h_starts i.program.autostart ⟨rfl, rfl⟩

end Machine

/-! ### What has been stored -/

/-- A variable after a value was stored in it, or none. -/
def Variable.put (x : Variable) (v : Option Value) : Variable := { x with value := v.getD x.value }

/-- What a step that is taken from a machine stores in the null variable. -/
def Deed.nullStored? (d : Deed) (m : Machine) : Option Value :=
  match d with
  | .execute _ i => if i.operand = 0 then i.stored? m else none
  | _ => none

/-- What the null variable holds when steps have been taken, after it was blank. -/
def nullAfter (scenes : List Scene) : Value :=
  scenes.foldl (fun v s => (s.deed.nullStored? s.before.machine).getD v) .blank

namespace Machine

variable {m m' : Machine} {task : UInt32} {i : Instruction}

theorem Keeps.head?_eq (h : Keeps m m') : m'.globals.head? = m.globals.head?.map (·.put none) := by
  have h_none : (fun x : Variable => x.put none) = id := rfl
  rw [h_none, Option.map_id, h.2]
  rfl

theorem Storing.head?_eq {stored : Option Value} (h : Storing m task i stored m')
    (h_live : m.tasks.contains task) : m'.globals.head? =
      m.globals.head?.map (·.put (if i.operand = 0 then stored else none)) := by
  cases h with
  | keeps h_keeps =>
    rw [ite_self]
    exact h_keeps.head?_eq
  | stores h_keeps h_still =>
    rw [head?_writeVariable (h_still h_live), h_keeps.2]
    split
    · rfl
    · exact (Keeps.refl m).head?_eq

/-- What would be stored does not depend on how many instructions were executed. -/
theorem stored?_executed (m : Machine) (i : Instruction) (executed : UInt32) :
    i.stored? { m with executed } = i.stored? m := by
  have h_pop : (pop { m with executed }).1 = m.pop.1 := by
    have h_stack : State.currentStack? { m.toState with executed } = m.currentStack? := rfl
    unfold pop
    rw [h_stack]
    cases m.currentStack? with
    | none => rfl
    | some s =>
      dsimp only
      cases s.pop? <;> rfl
  unfold Instruction.stored?
  rw [h_pop]

theorem head?_advance {setting : Setting} (h_live : m.tasks.contains task)
    (h : m.advance setting noBody task i = some m') : m'.globals.head? =
      m.globals.head?.map (·.put (if i.operand = 0 then i.stored? m else none)) := by
  unfold advance at h
  obtain ⟨⟨flow, m₁⟩, h_execute, h⟩ := Option.bind_eq_some_iff.1 h
  -- Where the task goes on is nothing to the globals.
  have h_flow : m'.globals = m₁.globals := by
    cases flow with
    | next | jumped | stay =>
      cases h
      rfl
  rw [h_flow]
  unfold execute at h_execute
  by_cases h_opcode : i.opcode = .callNative
  · -- a native without a body
    rw [if_neg (not_not_intro h_opcode)] at h_execute
    have h_stored : i.stored? m = none := by
      unfold Instruction.stored?
      rw [h_opcode]
      rfl
    rw [h_stored, ite_self]
    dsimp only at h_execute
    split at h_execute
    · cases h_execute
      exact (Keeps.refl m).head?_eq
    · split at h_execute
      · cases h_execute
        exact (exchanges_callUnbound { m with executed := m.executed + 1 } _ _).keeps.head?_eq
      · contradiction
  · rw [if_pos h_opcode] at h_execute
    have h_storing := storing_obey { m with executed := m.executed + 1 } task setting i
    rw [Option.some.inj h_execute, stored?_executed] at h_storing
    exact h_storing.head?_eq h_live

end Machine

variable {setting : Setting} {c c' : Config} {d : Deed} {scenes : List Scene}

/-- **Steps.** A step changes the null variable if it stores something there, and only then. -/
theorem Step.null (h : Step setting c d c') : c'.machine.globals.head? =
    c.machine.globals.head?.map (·.put (d.nullStored? c.machine)) := by
  cases h with
  | ask h_immediate h_answer | request h_immediate h_answer =>
    exact (Machine.keeps_answer h_immediate h_answer).head?_eq
  | tick | skip | serve | divert | leave | overrun | close | nextPass =>
    exact Machine.Keeps.head?_eq ⟨rfl, rfl⟩
  | settle => exact (Machine.keeps_settle _ _).head?_eq
  | execute h_find _ _ h_advance =>
    -- instructions are the only steps that store
    exact Machine.head?_advance (TaskTable.contains_eq_true_iff.2 ⟨_, h_find⟩) h_advance
  | @enter m s t i _ _ _ _ _ h_opcode =>
    have h_stored : Deed.nullStored? (.execute s.task i) m = none := by
      unfold Deed.nullStored? Instruction.stored?
      dsimp only
      rw [h_opcode]
      exact ite_self none
    rw [h_stored]
    exact Machine.Keeps.head?_eq ⟨rfl, rfl⟩

theorem Course.null (h : Course setting c scenes c') {x : Variable}
    (h_x : c.machine.globals.head? = some x) : c'.machine.globals.head? = some { x with
      value :=
        scenes.foldl (fun v s => (s.deed.nullStored? s.before.machine).getD v) x.value } := by
  induction h generalizing x with
  | nil => exact h_x
  | cons h_step _ ih =>
    have h_put := h_step.null
    rw [h_x, Option.map_some] at h_put
    exact ih h_put

/-- Before anything is moved into it, the null variable stays blank. -/
theorem nullAfter_of_spared (h : ∀ s ∈ scenes, ∀ task i, s.deed = .execute task i →
    ¬ i.StoresNull) : nullAfter scenes = .blank := by
  -- Whatever is stored there is blank: no pop does it, and what a cast stores is blank anyway.
  have h_stored {s : Scene} (h_s : s ∈ scenes) {v : Value}
      (h_v : s.deed.nullStored? s.before.machine = some v) : v = .blank := by
    obtain ⟨before, deed, after⟩ := s
    cases deed with
    | execute task i =>
      unfold Deed.nullStored? Instruction.stored? at h_v
      dsimp only at h_v
      split at h_v
      · rename_i h_id
        split at h_v
        · rename_i h_pop
          exact absurd ⟨h_pop.1, h_pop.2, h_id⟩ (h _ h_s task i rfl)
        · split at h_v
          · exact (Option.some.inj h_v).symm
          · contradiction
      · contradiction
    | _ => contradiction
  unfold nullAfter
  clear h
  -- The last value that was stored is blank, and so was the first.
  induction scenes with
  | nil => rfl
  | cons s rest ih =>
    rw [List.foldl_cons]
    cases h_v : s.deed.nullStored? s.before.machine with
    | none => exact ih fun h_s => h_stored (List.mem_cons_of_mem s h_s)
    | some v =>
      rw [h_stored List.mem_cons_self h_v]
      exact ih fun h_s => h_stored (List.mem_cons_of_mem s h_s)

/-- **The null variable holds what was put there last.** Let a program be loaded, by a host with
natives that run no ticks. Whatever is done then, the variable with the id 0 is blank until it is
named by an instruction that stores something, and from then on it holds what was stored; so do
tasks read it, and the other globals do not tell it. It is blank as long as no pop has moved a value
there. -/
theorem Machine.null_history (h_setting : setting.Immediate) (m₀ : Machine) (i : Image) :
    TakesCourses setting m₀ i ∧
    ∀ {scenes : List Scene} {c' : Config}, Course setting ⟨m₀.beginning i, .idle⟩ scenes c' →
      c'.machine.globals = ⟨nullVariableName, nullAfter scenes⟩ :: c'.machine.globals.drop 1 ∧
      (∀ task t, c'.machine.tasks.find? task = some t →
        c'.machine.readVariable task 0 = (nullAfter scenes, c'.machine)) ∧
      ((∀ s ∈ scenes, ∀ task j, s.deed = .execute task j → ¬ j.StoresNull) →
        nullAfter scenes = .blank) := by
  refine ⟨takesCourses h_setting m₀ i, ?_⟩
  intro scenes c' h_course
  have h_fresh : (m₀.beginning i).globals.head? = some (.fresh nullVariableName) := rfl
  have h_null : c'.machine.globals.head? = some ⟨nullVariableName, nullAfter scenes⟩ :=
    h_course.null h_fresh
  obtain ⟨rest, h_globals⟩ := List.head?_eq_some_iff.1 h_null
  refine ⟨?_, fun task t h_find => ?_, nullAfter_of_spared⟩
  · rw [h_globals]
    rfl
  · -- The id 0 is below every offset, so any task takes it for the first global.
    have h_variable : c'.machine.findVariable? task 0 =
        some ⟨nullVariableName, nullAfter scenes⟩ := by
      unfold findVariable?
      rw [h_find, Option.bind_eq_bind, Option.bind_some, place_zero, h_globals]
      rfl
    unfold readVariable
    rw [h_variable]

/-! ### A program that stores something there -/

/-- A script that moves a number into the null variable. -/
def storingImage : Image :=
  { program := {
      code := [⟨.push, Mode.immediate, .int, 5, 0⟩, ⟨.pop, Mode.reference, .int, 0, 0⟩,
        ⟨.finish, 0, .untyped, 0, 0⟩]
      autostart := [1]
      scripts := [⟨"Main", "main.chl", .script, 0, [], 0, 0, 1⟩] } }

/-- A tick after it was loaded. -/
def storedMachine : Machine :=
  ((Machine.perform plainSetting (.request (.tick .all)) (Machine.load {} storingImage)).getD
    ((), default)).2

theorem perform_storing : Machine.perform plainSetting (.request (.tick .all))
    (Machine.load {} storingImage) = some ((), storedMachine) := by decide +kernel

/-- The null variable is blank when the script has been started, and no longer after the tick. -/
theorem null_history_storing :
    (∃ scenes, Course plainSetting ⟨Machine.beginning {} storingImage, .idle⟩ scenes
        ⟨Machine.load {} storingImage, .idle⟩ ∧ nullAfter scenes = .blank) ∧
    ∃ scenes, Course plainSetting ⟨Machine.beginning {} storingImage, .idle⟩ scenes
      ⟨storedMachine, .idle⟩ ∧ nullAfter scenes = .ofInt 5 := by
  obtain ⟨h_takes, h_null⟩ :=
    Machine.null_history plainSetting_immediate {} storingImage
  have h_start : Step plainSetting ⟨Machine.beginning {} storingImage, .idle⟩
      (.ask none (.start 1) 1) ⟨Machine.load {} storingImage, .idle⟩ :=
    .ask trivial (by decide +kernel)
  have h_loaded := Course.cons h_start (.nil _)
  obtain ⟨scenes, h_stored⟩ :=
    h_takes.perform (r := .request (.tick .all)) ⟨trivial, fun _ => trivial⟩ perform_storing
  refine ⟨⟨_, h_loaded, ?_⟩, scenes, h_stored, ?_⟩
  · refine (h_null h_loaded).2.2 fun s h_s task j h_deed => ?_
    rw [List.mem_singleton.1 h_s] at h_deed
    contradiction
  · have h_globals : storedMachine.globals = [⟨nullVariableName, .ofInt 5⟩] := by decide +kernel
    have h_head := (h_null h_stored).1
    rw [h_globals] at h_head
    exact (congrArg Variable.value (List.cons.inj h_head).1).symm

/-- **A program can change the null variable.** It need not be blank in what was read from a program
file and has run for a tick. -/
theorem null_changed_storing :
    ¬ ∀ (setting : Setting) (r : Routine Unit) (bytes : List UInt8) (i : Image) (m₀ m : Machine),
      setting.Immediate → r.Only Request.Ordinary → Image.decode bytes = .ok i →
      Machine.perform setting r (m₀.load i) = some ((), m) →
      m.globals.head? = some (.fresh nullVariableName) := by
  intro h
  have h_decode : Image.decode storingImage.encode = .ok storingImage := by decide +kernel
  have h_blank := h plainSetting (.request (.tick .all)) _ storingImage {} storedMachine
    plainSetting_immediate ⟨trivial, fun _ => trivial⟩ h_decode perform_storing
  revert h_blank
  decide +kernel

end ScriptMachine
