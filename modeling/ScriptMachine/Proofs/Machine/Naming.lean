import ScriptMachine.Proofs.Machine.Origins

/-!
# Listings name what is done

A listing draws its names from the program: from the table of globals, which does not know of the
null variable, and from the offset and the locals of a script. A machine finds what an operand means
in tables of its own: its globals, with the null variable before them, and the offset and locals of
the task that executes the instruction. That the two come to the same is true wherever a machine
stands after it has loaded a program, for every task and the script that it was started from
(`Image.names_agree`).

What an instruction means is said by what it does: which slot is read or written
(`Instruction.Accesses`), under which name there is a new task (`Instruction.Calls`), and which
native is looked up (`Instruction.Enters`). What a listing shows as a number is what the machine
does not find, and the number is that of its complaint.
-/

namespace ScriptMachine

/-! ### Slots -/

namespace Machine

variable {m m' : Machine} {task : UInt32} {t : Task}

/-- What a task sees at a place. -/
def slot? (m : Machine) (task : UInt32) : Place → Option Variable
  | .globalSlot index => m.globals[index]?
  | .localSlot index => (m.tasks.find? task).bind (·.locals[index]?)

theorem findVariable?_eq (h_find : m.tasks.find? task = some t) (id : UInt32) :
    m.findVariable? task id = m.slot? task (.ofId id t.offset) := by
  unfold findVariable? slot?
  rw [h_find]
  rfl

/-- What lies on stacks is in no slot. -/
theorem Exchange.slot?_eq (h : m.Exchange m') (h_find : m.tasks.find? task = some t) (p : Place) :
    m'.slot? task p = m.slot? task p := by
  unfold slot?
  cases p with
  | globalSlot index =>
    dsimp only
    rw [h.keeps.2]
  | localSlot index =>
    obtain ⟨s, h_s⟩ := h.exists_stack h_find
    dsimp only
    rw [h_s, h_find]
    rfl

/-- A value is stored at a place where the variable is, and at no other place that the task sees.
The host is told of the objects that come and go. -/
structure Stores (m : Machine) (task : UInt32) (p : Place) (x : Variable) (v : Value)
    (m' : Machine) : Prop where
  before : m.slot? task p = some x
  after : m'.slot? task p = some { x with value := v }
  others {q : Place} (h : q ≠ p) : m'.slot? task q = m.slot? task q
  told : m'.log = m.log ++ (v.object?.toList.map Event.objectHeld ++
    x.value.object?.toList.map Event.objectReleased).toArray

/-- What is stored under an id is seen at its place, and everything else is as it was. -/
theorem slot?_setVariable (h_find : m.tasks.find? task = some t) (id : UInt32) (v : Value)
    (q : Place) : (m.setVariable task id v).slot? task q =
      (m.slot? task q).map fun x => if .ofId id t.offset = q then { x with value := v } else x := by
  unfold setVariable
  rw [h_find]
  dsimp only
  generalize Place.ofId id t.offset = p
  -- globals and locals lie apart, and among themselves it is the index that counts
  cases p with
  | globalSlot index =>
    cases q with
    | globalSlot other =>
      change (m.globals.modify index _)[other]? = m.globals[other]?.map _
      rw [List.getElem?_modify]
      simp only [Place.globalSlot.injEq]
      rfl
    | localSlot other => simp [slot?]
  | localSlot index =>
    cases q with
    | globalSlot other => simp [slot?, updateTask]
    | localSlot other =>
      unfold slot? updateTask
      dsimp only
      rw [TaskTable.find?_update_self, h_find]
      change (t.locals.modify index _)[other]? = t.locals[other]?.map _
      rw [List.getElem?_modify]
      simp only [Place.localSlot.injEq]
      rfl

/-- **Storing** under an id is storing at its place. -/
theorem stores_writeVariable (h_find : m.tasks.find? task = some t) {id : UInt32} {x : Variable}
    (h_slot : m.slot? task (.ofId id t.offset) = some x) (v : Value) :
    m.Stores task (.ofId id t.offset) x v (m.writeVariable task id v) := by
  have h_slots := slot?_setVariable h_find id v
  unfold writeVariable
  rw [findVariable?_eq h_find, h_slot]
  dsimp only
  rw [foldl_emit]
  refine ⟨h_slot, ?_, fun {q} h_q => ?_, ?_⟩
  · refine (h_slots _).trans ?_
    rw [h_slot, Option.map_some, if_pos rfl]
  · refine (h_slots q).trans ?_
    simp only [if_neg h_q.symm, Option.map_id']
  · -- to store a value is silent, so nothing is told but what the host has to know of objects
    have h_log : (m.setVariable task id v).log = m.log := by
      unfold setVariable
      rw [h_find]
      dsimp only
      split <;> rfl
    dsimp only
    rw [h_log]

end Machine

/-! ### What instructions do with their operands -/

namespace Instruction

open Machine (slotTag execute)

/-- The operand is the id of a variable. -/
def Addresses (i : Instruction) : Prop :=
  (i.opcode = .push ∨ i.opcode = .pop) ∧ i.mode = Mode.reference ∨
    i.opcode = .cast ∧ i.mode = Mode.zero

/-- What comes of an instruction that addresses a place, in view of what is there. Where there is
nothing, the host is told of the operand. -/
inductive Accesses (i : Instruction) (m : Machine) (task : UInt32) (p : Place) :
    Option Variable → Machine → Prop
  | push {x : Variable} (h : i.opcode = .push) :
      Accesses i m task p (some x) (m.push (x.value.retag (slotTag i.tag)))
  | pushNothing (h : i.opcode = .push) : Accesses i m task p none
      ((m.fault .invalidOperand "" i.operand).push (Value.blank.retag (slotTag i.tag)))
  | pop {x : Variable} {m' : Machine} (h : i.opcode = .pop)
      (h_stores : m.pop.2.Stores task p x (m.pop.1.retag (slotTag i.tag)) m') :
      Accesses i m task p (some x) m'
  | popNowhere (h : i.opcode = .pop) :
      Accesses i m task p none (m.pop.2.fault .invalidOperand "" i.operand)
  | clear {x : Variable} {m' : Machine} (h : i.opcode = .cast)
      (h_stores : m.Stores task p x ⟨.float, 0⟩ m') : Accesses i m task p (some x) m'
  | clearNowhere (h : i.opcode = .cast) :
      Accesses i m task p none (m.fault .invalidOperand "" i.operand)

/-- How a variable that is addressed is to be shown. -/
inductive Shows (operand : UInt32) : Place → Option Variable → String → Prop
  | null (x : Variable) : Shows operand (.globalSlot 0) (some x) "null"
  | ofGlobal (index : Nat) (x : Variable) :
      Shows operand (.globalSlot (index + 1)) (some x) ("global " ++ x.name)
  | ofLocal (index : Nat) (x : Variable) :
      Shows operand (.localSlot index) (some x) ("local " ++ x.name)
  | noGlobal (index : Nat) :
      Shows operand (.globalSlot index) none ("global #" ++ toString operand.toNat)
  | noLocal (index : Nat) :
      Shows operand (.localSlot index) none ("local #" ++ toString operand.toNat)

/-- What comes of a call, and how it is to be shown: by the name of the new task. -/
inductive Calls (i : Instruction) (m : Machine) : Machine → String → Prop
  | starts {m' : Machine} {u : Task} (h_started : m'.started = m.started + 1)
      (h_new : m'.tasks.find? (m.highestTask + 1) = some u) : Calls i m m' u.name
  | refused : Calls i m (m.fault .scriptIdNotFound "" i.operand) (toString i.operand.toNat)

/-- What comes of a call of a native, and how it is to be shown: by the name of the native. -/
inductive Enters (setting : Setting) (carryOut : Routine Unit → Machine → Option Machine)
    (i : Instruction) (m : Machine) : Option (Flow × Machine) → String → Prop
  | bound {native : Native} {body : Routine Unit}
      (h_native : setting.natives[i.operand.toNat]? = some native)
      (h_body : native.body = some body) :
      Enters setting carryOut i m
        ((carryOut body (m.emit (.nativeEntered i.operand))).map fun m =>
          (.next, m.emit (.nativeLeft i.operand))) native.name
  | unbound {native : Native} (h_native : setting.natives[i.operand.toNat]? = some native)
      (h_body : native.body = none) :
      Enters setting carryOut i m (some (.next, m.callUnbound i.operand native)) native.name
  | missing (h_native : setting.natives[i.operand.toNat]? = none) :
      Enters setting carryOut i m (some (.next, m.fault .nativeNotFound "" i.operand))
        (toString i.operand.toNat)

/-- What is listed before the variable. -/
def addressHead (i : Instruction) : String :=
  match i.opcode with
  | .cast => "ZERO"
  | opcode => opcode.name ++ i.tag.suffix

def callHead (i : Instruction) : String := if i.mode = Mode.async then "CALL async" else "CALL"

variable {i : Instruction} {m : Machine} {task : UInt32} {t : Task}

theorem execute_of_ne (setting : Setting) (carryOut : Routine Unit → Machine → Option Machine)
    (h : i.opcode ≠ .callNative) :
    execute setting carryOut task i m = some (Machine.obey setting task i m) := by
  unfold execute
  exact if_pos h

/-- **An instruction that addresses a variable** accesses the place that its operand stands for. -/
theorem Addresses.accesses (h : i.Addresses) (h_find : m.tasks.find? task = some t)
    (setting : Setting) (carryOut : Routine Unit → Machine → Option Machine) :
    ∃ m', execute setting carryOut task i m = some (.next, m') ∧
      i.Accesses m task (.ofId i.operand t.offset) (m.slot? task (.ofId i.operand t.offset))
        m' := by
  have h_variable := Machine.findVariable?_eq h_find i.operand
  rcases h with ⟨h_push | h_pop, h_mode⟩ | ⟨h_cast, h_mode⟩
  · -- a push reads the place, and pushes a blank value where there is none
    have h_obey : Machine.obey setting task i m = (.next, m.pushOperand task i) := by
      unfold Machine.obey
      rw [h_push]
    refine ⟨_, (execute_of_ne setting carryOut (by rw [h_push]; decide)).trans
      (congrArg some h_obey), ?_⟩
    unfold Machine.pushOperand Machine.readVariable
    rw [if_neg (by rw [h_mode]; decide), if_pos h_mode, h_variable]
    cases m.slot? task (.ofId i.operand t.offset) with
    | some x => exact .push h_push
    | none => exact .pushNothing h_push
  · refine ⟨_, (execute_of_ne setting carryOut (by rw [h_pop]; decide)).trans
      (congrArg some (Machine.obey_pop m task setting h_pop)), ?_⟩
    -- the value is taken first, and the variable is looked up then
    obtain ⟨s, h_popped⟩ := (Machine.exchange_pop m).exists_stack h_find
    have h_same := (Machine.exchange_pop m).slot?_eq h_find (.ofId i.operand t.offset)
    rw [Machine.popOperand_of_reference m task h_mode]
    cases h_slot : m.slot? task (.ofId i.operand t.offset) with
    | some x =>
      rw [h_slot] at h_same
      exact .pop h_pop (Machine.stores_writeVariable h_popped h_same _)
    | none =>
      rw [h_slot] at h_same
      have h_nowhere := (Machine.findVariable?_eq h_popped i.operand).trans h_same
      unfold Machine.writeVariable
      rw [h_nowhere]
      exact .popNowhere h_pop
  · refine ⟨_, (execute_of_ne setting carryOut (by rw [h_cast]; decide)).trans
      (congrArg some (Machine.obey_cast m task setting h_cast)), ?_⟩
    -- To clear a variable is to store a blank value, whatever is on the stack.
    rw [Machine.cast_of_zero m task h_mode]
    cases h_slot : m.slot? task (.ofId i.operand t.offset) with
    | some x => exact .clear h_cast (Machine.stores_writeVariable h_find h_slot .blank)
    | none =>
      unfold Machine.writeVariable
      rw [h_variable, h_slot]
      exact .clearNowhere h_cast

/-- **A call** starts a task with the name of the script, if there is one. -/
theorem calls (h : i.opcode = .callScript) (task : UInt32) (setting : Setting)
    (carryOut : Routine Unit → Machine → Option Machine) :
    ∃ flow m', execute setting carryOut task i m = some (flow, m') ∧
      i.Calls m m' (((m.program.script? i.operand).map (·.name)).getD
        (toString i.operand.toNat)) := by
  refine ⟨(m.callScript task i).1, (m.callScript task i).2,
    (execute_of_ne setting carryOut (by rw [h]; decide)).trans
      (congrArg some (Machine.obey_callScript setting h)), ?_⟩
  unfold Machine.callScript Machine.start
  cases h_script : m.program.script? i.operand with
  | none =>
    -- there is no such script: the call is listed with its number, and so it tells the host
    dsimp only
    rw [if_pos (.inl rfl)]
    exact .refused
  | some script =>
    -- the new task has the name of its script
    have h_began := Machine.began_spawn m script
    obtain ⟨s, h_new⟩ := h_began.new
    dsimp only
    split
    · exact .starts h_began.started h_new
    · -- the caller may be displaced by the new task, and then it is that which is made to wait
      have h_name : ∃ u, ((m.spawn script).2.updateTask task fun t =>
          { t with waitingFor := (m.spawn script).1 }).tasks.find? (m.highestTask + 1) = some u ∧
            u.name = script.name := by
        unfold Machine.updateTask
        rw [TaskTable.find?_update, h_new]
        refine ⟨_, rfl, ?_⟩
        split <;> rfl
      obtain ⟨u, h_u, h_name⟩ := h_name
      rw [Option.map_some, Option.getD_some, ← h_name]
      exact .starts h_began.started h_u

/-- **A call of a native** looks it up by the operand. -/
theorem enters (h : i.opcode = .callNative) (m : Machine) (task : UInt32) (setting : Setting)
    (carryOut : Routine Unit → Machine → Option Machine) :
    i.Enters setting carryOut m (execute setting carryOut task i m)
      ((setting.natives[i.operand.toNat]?.map (·.name)).getD (toString i.operand.toNat)) := by
  unfold execute
  rw [if_neg (not_not_intro h)]
  dsimp only
  cases h_native : setting.natives[i.operand.toNat]? with
  | none => exact .missing h_native
  | some native =>
    dsimp only
    cases h_body : native.body with
    | none => exact .unbound h_native h_body
    | some body =>
      -- entering and leaving are told around the body
      have h_enters : Enters setting carryOut i m _ _ := .bound h_native h_body
      rw [Option.map_eq_bind] at h_enters
      exact h_enters

/-! ### What is listed -/

theorem render_of_addresses (h : i.Addresses) (symbols : Symbols) (s : Script) :
    i.render symbols s = i.addressHead ++ " " ++ symbols.variableName s i.operand := by
  unfold render addressHead
  rcases h with ⟨h_push | h_pop, h_mode⟩ | ⟨h_cast, h_mode⟩
  · simp only [h_push, h_mode, if_true]
    unfold typedName
    rw [h_push]
  · simp only [h_pop, h_mode, if_true]
    unfold typedName
    rw [h_pop]
  · simp only [h_cast, h_mode, if_true]
    rfl

theorem render_of_call (h : i.opcode = .callScript) (symbols : Symbols) (s : Script) :
    i.render symbols s = i.callHead ++ " " ++
      ((symbols.program.script? i.operand).map (·.name)).getD (toString i.operand.toNat) := by
  unfold render callHead
  rw [h]
  dsimp only
  split <;> rfl

end Instruction

namespace Chronicle

variable {i : Image} {origin : UInt32 → Option Script} {m : Machine} {task : UInt32} {t : Task}
  {s : Script}

/-- **Variables** are shown as what they are. -/
theorem shows_variable (h : Chronicle i origin m) (h_find : m.tasks.find? task = some t)
    (h_from : t.ComesFrom s) (setting : Setting) (id : UInt32) :
    Instruction.Shows id (.ofId id t.offset) (m.slot? task (.ofId id t.offset))
      ((m.symbols setting).variableName s id) := by
  obtain ⟨h_program, h_globals, -⟩ := h.spec
  obtain ⟨-, -, -, -, h_offset⟩ := h_from.facts
  unfold Symbols.variableName
  -- The task has the offset of its script, so both take the id for the same place.
  rw [h_offset]
  cases Place.ofId id s.offset with
  | localSlot index =>
    -- locals have the names that they have in the script
    have h_name : s.localNames[index]? = t.locals[index]?.map (·.name) := by
      rw [← h_from.localNames, List.getElem?_map]
    have h_slot : m.slot? task (.localSlot index) = t.locals[index]? := by
      unfold Machine.slot?
      rw [h_find]
      rfl
    dsimp only
    rw [h_name, h_slot]
    cases t.locals[index]? with
    | some x => exact .ofLocal index x
    | none => exact .noLocal index
  | globalSlot index =>
    -- the names of all slots are those of the program, one further
    have h_name : m.globals[index]?.map (·.name) =
        (nullVariableName :: m.program.globals)[index]? := by
      rw [h_program, ← h_globals, List.getElem?_map]
    change Instruction.Shows id (.globalSlot index) m.globals[index]? _
    cases index with
    | zero =>
      -- the null variable is always there
      obtain ⟨x, h_x, -⟩ := Option.map_eq_some_iff.1 h_name
      rw [h_x]
      exact .null x
    | succ index =>
      have h_named : (m.symbols setting).program.globals[index]? =
          m.globals[index + 1]?.map (·.name) := h_name.symm
      dsimp only
      rw [h_named]
      cases m.globals[index + 1]? with
      | some x => exact .ofGlobal index x
      | none => exact .noGlobal (index + 1)

end Chronicle

/-! ### What is listed is what is done -/

/-- In the turn of the task, instructions do what a listing says of them in a script. -/
structure Machine.DoesAsListed (m : Machine) (setting : Setting) (task : UInt32) (t : Task)
    (s : Script) : Prop where
  addressed {j : Instruction} (h : j.Addresses)
      (carryOut : Routine Unit → Machine → Option Machine) : ∃ m' name,
    execute setting carryOut task j m = some (.next, m') ∧
    j.Accesses m task (.ofId j.operand t.offset) (m.slot? task (.ofId j.operand t.offset)) m' ∧
    Instruction.Shows j.operand (.ofId j.operand t.offset)
      (m.slot? task (.ofId j.operand t.offset)) name ∧
    j.render (m.symbols setting) s = j.addressHead ++ " " ++ name
  called {j : Instruction} (h : j.opcode = .callScript)
      (carryOut : Routine Unit → Machine → Option Machine) : ∃ flow m' name,
    execute setting carryOut task j m = some (flow, m') ∧ j.Calls m m' name ∧
    j.render (m.symbols setting) s = j.callHead ++ " " ++ name
  entered {j : Instruction} (h : j.opcode = .callNative)
      (carryOut : Routine Unit → Machine → Option Machine) : ∃ name,
    j.Enters setting carryOut m (execute setting carryOut task j m) name ∧
    j.render (m.symbols setting) s = "SYS " ++ name

namespace Image

/-- **Listings name what machines do.** Whatever ordinary requests a machine has carried out since a
program was loaded, it is in a chronicle of the program, and so it is wherever it stands on the way,
in the turn of a task or between operations. Also where natives run ticks, and where natives are
called in these, nothing leads out of chronicles. At every point of a chronicle, every live task
comes from the script that was written down for it, and what a listing says of an instruction in
this script, whatever its operand, is what comes of it in the turn of the task. -/
theorem names_agree (i : Image) (setting : Setting) :
    (setting.Ordinary → ∀ {α : Type} {r : Routine α} {m₀ m : Machine} {a : α},
      r.Only Request.Ordinary → Machine.perform setting r (m₀.load i) = some (a, m) →
        i.Chronicled m) ∧
    (∀ {m₀ : Machine} {c : Config}, Config.Reaches setting ⟨m₀.beginning i, .idle⟩ c →
      i.Chronicled c.machine) ∧
    (setting.Ordinary → i.Follows setting) ∧
    ∀ {origin : UInt32 → Option Script} {m : Machine}, Chronicle i origin m →
      ∀ {task : UInt32} {t : Task}, m.tasks.find? task = some t →
        ∃ s ∈ i.program.scripts, origin task = some s ∧ m.DoesAsListed setting task t s := by
  refine ⟨fun h_setting => fun h_ordinary h => .perform h_setting h_ordinary h,
    fun h => Chronicled.reaches (.beginning i _) h, fun h_setting => i.follows h_setting,
    fun {origin m} h {task t} h_find => ?_⟩
  obtain ⟨h_program, -, h_tasks⟩ := h.spec
  -- The task comes from a script that was written down, whatever the table says of its number by
  -- now.
  obtain ⟨s, h_s, h_origin, h_from⟩ := h_tasks task t h_find
  refine ⟨s, h_s, h_origin, fun {j} h_j carryOut => ?_, fun {j} h_j carryOut => ?_,
    fun {j} h_j carryOut => ?_⟩
  · obtain ⟨m', h_execute, h_accesses⟩ := h_j.accesses h_find setting carryOut
    exact ⟨m', _, h_execute, h_accesses, h.shows_variable h_find h_from setting j.operand,
      j.render_of_addresses h_j (m.symbols setting) s⟩
  · obtain ⟨flow, m', h_execute, h_calls⟩ := j.calls h_j task setting carryOut
    exact ⟨flow, m', _, h_execute, h_calls, j.render_of_call h_j (m.symbols setting) s⟩
  · refine ⟨_, j.enters h_j m task setting carryOut, ?_⟩
    unfold Instruction.render
    rw [h_j, ← List.getElem?_map]
    rfl

end Image

/-! ### Names and numbers -/

def namedScript : Script := ⟨"Walk", "walk.chl", .script, 1, ["x"], 0, 0, 1⟩

/-- A program with a global and a script with a local, which is started by itself. -/
def namedImage : Image :=
  { program := {
      code := [⟨.finish, 0, .untyped, 0, 0⟩]
      globals := ["score"]
      autostart := [1]
      scripts := [namedScript, ⟨"Run", "run.chl", .script, 0, [], 0, 0, 2⟩] } }

def namedSetting : Setting :=
  { natives := [⟨"SPAWN", 0, 0, none⟩], tickLength := Setting.defaultTickLength }

def namedMachine : Machine := Machine.load {} namedImage

/-- The null variable, a global, a local and no variable at all; a script and no script; a native
and no native. -/
def namedInstructions : List Instruction :=
  [⟨.push, Mode.reference, .int, 0, 0⟩, ⟨.pop, Mode.reference, .float, 1, 0⟩,
    ⟨.cast, Mode.zero, .untyped, 2, 0⟩, ⟨.push, Mode.reference, .object, 3, 0⟩,
    ⟨.callScript, 0, .untyped, 2, 0⟩, ⟨.callScript, Mode.async, .untyped, 0, 0⟩,
    ⟨.callNative, 0, .untyped, 0, 0⟩, ⟨.callNative, 0, .untyped, 1, 0⟩]

/-- The task comes from the script with the local. The push of a variable that is not there is
listed with its number, and so it tells the host. -/
theorem names_agree_named :
    namedImage.Chronicled namedMachine ∧
    namedMachine.tasks.find? 1 = some (Task.start 1 namedScript) ∧
    namedMachine.DoesAsListed namedSetting 1 (Task.start 1 namedScript) namedScript ∧
    namedInstructions.map (·.render (namedMachine.symbols namedSetting) namedScript) =
      ["PUSHI null", "POPF global score", "ZERO local x", "PUSHO local #3", "CALL Run",
        "CALL async 0", "SYS SPAWN", "SYS 1"] ∧
    ∃ m', Machine.execute namedSetting Machine.noBody 1
        ⟨.push, Mode.reference, .object, 3, 0⟩ namedMachine = some (.next, m') ∧
      Event.fault ⟨.invalidOperand, "", 3⟩ ∈ m'.log.toList := by
  obtain ⟨h_routines, -, -, h_listed⟩ := namedImage.names_agree namedSetting
  have h_ordinary : namedSetting.Ordinary := by
    intro native h_native body h_body
    obtain rfl := List.mem_singleton.1 h_native
    contradiction
  have h_loaded : Machine.perform namedSetting (.done ()) (Machine.load {} namedImage) =
      some ((), namedMachine) := rfl
  -- loading starts the first script, and nothing has happened since
  have h_chronicle : Chronicle namedImage (Function.update (fun _ => none) 1 (some namedScript))
      namedMachine := .spawn (.beginning {}) namedScript List.mem_cons_self
  have h_find : namedMachine.tasks.find? 1 = some (Task.start 1 namedScript) := by decide +kernel
  obtain ⟨s, -, h_origin, h_does⟩ := h_listed h_chronicle h_find
  rw [Function.update_self] at h_origin
  obtain rfl := Option.some.inj h_origin
  refine ⟨h_routines h_ordinary (by exact trivial) h_loaded, h_find, h_does, by decide +kernel, ?_⟩
  -- nothing is there, so all that can have happened is that the host was told
  have h_addresses : Instruction.Addresses ⟨.push, Mode.reference, .object, 3, 0⟩ :=
    .inl ⟨.inl rfl, rfl⟩
  obtain ⟨m', name, h_execute, h_accesses, -, -⟩ := h_does.addressed h_addresses Machine.noBody
  refine ⟨m', h_execute, ?_⟩
  rw [show namedMachine.slot? 1 _ = none by decide +kernel] at h_accesses
  cases h_accesses with
  | pushNothing => decide +kernel
  | popNowhere h_pop => contradiction
  | clearNowhere h_cast => contradiction

end ScriptMachine
