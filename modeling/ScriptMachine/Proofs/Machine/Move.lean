import Mathlib.Logic.Relation
import ScriptMachine.Machine.Run
import ScriptMachine.Proofs.Task.Table

/-!
# Moves of a machine

What happens to a machine while a host uses it, said once for all facts about runs. An operation is
ordinary unless it puts a new program or state in (`Request.Ordinary`). Whatever an ordinary
operation does is a succession of `Move`s, the least changes that leave a machine in order, and of
turns, in which the stack of a task is in focus. Such a succession is a run (`Runs`); that every
ordinary operation is one is proven in `Runs`.

So a fact about all states that a machine can reach takes a look at the nine kinds of moves, by
`Runs.lift`, and none at the instructions. The start of a task is one move, though it takes
parameters from a stack on its way: in between, an id is given away that no task has. What can
happen there is an `Exchange`, and `spawn_spec` says what comes of it.

The instructions of a task do less than that: all but calls and the end of a script are made of
`Act`s, which touch nothing of the tasks but the one whose turn it is. Few of them store a value in
a variable; the others make do with `Gesture`s.
-/

namespace ScriptMachine

/-! ### Ordinary operations -/

/-- A request that leaves the program in its place. -/
def Request.Ordinary : Request → Prop
  | .load _ | .restore _ | .reboot => False
  | _ => True

/-- No native that could be called asks for more than ordinary requests. -/
def Setting.Ordinary (setting : Setting) : Prop :=
  ∀ native ∈ setting.natives, ∀ body ∈ native.body, body.Only Request.Ordinary

/-! ### Exchanges -/

/-- An event that tells of no task and of no variable. -/
def Event.Plain : Event → Prop
  | .nativeEntered _ | .nativeLeft _ | .fault _ | .note _ => True
  | .taskStopped _ | .objectHeld _ | .objectReleased _ => False

/-- One operation on a stack. -/
inductive Stack.Step (s : Stack) : Stack → Prop
  | push {t : Stack} {v : Value} (h : s.push? v = some t) : Step s t
  | pop {t : Stack} {v : Value} (h : s.pop? = some (v, t)) : Step s t
  | poke {t : Stack} {depth : Nat} {v : Value} (h : s.poke? depth v = some t) : Step s t
  | swap {t : Stack} (h : s.swap? = some t) : Step s t

/-- Operations on a stack, one after the other. -/
def Stack.Steps : Stack → Stack → Prop := Relation.ReflTransGen Stack.Step

namespace Machine

/-- Something is told to the host, or something is done to the stack in focus. -/
inductive Exchange (m : Machine) : Machine → Prop
  | tell (e : Event) (h : e.Plain) : Exchange m (m.emit e)
  | restack {s t : Stack} (h_focus : m.currentStack? = some s) (h_step : s.Step t) :
      Exchange m (m.setStack t)

/-- Exchanges, one after the other. -/
def Exchanges : Machine → Machine → Prop := Relation.ReflTransGen Exchange

variable {m m' : Machine}

theorem Exchange.fault (m : Machine) (code : FaultCode) (text : String) (number : UInt32) :
    Exchange m (m.fault code text number) := .tell _ trivial

theorem exchange_push (m : Machine) (v : Value) : Exchange m (m.push v) := by
  unfold push
  cases h_focus : m.currentStack? with
  | none => exact .fault ..
  | some s =>
    -- there is room, or the host is told that there is none
    cases h_push : s.push? v with
    | none => simpa only [h_push] using .fault ..
    | some t => simpa only [h_push] using .restack h_focus (.push h_push)

theorem exchange_pop (m : Machine) : Exchange m m.pop.2 := by
  unfold pop
  cases h_focus : m.currentStack? with
  | none => exact .fault ..
  | some s =>
    cases h_pop : s.pop? with
    | none => simpa only [h_pop] using .fault ..
    | some r => simpa only [h_pop] using .restack h_focus (.pop h_pop)

theorem exchanges_pushAll (m : Machine) (values : List Value) : Exchanges m (m.pushAll values) := by
  induction values generalizing m with
  | nil => exact .refl
  | cons v rest ih => exact .head (exchange_push m v) (ih (m.push v))

theorem exchanges_popMany (count : Nat) (m : Machine) : Exchanges m (popMany count m).2 := by
  induction count generalizing m with
  | zero => exact .refl
  | succ count ih => exact .head (exchange_pop m) (ih m.pop.2)

/-- Of the task that is about to start only the stack is changed. -/
theorem passParameters_spec (m : Machine) (t : Task) (values : List Value) :
    Exchanges m (m.passParameters t values).2 ∧
      ∃ s, t.stack.Steps s ∧ (m.passParameters t values).1 = { t with stack := s } := by
  induction values generalizing m t with
  | nil => exact ⟨.refl, t.stack, .refl, rfl⟩
  | cons v rest ih =>
    unfold passParameters
    cases h_push : t.stack.push? v with
    | none =>
      -- the value is lost, and the host is told
      obtain ⟨h_exchanges, h_task⟩ := ih (m.fault .stackFull t.name t.id) t
      exact ⟨.head (.fault ..) h_exchanges, h_task⟩
    | some s =>
      -- the value is on the stack of the new task by now, with which the others are passed
      obtain ⟨h_exchanges, s', h_steps, h_task⟩ := ih m { t with stack := s }
      exact ⟨h_exchanges, s', .head (.push h_push) h_steps, h_task⟩

/-! ### Variables and tasks -/

theorem foldl_emit (es : List Event) (m : Machine) :
    es.foldl emit m = { m with log := m.log ++ es.toArray } := by
  induction es generalizing m with
  | nil => simp
  | cons e es ih =>
    rw [List.foldl_cons, ih]
    simp [emit]

theorem names_modify (slots : List Variable) (index : Nat) (v : Value) :
    (slots.modify index fun x => { x with value := v }).map (·.name) = slots.map (·.name) := by
  induction slots generalizing index with
  | nil => rw [List.modify_nil]
  | cons x xs ih =>
    cases index with
    | zero => rfl
    | succ index => rw [List.modify_succ_cons, List.map_cons, List.map_cons, ih]

/-- **What it takes to set a variable.** Slots keep their names, and tasks all but their locals. -/
theorem setVariable_spec (m : Machine) (task id : UInt32) (v : Value) :
    ∃ globals change, m.setVariable task id v = { m with globals, tasks := m.tasks.map change } ∧
      globals.map (·.name) = m.globals.map (·.name) ∧
      ∀ t, ∃ locals, change t = { t with locals } ∧
        locals.map (·.name) = t.locals.map (·.name) := by
  have h_same : ∀ t : Task, ∃ locals, t = { t with locals } ∧
      locals.map (·.name) = t.locals.map (·.name) := fun t => ⟨t.locals, rfl, rfl⟩
  unfold setVariable
  cases m.tasks.find? task with
  | none => exact ⟨m.globals, fun t => t, by rw [TaskTable.map_self], rfl, h_same⟩
  | some t =>
    dsimp only
    cases Place.ofId id t.offset with
    | globalSlot index =>
      -- the tasks stay as they are
      exact ⟨_, fun t => t, by rw [TaskTable.map_self], names_modify m.globals index v, h_same⟩
    | localSlot index =>
      -- the change is to all tasks, but leaves those with another id alone
      refine ⟨m.globals, _, rfl, rfl, fun u => ?_⟩
      dsimp only
      split
      · exact ⟨_, rfl, names_modify u.locals index v⟩
      · exact h_same u

/-- **What it takes to start a task.** An id is given away, parameters are moved with all that can
go wrong, and then the task is put into the table, with the values that it was given. -/
theorem spawn_spec (m : Machine) (script : Script) :
    ∃ m₁ s, Exchanges m.takeId m₁ ∧ Stack.empty.Steps s ∧
      m.spawn script =
        (m.highestTask + 1,
          m₁.enrol { Task.start (m.highestTask + 1) script with stack := s }) := by
  -- What is passed are the values that were taken off the stack in focus, the first of them at the
  -- bottom.
  have h_pop := exchanges_popMany script.parameterCount.toNat m.takeId
  obtain ⟨h_pass, s, h_steps, h_task⟩ := passParameters_spec
    (popMany script.parameterCount.toNat m.takeId).2 (Task.start (m.highestTask + 1) script)
    (popMany script.parameterCount.toNat m.takeId).1.reverse
  refine ⟨_, s, h_pop.trans h_pass, h_steps, ?_⟩
  rw [← h_task]
  rfl

end Machine

/-! ### Moves -/

/-- A task without what its instructions and the scheduler go by. -/
def Task.withoutControl (t : Task) : Task :=
  { t with
    address := 0, savedAddress := 0, handlers := [], handlerIndex := 0, ticks := 0,
    inHandler := false, yielded := false, sleeping := false }

namespace Machine

/-- The least changes that leave a machine in order. -/
inductive Move (m : Machine) : Machine → Prop
  | exchange {m' : Machine} (h : Exchange m m') : Move m m'
  /-- A value is stored, or there is no such variable. -/
  | store (task id : UInt32) (v : Value) : Move m (m.writeVariable task id v)
  /-- A task is started. -/
  | spawn (script : Script) (h_script : script ∈ m.program.scripts) : Move m (m.spawn script).2
  /-- A live task starts another one and waits for it. -/
  | call (task : UInt32) (script : Script) (h_live : m.tasks.contains task)
      (h_script : script ∈ m.program.scripts) :
      Move m ((m.spawn script).2.updateTask task fun t =>
        { t with waitingFor := (m.spawn script).1 })
  /-- A task is stopped for good. -/
  | remove (id : UInt32) : Move m (m.remove id)
  /-- A task goes on elsewhere, or its handlers change. -/
  | steer (task : UInt32) (change : Task → Task)
      (h_change : ∀ t, (change t).withoutControl = t.withoutControl) :
      Move m (m.updateTask task change)
  /-- A task is marked to be removed at the end of the tick. -/
  | halt (task : UInt32) : Move m (m.updateTask task fun t => { t with stopped := true })
  /-- Time goes by for the tasks, and those that waited in vain go on. -/
  | release (mask : ScriptKind) : Move m (m.release mask)
  /-- A counter changes, or what the host keeps for itself. -/
  | mark (ticks line executed : UInt32) (memory : HostMemory) :
      Move m { m with ticks, line, executed, memory }

/-- What the instructions of a task are made of, but for calls and the end of its script. -/
inductive Act (task : UInt32) (m : Machine) : Machine → Prop
  | exchange {m' : Machine} (h : Exchange m m') : Act task m m'
  | store (id : UInt32) (v : Value) : Act task m (m.writeVariable task id v)
  | steer (change : Task → Task) (h_change : ∀ t, (change t).withoutControl = t.withoutControl) :
      Act task m (m.updateTask task change)
  | mark (line executed : UInt32) (memory : HostMemory) :
      Act task m { m with line, executed, memory }

/-- Acts of a task, one after the other. -/
def Acts (task : UInt32) : Machine → Machine → Prop := Relation.ReflTransGen (Act task)

/-- An act that leaves all variables alone. -/
inductive Gesture (task : UInt32) (m : Machine) : Machine → Prop
  | exchange {m' : Machine} (h : Exchange m m') : Gesture task m m'
  | steer (change : Task → Task) (h_change : ∀ t, (change t).withoutControl = t.withoutControl) :
      Gesture task m (m.updateTask task change)
  | mark (line executed : UInt32) (memory : HostMemory) :
      Gesture task m { m with line, executed, memory }

/-- Gestures of a task, one after the other. -/
def Gestures (task : UInt32) : Machine → Machine → Prop := Relation.ReflTransGen (Gesture task)

/-- Moves and turns, one after the other. A turn runs with the stack of its task in focus, and when
it is over the focus is where it was. -/
inductive Runs : Machine → Machine → Prop
  | refl (m : Machine) : Runs m m
  | move {m m' m'' : Machine} (h : Runs m m') (h_move : Move m' m'') : Runs m m''
  | turn {m m' m'' : Machine} (task : UInt32) (h : Runs m m')
      (h_turn : Runs { m' with focus := .task task, running := some task } m'') :
      Runs m { m'' with focus := m'.focus, running := m'.running }

variable {m m' : Machine}

theorem Move.runs (h : Move m m') : Runs m m' := (Runs.refl m).move h

theorem Runs.trans {m'' : Machine} (h : Runs m m') (h' : Runs m' m'') : Runs m m'' := by
  induction h' with
  | refl => exact h
  | move _ h_move ih => exact (ih h).move h_move
  -- a turn is put behind what comes before it as a whole
  | turn task _ h_turn ih => exact (ih h).turn task h_turn

theorem Exchanges.runs (h : Exchanges m m') : Runs m m' := by
  induction h with
  | refl => exact .refl m
  | tail _ h_exchange ih => exact ih.move (.exchange h_exchange)

theorem Exchange.runs (h : Exchange m m') : Runs m m' := (Move.exchange h).runs

theorem Act.move {task : UInt32} (h : Act task m m') : Move m m' := by
  cases h with
  | exchange h => exact .exchange h
  | store id v => exact .store task id v
  | steer change h_change => exact .steer task change h_change
  | mark line executed memory => exact .mark m.ticks line executed memory

theorem Act.acts {task : UInt32} (h : Act task m m') : Acts task m m' := .single h

theorem Gesture.gestures {task : UInt32} (h : Gesture task m m') : Gestures task m m' := .single h

theorem Exchanges.gestures {task : UInt32} (h : Exchanges m m') : Gestures task m m' := by
  induction h with
  | refl => exact .refl
  | tail _ h_exchange ih => exact ih.tail (.exchange h_exchange)

theorem Gestures.acts {task : UInt32} (h : Gestures task m m') : Acts task m m' := by
  induction h with
  | refl => exact .refl
  | tail _ h_gesture ih =>
    refine ih.tail ?_
    cases h_gesture with
    | exchange h => exact .exchange h
    | steer change h_change => exact .steer change h_change
    | mark line executed memory => exact .mark line executed memory

theorem Acts.runs {task : UInt32} (h : Acts task m m') : Runs m m' := by
  induction h with
  | refl => exact .refl m
  | tail _ h_act ih => exact ih.move h_act.move

/-- **How facts about runs are proven.** A relation that puts up with moves, and does not care about
the focus, holds from the beginning of a run to its end. -/
theorem Runs.lift {R : Machine → Machine → Prop} (h_refl : ∀ m, R m m)
    (h_trans : ∀ {m m' m''}, R m m' → R m' m'' → R m m'')
    (h_move : ∀ {m m'}, Move m m' → R m m')
    (h_focus : ∀ (m : Machine) focus running, R m { m with focus, running })
    (h : Runs m m') : R m m' := by
  induction h with
  | refl m => exact h_refl m
  | move _ h ih => exact h_trans ih (h_move h)
  | turn task _ _ ih ih_turn =>
    -- the focus goes to the task and comes back
    exact h_trans (h_trans ih (h_focus _ _ _)) (h_trans ih_turn (h_focus _ _ _))

theorem Runs.foldl {α : Type} {f : Machine → α → Machine} (h : ∀ m a, Runs m (f m a))
    (xs : List α) (m : Machine) : Runs m (xs.foldl f m) := by
  induction xs generalizing m with
  | nil => exact .refl m
  | cons x xs ih => exact (h m x).trans (ih (f m x))

/-! ### The program and the globals -/

/-- The program and the globals stay as they are. -/
def Keeps (m m' : Machine) : Prop := m'.program = m.program ∧ m'.globals = m.globals

theorem Keeps.refl (m : Machine) : Keeps m m := ⟨rfl, rfl⟩

theorem Keeps.trans {m'' : Machine} (h : Keeps m m') (h' : Keeps m' m'') : Keeps m m'' :=
  ⟨h'.1.trans h.1, h'.2.trans h.2⟩

theorem Exchange.keeps (h : Exchange m m') : Keeps m m' := by
  cases h with
  | tell => exact ⟨rfl, rfl⟩
  | restack =>
    unfold setStack
    split <;> exact ⟨rfl, rfl⟩

theorem Exchanges.keeps (h : Exchanges m m') : Keeps m m' := by
  induction h with
  | refl => exact .refl m
  | tail _ h_exchange ih => exact ih.trans h_exchange.keeps

theorem keeps_spawn (m : Machine) (script : Script) : Keeps m (m.spawn script).2 := by
  obtain ⟨m₁, s, h_exchanges, -, h_spawn⟩ := spawn_spec m script
  rw [h_spawn]
  exact h_exchanges.keeps

theorem keeps_remove (m : Machine) (id : UInt32) : Keeps m (m.remove id) := by
  unfold Machine.remove
  split
  · exact .refl m
  · dsimp only
    rw [foldl_emit]
    exact ⟨rfl, rfl⟩

/-! ### The focus -/

theorem Exchange.focus_eq (h : Exchange m m') : m'.focus = m.focus ∧ m'.running = m.running := by
  cases h with
  | tell => exact ⟨rfl, rfl⟩
  | restack =>
    unfold setStack
    split <;> exact ⟨rfl, rfl⟩

theorem Exchanges.focus_eq (h : Exchanges m m') :
    m'.focus = m.focus ∧ m'.running = m.running := by
  induction h with
  | refl => exact ⟨rfl, rfl⟩
  | tail _ h_exchange ih =>
    exact ⟨h_exchange.focus_eq.1.trans ih.1, h_exchange.focus_eq.2.trans ih.2⟩

theorem focus_spawn (m : Machine) (script : Script) :
    (m.spawn script).2.focus = m.focus ∧ (m.spawn script).2.running = m.running := by
  obtain ⟨m₁, s, h_exchanges, -, h_spawn⟩ := spawn_spec m script
  rw [h_spawn]
  exact h_exchanges.focus_eq

theorem Move.focus_eq (h : Move m m') : m'.focus = m.focus ∧ m'.running = m.running := by
  cases h with
  | exchange h => exact h.focus_eq
  | store task id v =>
    obtain ⟨globals, change, h_set, -⟩ := setVariable_spec m task id v
    unfold writeVariable
    split
    · exact ⟨rfl, rfl⟩
    · rw [foldl_emit, h_set]
      exact ⟨rfl, rfl⟩
  | spawn script _ => exact focus_spawn m script
  -- that the caller waits is a change to a task
  | call task script _ _ => exact focus_spawn m script
  | remove id =>
    unfold Machine.remove
    split
    · exact ⟨rfl, rfl⟩
    · dsimp only
      rw [foldl_emit]
      exact ⟨rfl, rfl⟩
  | steer | halt | release | mark => exact ⟨rfl, rfl⟩

/-- **A run leaves the focus where it was.** -/
theorem Runs.focus_eq (h : Runs m m') : m'.focus = m.focus ∧ m'.running = m.running := by
  induction h with
  | refl => exact ⟨rfl, rfl⟩
  | move _ h_move ih => exact ⟨h_move.focus_eq.1.trans ih.1, h_move.focus_eq.2.trans ih.2⟩
  | turn _ _ _ ih _ =>
    -- whatever the turn itself does to the focus is undone
    exact ih

end Machine

end ScriptMachine
