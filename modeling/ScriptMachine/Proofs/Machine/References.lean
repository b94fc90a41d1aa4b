import Mathlib.Data.List.Count
import ScriptMachine.Proofs.Machine.Runs
import ScriptMachine.Proofs.Task.Table

/-!
# References to objects

The host counts how many variables hold an object: it is told of each one that begins to hold it
and of each one that ceases to. `Machine.references_conserved` says that it can rely on the count.
Over any ordinary operation the events balance the change in the number of variables that hold the
object, and in a run from the loading of a program the host never hears of an end before the
beginning.

The proof keeps the books move by move. `Balanced before events after` is about the events of a
stretch of a run and the objects that are held before and after it. Its second clause, that every
release is covered by what is held, is what makes the prefixes of a log come out right, and it can
be put together from stretch to stretch. Only three kinds of moves touch the books at all: storing
a value, starting a task, whose locals are blank, and removing one.

A task is started under an id that was never given away before, so it displaces none, as long as
ids do not wrap around. That is the one assumption, and a single step beyond it the books are wrong
(`references_lost_on_wrap`).
-/

namespace ScriptMachine

/-! ### The books -/

/-- The objects held by variables, once for each variable that holds one. -/
def heldBy (slots : List Variable) : List UInt32 := slots.filterMap (·.value.object?)

/-- The objects held by the globals and by the locals of the live tasks. -/
def State.heldObjects (s : State) : List UInt32 :=
  heldBy s.globals ++ s.tasks.toList.flatMap (heldBy ·.locals)

/-- The events between two states balance what is held before and after, and none of them tells of a
release that is not covered by what was held at that moment. -/
structure Balanced (before : List UInt32) (events : List Event) (after : List UInt32) : Prop where
  balance (o : UInt32) :
    events.count (.objectHeld o) + before.count o =
      events.count (.objectReleased o) + after.count o
  covered (o : UInt32) {past : List Event} (h : past <+: events) :
    past.count (.objectReleased o) ≤ past.count (.objectHeld o) + before.count o

namespace Balanced

variable {before middle after : List UInt32} {es es' : List Event}

theorem nil : Balanced before [] before where
  balance _ := rfl
  covered o past h := by
    rw [List.prefix_nil.1 h]
    exact Nat.zero_le _

/-- What is held in the middle covers the releases after it. -/
theorem append (h : Balanced before es middle) (h' : Balanced middle es' after) :
    Balanced before (es ++ es') after where
  balance o := by
    have h_first := h.balance o
    have h_second := h'.balance o
    simp only [List.count_append]
    omega
  covered o past h_past := by
    obtain ⟨rest, h_rest⟩ := h_past
    -- the prefix ends in the first stretch or in the second
    rcases List.append_eq_append_iff.1 h_rest with ⟨es₁, rfl, -⟩ | ⟨es₁, rfl, h_es'⟩
    · exact h.covered o (List.prefix_append past es₁)
    · have h_first := h.balance o
      have h_second := h'.covered o ⟨rest, h_es'.symm⟩
      simp only [List.count_append]
      omega

/-- A stretch that releases no more than was held when it began is covered. -/
theorem of_le
    (h_balance : ∀ o, es.count (.objectHeld o) + before.count o =
      es.count (.objectReleased o) + after.count o)
    (h_le : ∀ o, es.count (.objectReleased o) ≤ before.count o) : Balanced before es after where
  balance := h_balance
  covered o past h_past := by
    have h_count : past.count (.objectReleased o) ≤ es.count (.objectReleased o) :=
      h_past.sublist.count_le _
    have h_held := h_le o
    omega

/-- What is held may be counted in another order. -/
theorem plain (h : ∀ e ∈ es, e.Plain) (h_perm : before.Perm after) : Balanced before es after := by
  have h_held (o : UInt32) : es.count (.objectHeld o) = 0 :=
    List.count_eq_zero.2 fun h_mem => h _ h_mem
  have h_released (o : UInt32) : es.count (.objectReleased o) = 0 :=
    List.count_eq_zero.2 fun h_mem => h _ h_mem
  refine of_le (fun o => ?_) fun o => ?_
  · rw [h_held, h_released, h_perm.count_eq]
  · rw [h_released]
    exact Nat.zero_le _

end Balanced

theorem count_objectReleased_map (objects : List UInt32) (o : UInt32) :
    (objects.map Event.objectReleased).count (.objectReleased o) = objects.count o :=
  List.count_map_of_injective objects _ (fun _ _ h => Event.objectReleased.inj h) o

theorem count_objectHeld_map (objects : List UInt32) (o : UInt32) :
    (objects.map Event.objectHeld).count (.objectHeld o) = objects.count o :=
  List.count_map_of_injective objects _ (fun _ _ h => Event.objectHeld.inj h) o

theorem count_objectHeld_released (objects : List UInt32) (o : UInt32) :
    (objects.map Event.objectReleased).count (.objectHeld o) = 0 :=
  List.count_eq_zero.2 (by simp)

theorem count_objectReleased_held (objects : List UInt32) (o : UInt32) :
    (objects.map Event.objectHeld).count (.objectReleased o) = 0 :=
  List.count_eq_zero.2 (by simp)

/-! ### Storing a value -/

theorem heldBy_cons (x : Variable) (xs : List Variable) :
    heldBy (x :: xs) = x.value.object?.toList ++ heldBy xs := by
  unfold heldBy
  rw [List.filterMap_cons]
  cases x.value.object? <;> rfl

/-- One variable lets go of what it holds and takes hold of something else. -/
theorem heldBy_modify {slots : List Variable} {index : Nat} {old : Variable}
    (h : slots[index]? = some old) (v : Value) :
    ∃ rest, (heldBy slots).Perm (old.value.object?.toList ++ rest) ∧
      (heldBy (slots.modify index fun x => { x with value := v })).Perm
        (v.object?.toList ++ rest) := by
  induction slots generalizing index with
  | nil => contradiction
  | cons x xs ih =>
    cases index with
    | zero =>
      obtain rfl : x = old := by simpa using h
      refine ⟨heldBy xs, ?_, ?_⟩
      · -- the variable in front is the one that changes
        rw [heldBy_cons]
      · rw [List.modify_zero_cons, heldBy_cons]
    | succ index =>
      -- What the variable in front holds is passed by, up to the order.
      obtain ⟨rest, h_old, h_new⟩ := ih (by simpa using h)
      refine ⟨x.value.object?.toList ++ rest, ?_, ?_⟩
      · rw [heldBy_cons]
        exact (h_old.append_left _).trans (List.perm_append_comm_assoc ..)
      · rw [List.modify_succ_cons, heldBy_cons]
        exact (h_new.append_left _).trans (List.perm_append_comm_assoc ..)

namespace Machine

variable {m m' : Machine}

/-- The same for the variable that a task sees under an id. -/
theorem heldObjects_setVariable {task id : UInt32} {old : Variable}
    (h : m.findVariable? task id = some old) (v : Value) :
    ∃ rest, m.heldObjects.Perm (old.value.object?.toList ++ rest) ∧
      (m.setVariable task id v).heldObjects.Perm (v.object?.toList ++ rest) := by
  unfold findVariable? at h
  obtain ⟨t, h_find, h⟩ := Option.bind_eq_some_iff.1 h
  unfold setVariable
  rw [h_find]
  dsimp only
  cases h_place : Place.ofId id t.offset with
  | globalSlot index =>
    -- a global: the locals of all tasks stay as they are
    rw [h_place] at h
    obtain ⟨rest, h_old, h_new⟩ := heldBy_modify h v
    refine ⟨rest ++ m.tasks.toList.flatMap (heldBy ·.locals), ?_, ?_⟩
    · rw [← List.append_assoc]
      exact h_old.append_right _
    · rw [← List.append_assoc]
      exact h_new.append_right _
  | localSlot index =>
    rw [h_place] at h
    obtain ⟨rest, h_old, h_new⟩ := heldBy_modify h v
    -- the other tasks hold what they held
    let others := (m.tasks.erase task).toList.flatMap (heldBy ·.locals)
    have h_before : (m.tasks.toList.flatMap (heldBy ·.locals)).Perm (heldBy t.locals ++ others) :=
      (TaskTable.erase_perm h_find).flatMap_right _
    have h_after := (TaskTable.update_perm h_find fun t =>
      { t with locals := t.locals.modify index fun x => { x with value := v } }).flatMap_right
        (heldBy ·.locals)
    refine ⟨heldBy m.globals ++ (rest ++ others), ?_, ?_⟩
    · refine (List.Perm.append_left _ (h_before.trans (h_old.append_right _))).trans ?_
      rw [List.append_assoc]
      exact List.perm_append_comm_assoc ..
    · refine (List.Perm.append_left _ (h_after.trans (h_new.append_right _))).trans ?_
      rw [List.append_assoc]
      exact List.perm_append_comm_assoc ..

/-! ### Moves that leave the books alone -/

/-- Nothing is told of an object, nothing is held or let go of, and no task comes or goes. -/
structure Quiet (m m' : Machine) : Prop where
  log : ∃ es, m'.log.toList = m.log.toList ++ es ∧ ∀ e ∈ es, e.Plain
  heldObjects : m'.heldObjects = m.heldObjects
  ids : m'.tasks.toList.map (·.id) = m.tasks.toList.map (·.id)
  highestTask : m'.highestTask = m.highestTask
  started : m'.started = m.started

namespace Quiet

theorem refl (m : Machine) : Quiet m m := ⟨⟨[], by simp⟩, rfl, rfl, rfl, rfl⟩

theorem trans {m'' : Machine} (h : Quiet m m') (h' : Quiet m' m'') : Quiet m m'' where
  log := by
    obtain ⟨es, h_log, h_plain⟩ := h.log
    obtain ⟨es', h_log', h_plain'⟩ := h'.log
    refine ⟨es ++ es', ?_, List.forall_mem_append.2 ⟨h_plain, h_plain'⟩⟩
    rw [h_log', h_log, List.append_assoc]
  heldObjects := h'.heldObjects.trans h.heldObjects
  ids := h'.ids.trans h.ids
  highestTask := h'.highestTask.trans h.highestTask
  started := h'.started.trans h.started

theorem emit (m : Machine) {e : Event} (h : e.Plain) : Quiet m (m.emit e) where
  log := ⟨[e], by simp [Machine.emit], by simpa using h⟩
  heldObjects := rfl
  ids := rfl
  highestTask := rfl
  started := rfl

/-- A change to tasks that keeps their locals. -/
theorem map (m : Machine) {change : Task → Task} (h : ∀ t, (change t).locals = t.locals) :
    Quiet m { m with tasks := m.tasks.map change } where
  log := ⟨[], by simp⟩
  heldObjects := by
    have h_tasks : (m.tasks.map change).toList.flatMap (heldBy ·.locals) =
        m.tasks.toList.flatMap (heldBy ·.locals) := by
      change (m.tasks.toList.map _).flatMap _ = _
      rw [List.flatMap_map]
      exact congrArg (m.tasks.toList.flatMap ·) (funext fun t => congrArg heldBy (h t))
    exact congrArg (heldBy m.globals ++ ·) h_tasks
  ids := m.tasks.ids_map change
  highestTask := rfl
  started := rfl

theorem updateTask (m : Machine) (task : UInt32) {change : Task → Task}
    (h : ∀ t, (change t).locals = t.locals) : Quiet m (m.updateTask task change) := by
  refine map m fun t => ?_
  split
  · exact h t
  · rfl

end Quiet

theorem Exchange.quiet (h : Exchange m m') : Quiet m m' := by
  cases h with
  | tell e h_plain => exact .emit m h_plain
  | restack _ _ =>
    unfold setStack
    split
    · exact ⟨⟨[], by simp⟩, rfl, rfl, rfl, rfl⟩
    · exact .updateTask m _ fun _ => rfl

theorem Exchanges.quiet (h : Exchanges m m') : Quiet m m' := by
  induction h with
  | refl => exact .refl m
  | tail _ h_exchange ih => exact ih.trans h_exchange.quiet

end Machine

/-! ### The books of a run -/

/-- Every live task has an id that was given away. -/
def State.IdsGiven (s : State) : Prop := ∀ t ∈ s.tasks.toList, t.id ≤ s.highestTask

theorem State.IdsGiven.of_ids {s s' : State} (h : s.IdsGiven)
    (h_ids : s'.tasks.toList.map (·.id) = s.tasks.toList.map (·.id))
    (h_highest : s.highestTask ≤ s'.highestTask) : s'.IdsGiven := by
  intro t h_t
  have h_mem : t.id ∈ s.tasks.toList.map (·.id) := h_ids ▸ List.mem_map_of_mem h_t
  obtain ⟨u, h_u, h_id⟩ := List.mem_map.1 h_mem
  exact h_id ▸ UInt32.le_trans (h u h_u) h_highest

namespace Machine

variable {m m' : Machine}

/-- The books of a stretch of a run. They are right if all ids were given away before it and the
tasks that it starts do not make ids wrap around. -/
structure Accounts (m m' : Machine) : Prop where
  started_le : m.started ≤ m'.started
  books (h_ids : m.IdsGiven)
    (h_room : m.highestTask.toNat + (m'.started - m.started) < UInt32.size) :
    m'.IdsGiven ∧ m'.highestTask.toNat = m.highestTask.toNat + (m'.started - m.started) ∧
      ∃ es, m'.log.toList = m.log.toList ++ es ∧ Balanced m.heldObjects es m'.heldObjects

namespace Accounts

theorem refl (m : Machine) : Accounts m m where
  started_le := Nat.le_refl _
  books h_ids _ := ⟨h_ids, by omega, [], by simp, .nil⟩

theorem trans {m'' : Machine} (h : Accounts m m') (h' : Accounts m' m'') : Accounts m m'' where
  started_le := Nat.le_trans h.started_le h'.started_le
  books h_ids h_room := by
    have h_le := h.started_le
    have h_le' := h'.started_le
    obtain ⟨h_ids', h_highest, es, h_log, h_balanced⟩ := h.books h_ids (by omega)
    obtain ⟨h_ids'', h_highest', es', h_log', h_balanced'⟩ := h'.books h_ids' (by omega)
    refine ⟨h_ids'', by omega, es ++ es', ?_, h_balanced.append h_balanced'⟩
    rw [h_log', h_log, List.append_assoc]

/-- No id is given away. -/
theorem of_started_eq (h_started : m'.started = m.started)
    (h_highest : m'.highestTask = m.highestTask) (h_ids : m.IdsGiven → m'.IdsGiven)
    (h_log : ∃ es, m'.log.toList = m.log.toList ++ es ∧
      Balanced m.heldObjects es m'.heldObjects) : Accounts m m' where
  started_le := Nat.le_of_eq h_started.symm
  books h_given _ := ⟨h_ids h_given, by rw [h_highest, h_started]; omega, h_log⟩

theorem quiet (h : Quiet m m') : Accounts m m' := by
  obtain ⟨es, h_log, h_plain⟩ := h.log
  refine of_started_eq h.started h.highestTask (fun h_given => ?_) ⟨es, h_log, ?_⟩
  · exact h_given.of_ids h.ids (h.highestTask ▸ UInt32.le_refl _)
  · rw [h.heldObjects]
    exact .plain h_plain (.refl _)

end Accounts

/-- **Storing a value.** What is held from now on is told before what is let go of. -/
theorem accounts_writeVariable (m : Machine) (task id : UInt32) (v : Value) :
    Accounts m (m.writeVariable task id v) := by
  unfold writeVariable
  split
  · -- no variable has the id, and nothing is stored
    exact .quiet (.emit m trivial)
  · rename_i old h_find
    obtain ⟨rest, h_before, h_after⟩ := heldObjects_setVariable h_find v
    obtain ⟨globals, change, h_set, -⟩ := setVariable_spec m task id v
    rw [foldl_emit]
    -- the log grows by the hold of the new value and then by the release of the old one
    generalize m.setVariable task id v = m₁ at h_after h_set
    subst h_set
    refine .of_started_eq rfl rfl (fun h_given => ?_) ⟨_, Array.toList_append, .of_le ?_ ?_⟩
    · exact State.IdsGiven.of_ids h_given (m.tasks.ids_map change) (UInt32.le_refl _)
    · -- Both sides count what the variable held and what it holds now, beside all others.
      intro o
      have h_b := h_before.count_eq o
      have h_a := h_after.count_eq o
      dsimp only at h_a
      rw [List.count_append] at h_b h_a
      simp only [List.count_append, count_objectHeld_map, count_objectReleased_map,
        count_objectHeld_released, count_objectReleased_held]
      omega
    · intro o
      have h_b := h_before.count_eq o
      rw [List.count_append] at h_b
      simp only [List.count_append, count_objectReleased_map, count_objectReleased_held]
      omega

/-- **Removing a task.** Everything that its locals hold is let go of. -/
theorem accounts_remove (m : Machine) (id : UInt32) : Accounts m (m.remove id) := by
  unfold remove
  split
  · exact .refl m
  · rename_i t h_find
    -- what is held is held by the globals, by the task, or by the other tasks
    have h_held : (m.tasks.toList.flatMap (heldBy ·.locals)).Perm
        (heldBy t.locals ++ (m.tasks.erase id).toList.flatMap (heldBy ·.locals)) :=
      (TaskTable.erase_perm h_find).flatMap_right _
    have h_before (o : UInt32) : m.heldObjects.count o = (heldBy m.globals).count o +
        (t.heldObjects.count o +
          ((m.tasks.erase id).toList.flatMap (heldBy ·.locals)).count o) := by
      unfold State.heldObjects
      rw [List.count_append, h_held.count_eq o, List.count_append]
      rfl
    have h_stopped (o : UInt32) : [Event.taskStopped id].count (.objectReleased o) = 0 := rfl
    have h_stopped' (o : UInt32) : [Event.taskStopped id].count (.objectHeld o) = 0 := rfl
    dsimp only
    rw [foldl_emit]
    refine .of_started_eq rfl rfl (fun h_given t h_t => ?_) ⟨_, Array.toList_append, .of_le ?_ ?_⟩
    · exact h_given t (TaskTable.mem_erase h_t)
    · intro o
      have h_after : State.heldObjects { m.toState with tasks := m.tasks.erase id } =
        heldBy m.globals ++ (m.tasks.erase id).toList.flatMap (heldBy ·.locals) := rfl
      rw [h_before, h_after]
      simp only [List.count_append, count_objectReleased_map, count_objectHeld_released,
        h_stopped, h_stopped']
      omega
    · intro o
      rw [h_before]
      simp only [List.count_append, count_objectReleased_map, h_stopped]
      omega

theorem heldBy_fresh (names : List String) : heldBy (names.map .fresh) = [] := by
  unfold heldBy
  rw [List.filterMap_map]
  exact List.filterMap_eq_nil_iff.2 fun _ _ => rfl

/-- **Starting a task.** Its id is above all others, so it displaces none, and its locals are
blank. -/
theorem accounts_spawn (m : Machine) (script : Script) : Accounts m (m.spawn script).2 := by
  obtain ⟨m₁, s, h_exchanges, -, h_spawn⟩ := spawn_spec m script
  have h_quiet := h_exchanges.quiet
  have h_started : m₁.started = m.started + 1 := h_quiet.started
  have h_highest : m₁.highestTask = m.highestTask + 1 := h_quiet.highestTask
  rw [h_spawn]
  refine ⟨by dsimp only [enrol]; omega, fun h_given h_room => ?_⟩
  dsimp only [enrol] at h_room ⊢
  -- there is room for one more id, so this one does not wrap around
  have h_next : (m.highestTask + 1).toNat = m.highestTask.toNat + 1 := by
    rw [UInt32.toNat_add]
    exact Nat.mod_eq_of_lt (by change m.highestTask.toNat + 1 < UInt32.size; omega)
  have h_given₁ : ∀ u ∈ m₁.tasks.toList, u.id.toNat ≤ m.highestTask.toNat := by
    intro u h_u
    have h_mem : u.id ∈ m.tasks.toList.map (·.id) := h_quiet.ids ▸ List.mem_map_of_mem h_u
    obtain ⟨u', h_u', h_id⟩ := List.mem_map.1 h_mem
    exact h_id ▸ UInt32.le_iff_toNat_le.1 (h_given u' h_u')
  obtain ⟨es, h_log, h_plain⟩ := h_quiet.log
  refine ⟨fun u h_u => ?_, by rw [h_highest, h_next]; omega, es, h_log, .plain h_plain ?_⟩
  · rw [UInt32.le_iff_toNat_le, h_highest, h_next]
    rcases TaskTable.mem_insert h_u with rfl | h_u
    · exact Nat.le_of_eq h_next
    · exact Nat.le_succ_of_le (h_given₁ u h_u)
  · -- no live task has the id that was given away last
    have h_fresh : m₁.tasks.find? (m.highestTask + 1) = none := by
      refine TaskTable.find?_eq_none_iff.2 fun u h_u h_id => ?_
      have h_le := h_given₁ u h_u
      rw [h_id, h_next] at h_le
      omega
    have h_insert := (TaskTable.insert_perm
      (t := { Task.start (m.highestTask + 1) script with stack := s }) h_fresh).flatMap_right
        (heldBy ·.locals)
    have h_locals : heldBy (Task.start (m.highestTask + 1) script).locals = [] := heldBy_fresh _
    rw [List.flatMap_cons, h_locals, List.nil_append] at h_insert
    have h_held : m.heldObjects = m₁.heldObjects := h_quiet.heldObjects.symm
    change m.heldObjects.Perm _
    rw [h_held]
    exact (h_insert.append_left (heldBy m₁.globals)).symm

/-- **Every move keeps the books.** -/
theorem Move.accounts (h : Move m m') : Accounts m m' := by
  cases h with
  | exchange h => exact .quiet h.quiet
  -- of the other moves only these change what is held
  | store task id v => exact accounts_writeVariable m task id v
  | spawn script _ => exact accounts_spawn m script
  | call task script _ _ =>
    exact (accounts_spawn m script).trans (.quiet (.updateTask _ task fun _ => rfl))
  | remove id => exact accounts_remove m id
  | steer task change h_change =>
    refine .quiet (.updateTask m task fun t => ?_)
    have h_locals := congrArg Task.locals (h_change t)
    exact h_locals
  | halt task => exact .quiet (.updateTask m task fun _ => rfl)
  | release mask =>
    -- time goes by for tasks, which hold what they held
    refine .quiet (.map m fun t => ?_)
    dsimp only
    split
    · split <;> rfl
    · rfl
  | mark => exact .quiet ⟨⟨[], by simp⟩, rfl, rfl, rfl, rfl⟩

theorem Runs.accounts (h : Runs m m') : Accounts m m' :=
  h.lift Accounts.refl Accounts.trans Move.accounts fun m _ _ =>
    .quiet ⟨⟨[], by simp⟩, rfl, rfl, rfl, rfl⟩

theorem heldObjects_beginning (m : Machine) (i : Image) : (m.beginning i).heldObjects = [] := by
  unfold State.heldObjects
  rw [List.append_eq_nil_iff]
  exact ⟨heldBy_fresh _, rfl⟩

/-- **References are conserved.** Over every ordinary routine, the events that tell of an object
being held, less those that tell of its release, are the change in the number of variables that hold
it. So in a run from the loading of a program no release is told before the hold that it ends, and
between operations the host knows of exactly the variables that hold the object. Natives have to be
ordinary, and ids must not wrap around. -/
theorem references_conserved {α : Type} {setting : Setting} {r : Routine α}
    (h_setting : setting.Ordinary) (h_routine : r.Only Request.Ordinary) :
    (∀ (m m' : Machine) (a : α), m.IdsGiven → perform setting r m = some (a, m') →
      m.highestTask.toNat + (m'.started - m.started) < UInt32.size →
      ∃ es, m'.log.toList = m.log.toList ++ es ∧ ∀ o,
        (es.count (.objectHeld o) : Int) - es.count (.objectReleased o) =
          m'.heldObjects.count o - m.heldObjects.count o) ∧
    (∀ (m₀ m' : Machine) (i : Image) (a : α), perform setting r (m₀.load i) = some (a, m') →
      m'.started - m₀.started < UInt32.size →
      ∃ es, m'.log.toList = m₀.log.toList ++ es ∧ ∀ o,
        (∀ past, past <+: es → past.count (.objectReleased o) ≤ past.count (.objectHeld o)) ∧
        (es.count (.objectHeld o) : Int) - es.count (.objectReleased o) =
          m'.heldObjects.count o) := by
  constructor
  · intro m m' a h_given h_run h_room
    obtain ⟨-, -, es, h_log, h_balanced⟩ :=
      (runs_perform h_setting h_routine h_run).accounts.books h_given h_room
    refine ⟨es, h_log, fun o => ?_⟩
    have h_balance := h_balanced.balance o
    omega
  · intro m₀ m' i a h_run h_room
    have h_runs := (runs_load m₀ i).trans (runs_perform h_setting h_routine h_run)
    have h_given : (m₀.beginning i).IdsGiven := by
      intro t h_t
      contradiction
    -- nothing was started before the beginning, so the first id is 1
    have h_first : (m₀.beginning i).highestTask.toNat = 0 := rfl
    have h_none : (m₀.beginning i).started = m₀.started := rfl
    obtain ⟨-, -, es, h_log, h_balanced⟩ := h_runs.accounts.books h_given (by omega)
    rw [heldObjects_beginning] at h_balanced
    refine ⟨es, h_log, fun o => ⟨fun past h_past => ?_, ?_⟩⟩
    · exact h_balanced.covered o h_past
    · have h_balance := h_balanced.balance o
      rw [List.count_nil] at h_balance
      omega

end Machine

/-! ### A run within the bound and one beyond it -/

/-- A script that takes hold of an object and calls the first native. -/
def holdingImage : Image :=
  { program := {
      code := [⟨.push, Mode.immediate, .object, 7, 0⟩, ⟨.pop, Mode.reference, .object, 1, 0⟩,
        ⟨.callNative, 0, .untyped, 0, 0⟩]
      autostart := [1]
      scripts := [⟨"M", "", .script, 0, ["x"], 0, 0, 1⟩] } }

/-- The native stops whoever calls it. -/
def haltingSetting : Setting :=
  { natives := [⟨"halt", 0, 0, some do let _ ← Routine.stopRunning⟩]
    tickLength := Setting.defaultTickLength }

/-- What a tick makes of the script. -/
def haltedMachine : Machine :=
  { program := holdingImage.program
    globals := [.fresh nullVariableName]
    ticks := 1, highestTask := 1, highestScript := 1, executed := 3
    log := #[.objectHeld 7, .nativeEntered 0, .objectReleased 7, .taskStopped 1, .nativeLeft 0]
    started := 1 }

theorem haltingSetting_ordinary : haltingSetting.Ordinary := by
  intro native h_native body h_body
  obtain rfl := List.mem_singleton.1 h_native
  obtain rfl := Option.some.inj h_body
  exact ⟨trivial, fun _ => ⟨trivial, fun _ => trivial⟩⟩

/-- From the start of the script, and from the loading of the program that starts it. -/
theorem references_conserved_halted :
    Machine.perform haltingSetting (.request (.tick .all)) (Machine.load {} holdingImage) =
      some ((), haltedMachine) ∧
    (∃ es, haltedMachine.log.toList = (Machine.load {} holdingImage).log.toList ++ es ∧
      (es.count (.objectHeld 7) : Int) - es.count (.objectReleased 7) =
        haltedMachine.heldObjects.count 7 -
          (Machine.load {} holdingImage).heldObjects.count 7) ∧
    ∃ es, haltedMachine.log.toList = es ∧
      (∀ past, past <+: es → past.count (.objectReleased 7) ≤ past.count (.objectHeld 7)) ∧
      (es.count (.objectHeld 7) : Int) - es.count (.objectReleased 7) = 0 := by
  have h_run : Machine.perform haltingSetting (.request (.tick .all))
      (Machine.load {} holdingImage) = some ((), haltedMachine) := by decide +kernel
  have h_given : (Machine.load {} holdingImage).IdsGiven := by
    unfold State.IdsGiven
    decide +kernel
  obtain ⟨h_operation, h_from_load⟩ := Machine.references_conserved haltingSetting_ordinary
    (r := .request (.tick .all)) ⟨trivial, fun _ => trivial⟩
  obtain ⟨es, h_log, h_books⟩ :=
    h_operation _ haltedMachine () h_given h_run (by decide +kernel)
  obtain ⟨es', h_log', h_books'⟩ := h_from_load {} haltedMachine holdingImage () h_run (by decide)
  exact ⟨h_run, ⟨es, h_log, h_books 7⟩, es', h_log', (h_books' 7).1, (h_books' 7).2⟩

/-- Goes on from a save file in which the last of all ids was given away. The task with the id that
comes next holds an object. -/
def exhaustedMachine : Machine :=
  let script : Script := ⟨"Main", "main.chl", .script, 0, ["x"], 0, 0, 1⟩
  Machine.resume {} {
    program := { scripts := [script] }
    checkpoint := some {
      tasks := [{ Task.start 0 script with locals := [⟨"x", .ofObject 7⟩] }]
      highestTask := 0xFFFFFFFF, highestScript := 1 } }

/-- **Where ids wrap around.** One more task takes the place of the one that holds the object, and
the host is not told. -/
theorem references_lost_on_wrap :
    ¬ ∀ (m m' : Machine) (id : UInt32), m.IdsGiven →
      Machine.perform haltingSetting (.request (.start 1)) m = some (id, m') →
      m'.started - m.started < UInt32.size →
      ∃ es, m'.log.toList = m.log.toList ++ es ∧ ∀ o,
        (es.count (.objectHeld o) : Int) - es.count (.objectReleased o) =
          m'.heldObjects.count o - m.heldObjects.count o := by
  intro h
  have h_given : exhaustedMachine.IdsGiven := by
    unfold State.IdsGiven
    decide +kernel
  have h_run : Machine.perform haltingSetting (.request (.start 1)) exhaustedMachine =
      some (0, (exhaustedMachine.start 1).2) := by decide +kernel
  obtain ⟨es, h_log, h_books⟩ := h _ _ 0 h_given h_run (by decide +kernel)
  have h_silent : (exhaustedMachine.start 1).2.log.toList = exhaustedMachine.log.toList := by
    decide +kernel
  rw [h_silent, List.self_eq_append_right] at h_log
  subst h_log
  have h_count := h_books 7
  revert h_count
  decide +kernel

end ScriptMachine
