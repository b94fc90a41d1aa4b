import ScriptMachine.Task

/-!
# The task table

The live tasks in ascending order of their ids, which are all different. The order is that in which
a scheduler pass serves them, and a pass goes on from the last id it served (`TaskTable.after?`), so
it does not matter to it which tasks come and go behind it.

The table is read through `TaskTable.find?`; `find?_insert`, `find?_erase` and `find?_update` say
what each operation does to that view.
-/

namespace ScriptMachine

/-- Tasks in ascending order of id. -/
structure TaskTable where
  toList : List Task
  ascending : toList.Pairwise (·.id < ·.id) := by simp
deriving DecidableEq

namespace TaskTable

def empty : TaskTable := { toList := [] }

instance : Inhabited TaskTable := ⟨empty⟩

instance : Repr TaskTable := ⟨fun table n => reprPrec table.toList n⟩

def size (table : TaskTable) : Nat := table.toList.length

/-- The live task with the given id. -/
def find? (table : TaskTable) (id : UInt32) : Option Task := table.toList.find? (·.id == id)

def contains (table : TaskTable) (id : UInt32) : Bool := (table.find? id).isSome

/-- The live task with the least id above the given one, or with the least id of all. -/
def after? (table : TaskTable) : Option UInt32 → Option Task
  | none => table.toList.head?
  | some id => table.toList.find? (id < ·.id)

/-! ### Changing the table -/

/-- Puts a task in its place, instead of one with the same id. -/
def place (t : Task) : List Task → List Task
  | [] => [t]
  | u :: rest => if t.id < u.id then t :: u :: rest
    else if t.id = u.id then t :: rest
    else u :: place t rest

theorem mem_place {t u : Task} {tasks : List Task} (h : u ∈ place t tasks) : u = t ∨ u ∈ tasks := by
  induction tasks with
  | nil => simpa [place] using h
  | cons v rest ih =>
    unfold place at h
    split at h
    · simpa using h
    · split at h <;> rcases List.mem_cons.1 h with rfl | h
      · exact .inl rfl
      · exact .inr (List.mem_cons_of_mem _ h)
      · exact .inr List.mem_cons_self
      · exact (ih h).imp_right (List.mem_cons_of_mem _)

theorem ascending_place (t : Task) {tasks : List Task} (h : tasks.Pairwise (·.id < ·.id)) :
    (place t tasks).Pairwise (·.id < ·.id) := by
  induction tasks with
  | nil => simp [place]
  | cons v rest ih =>
    obtain ⟨hv, hrest⟩ := List.pairwise_cons.1 h
    unfold place
    split
    · rename_i hlt
      refine List.pairwise_cons.2 ⟨fun u hu => ?_, h⟩
      rcases List.mem_cons.1 hu with rfl | hu
      · exact hlt
      · exact UInt32.lt_trans hlt (hv u hu)
    · rename_i hlt
      split
      · rename_i heq
        exact List.pairwise_cons.2 ⟨fun u hu => heq ▸ hv u hu, hrest⟩
      · rename_i hne
        refine List.pairwise_cons.2 ⟨fun u hu => ?_, ih hrest⟩
        rcases mem_place hu with rfl | hu
        · exact UInt32.lt_of_le_of_ne (UInt32.not_lt.1 hlt) (Ne.symm hne)
        · exact hv u hu

/-- Adds a task; it takes the place of one with the same id. -/
def insert (table : TaskTable) (t : Task) : TaskTable :=
  { toList := place t table.toList, ascending := ascending_place t table.ascending }

/-- The table of the given tasks; of two with the same id the later one stays. -/
def ofList (tasks : List Task) : TaskTable := tasks.foldl insert empty

/-- Removes the task with the given id. -/
def erase (table : TaskTable) (id : UInt32) : TaskTable :=
  { toList := table.toList.filter (·.id != id), ascending := table.ascending.filter _ }

/-- Applies `change` to every task. No change can move a task: the id stays what it was. -/
def map (table : TaskTable) (change : Task → Task) : TaskTable :=
  { toList := table.toList.map fun t => { change t with id := t.id }
    ascending := List.pairwise_map.2 table.ascending }

/-- Applies `change` to the task with the given id. -/
def update (table : TaskTable) (id : UInt32) (change : Task → Task) : TaskTable :=
  table.map fun t => if t.id = id then change t else t

/-! ### What the operations do to the view -/

@[simp] theorem find?_empty (id : UInt32) : empty.find? id = none := rfl

theorem id_of_find? {table : TaskTable} {id : UInt32} {t : Task} (h : table.find? id = some t) :
    t.id = id := by
  simpa using List.find?_some h

theorem find?_place (t : Task) (tasks : List Task) (id : UInt32) :
    (place t tasks).find? (·.id == id) =
      if t.id = id then some t else tasks.find? (·.id == id) := by
  induction tasks with
  | nil => by_cases h : t.id = id <;> simp [place, h]
  | cons u rest ih =>
    unfold place
    by_cases h : t.id = id
    · split
      · simp [h]
      · split
        · simp [h]
        · rename_i hne
          have : ¬ u.id = id := fun hu => hne (h.trans hu.symm)
          simp [ih, h, this]
    · split
      · simp [h]
      · split
        · rename_i heq
          have : ¬ u.id = id := fun hu => h (heq.trans hu)
          simp [h, this]
        · simp [List.find?_cons, ih, h]

@[simp] theorem find?_insert (table : TaskTable) (t : Task) (id : UInt32) :
    (table.insert t).find? id = if t.id = id then some t else table.find? id :=
  find?_place t table.toList id

@[simp] theorem find?_erase (table : TaskTable) (removed id : UInt32) :
    (table.erase removed).find? id = if id = removed then none else table.find? id := by
  unfold erase find?
  rw [List.find?_filter]
  split
  · rename_i h
    subst h
    simp
  · rename_i h
    congr 1
    funext t
    by_cases ht : t.id = id
    · simp [ht, h]
    · simp [ht]

@[simp] theorem find?_map (table : TaskTable) (change : Task → Task) (id : UInt32) :
    (table.map change).find? id = (table.find? id).map fun t => { change t with id := t.id } := by
  simp only [map, find?, List.find?_map, Function.comp_def]

theorem find?_update (table : TaskTable) (changed id : UInt32) (change : Task → Task) :
    (table.update changed change).find? id =
      (table.find? id).map fun t => if id = changed then { change t with id := t.id } else t := by
  rw [update, find?_map]
  cases h : table.find? id with
  | none => rfl
  | some t =>
    obtain rfl := id_of_find? h
    by_cases hid : t.id = changed <;> simp only [Option.map_some, hid, if_true, if_false]

end TaskTable

end ScriptMachine
