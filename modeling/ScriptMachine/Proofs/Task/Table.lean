import Mathlib.Data.List.Nodup
import Mathlib.Data.List.Perm.Basic
import ScriptMachine.Task.Table

/-!
# The task table as a collection

`TaskTable.find?` says which task has a given id. Facts about all live tasks at once, such as how
many objects they hold, go by the list of the tasks, and the order in it matters to none of them.
So each operation is described up to a permutation: a task that is inserted, removed or changed is
one more, one less or another one beside the rest.
-/

namespace ScriptMachine

namespace TaskTable

variable {table : TaskTable} {t u : Task} {id : UInt32}

/-! ### Membership -/

theorem mem_of_find? (h : table.find? id = some t) : t ∈ table.toList :=
  List.mem_of_find?_eq_some h

/-- Ids are all different. -/
theorem eq_of_id_eq (h_t : t ∈ table.toList) (h_u : u ∈ table.toList) (h : t.id = u.id) :
    t = u := by
  have h_nodup : (table.toList.map (·.id)).Nodup :=
    List.pairwise_map.2 (table.ascending.imp fun h_lt => UInt32.ne_of_lt h_lt)
  exact List.inj_on_of_nodup_map h_nodup h_t h_u h

theorem find?_eq_some_iff : table.find? id = some t ↔ t ∈ table.toList ∧ t.id = id := by
  refine ⟨fun h => ⟨mem_of_find? h, id_of_find? h⟩, ?_⟩
  rintro ⟨h_mem, rfl⟩
  have h_some : (table.find? t.id).isSome := List.find?_isSome.2 ⟨t, h_mem, beq_self_eq_true _⟩
  obtain ⟨u, h_find⟩ := Option.isSome_iff_exists.1 h_some
  rw [h_find, eq_of_id_eq (mem_of_find? h_find) h_mem (id_of_find? h_find)]

theorem find?_eq_none_iff : table.find? id = none ↔ ∀ t ∈ table.toList, t.id ≠ id := by
  unfold find?
  simp only [List.find?_eq_none, beq_iff_eq, ne_eq]

/-- A pass comes to tasks that are there. -/
theorem find?_of_after? {cursor : Option UInt32} (h : table.after? cursor = some t) :
    table.find? t.id = some t := by
  have h_mem : t ∈ table.toList := by
    cases cursor with
    -- at its beginning a pass comes to the first task, later to the first one above the cursor
    | none => exact List.mem_of_head? h
    | some id => exact List.mem_of_find?_eq_some h
  exact find?_eq_some_iff.2 ⟨h_mem, rfl⟩

theorem mem_insert (h : u ∈ (table.insert t).toList) : u = t ∨ u ∈ table.toList := mem_place h

theorem length_place_le (t : Task) (tasks : List Task) :
    (place t tasks).length ≤ tasks.length + 1 := by
  induction tasks with
  | nil => exact Nat.le_refl _
  | cons u rest ih =>
    unfold place
    split
    · exact Nat.le_refl _
    · split
      · exact Nat.le_succ _
      · exact Nat.succ_le_succ ih

theorem size_insert_le (table : TaskTable) (t : Task) : (table.insert t).size ≤ table.size + 1 :=
  length_place_le t table.toList

theorem mem_erase (h : u ∈ (table.erase id).toList) : u ∈ table.toList :=
  (List.mem_filter.1 h).1

theorem mem_map_iff {change : Task → Task} :
    u ∈ (table.map change).toList ↔ ∃ t ∈ table.toList, { change t with id := t.id } = u :=
  List.mem_map

theorem find?_update_self (table : TaskTable) (id : UInt32) (change : Task → Task) :
    (table.update id change).find? id =
      (table.find? id).map fun t => { change t with id := t.id } := by
  rw [find?_update]
  simp only [if_true]

theorem find?_update_of_ne (table : TaskTable) {id changed : UInt32} (h : id ≠ changed)
    (change : Task → Task) : (table.update changed change).find? id = table.find? id := by
  rw [find?_update]
  simp only [if_neg h, Option.map_id']

theorem contains_eq_true_iff : table.contains id ↔ ∃ t, table.find? id = some t :=
  Option.isSome_iff_exists

theorem contains_eq_false_iff : table.contains id = false ↔ table.find? id = none := by
  unfold contains
  exact Option.isSome_eq_false_iff.trans Option.isNone_iff_eq_none

theorem map_self (table : TaskTable) : (table.map fun t => t) = table := by
  unfold map
  congr 1
  exact List.map_id _

theorem ids_map (table : TaskTable) (change : Task → Task) :
    (table.map change).toList.map (·.id) = table.toList.map (·.id) := by
  change (table.toList.map _).map _ = _
  rw [List.map_map]
  rfl

/-- The tasks that are selected. -/
def filter (table : TaskTable) (selected : Task → Bool) : TaskTable :=
  { toList := table.toList.filter selected, ascending := table.ascending.filter _ }

theorem find?_filter (table : TaskTable) (selected : Task → Bool) (id : UInt32) :
    (table.filter selected).find? id = (table.find? id).filter selected := by
  cases h_find : table.find? id with
  | none =>
    rw [find?_eq_none_iff] at h_find
    exact find?_eq_none_iff.2 fun t h_t => h_find t (List.mem_filter.1 h_t).1
  | some t =>
    obtain ⟨h_mem, h_id⟩ := find?_eq_some_iff.1 h_find
    cases h_selected : selected t with
    | true =>
      rw [Option.filter_some, h_selected, if_pos rfl]
      exact find?_eq_some_iff.2 ⟨List.mem_filter.2 ⟨h_mem, h_selected⟩, h_id⟩
    | false =>
      rw [Option.filter_some, h_selected, if_neg Bool.false_ne_true]
      refine find?_eq_none_iff.2 fun u h_u h_same => ?_
      -- the only task with this id is not selected
      obtain ⟨h_u, h_selected'⟩ := List.mem_filter.1 h_u
      rw [eq_of_id_eq h_u h_mem (h_same.trans h_id.symm), h_selected] at h_selected'
      contradiction

/-! ### Operations up to a permutation -/

theorem place_perm (tasks : List Task) (h : ∀ u ∈ tasks, u.id ≠ t.id) :
    (place t tasks).Perm (t :: tasks) := by
  induction tasks with
  | nil => exact .refl _
  | cons u rest ih =>
    have h_rest := ih fun v h_v => h v (List.mem_cons_of_mem _ h_v)
    unfold place
    split
    · exact .refl _
    · -- it is another task, so nothing is replaced
      rw [if_neg (Ne.symm (h u List.mem_cons_self))]
      exact (h_rest.cons u).trans (.swap t u rest)

/-- Nothing is displaced by a task with an id of its own. -/
theorem insert_perm (h : table.find? t.id = none) :
    (table.insert t).toList.Perm (t :: table.toList) :=
  place_perm _ (find?_eq_none_iff.1 h)

theorem size_insert (h : table.find? t.id = none) : (table.insert t).size = table.size + 1 :=
  (insert_perm h).length_eq

theorem ids_place {tasks : List Task} (h_ascending : tasks.Pairwise (·.id < ·.id))
    (h : u ∈ tasks) (h_id : u.id = t.id) : (place t tasks).map (·.id) = tasks.map (·.id) := by
  induction tasks with
  | nil => contradiction
  | cons v rest ih =>
    obtain ⟨h_above, h_rest⟩ := List.pairwise_cons.1 h_ascending
    unfold place
    rcases List.mem_cons.1 h with rfl | h_u
    · rw [← h_id, if_neg (UInt32.lt_irrefl _), if_pos rfl, List.map_cons, List.map_cons, ← h_id]
    · -- the task with this id comes later
      have h_later : v.id < t.id := h_id ▸ h_above u h_u
      rw [if_neg (UInt32.lt_asymm h_later), if_neg (UInt32.ne_of_lt h_later).symm, List.map_cons,
        ih h_rest h_u, List.map_cons]

/-- Nobody is added under an id that is taken. -/
theorem ids_insert (h : table.find? t.id = some u) :
    (table.insert t).toList.map (·.id) = table.toList.map (·.id) :=
  ids_place table.ascending (mem_of_find? h) (id_of_find? h)

/-- **The table around one of its tasks.** Nothing beside the task is touched. -/
theorem exists_split (h : table.find? id = some t) : ∃ before after,
    table.toList = before ++ t :: after ∧ (table.erase id).toList = before ++ after ∧
    ∀ change, (table.update id change).toList =
      before ++ { change t with id := t.id } :: after := by
  obtain ⟨h_mem, rfl⟩ := find?_eq_some_iff.1 h
  obtain ⟨before, after, h_list⟩ := List.append_of_mem h_mem
  have h_ascending := table.ascending
  rw [h_list, List.pairwise_append, List.pairwise_cons] at h_ascending
  obtain ⟨-, ⟨h_above, -⟩, h_below⟩ := h_ascending
  -- ids ascend, so there is no other task with this one before it or after it
  have h_before : ∀ u ∈ before, u.id ≠ t.id := fun u h_u =>
    UInt32.ne_of_lt (h_below u h_u t List.mem_cons_self)
  have h_after : ∀ u ∈ after, u.id ≠ t.id := fun u h_u => (UInt32.ne_of_lt (h_above u h_u)).symm
  refine ⟨before, after, h_list, ?_, fun change => ?_⟩
  · change table.toList.filter (·.id != t.id) = _
    have h_keep {tasks : List Task} (h : ∀ u ∈ tasks, u.id ≠ t.id) :
        tasks.filter (·.id != t.id) = tasks :=
      List.filter_eq_self.2 fun u h_u => bne_iff_ne.2 (h u h_u)
    rw [h_list, List.filter_append, List.filter_cons_of_neg (by simp), h_keep h_before,
      h_keep h_after]
  · change table.toList.map _ = _
    have h_keep {tasks : List Task} (h : ∀ u ∈ tasks, u.id ≠ t.id) :
        (tasks.map fun u => { (if u.id = t.id then change u else u) with id := u.id }) = tasks := by
      refine (List.map_congr_left fun u h_u => ?_).trans (List.map_id tasks)
      rw [if_neg (h u h_u)]
      rfl
    rw [h_list, List.map_append, List.map_cons, h_keep h_before, h_keep h_after]
    simp only [if_true]

theorem erase_perm (h : table.find? id = some t) :
    table.toList.Perm (t :: (table.erase id).toList) := by
  obtain ⟨before, after, h_list, h_erase, -⟩ := exists_split h
  rw [h_list, h_erase]
  exact List.perm_middle

theorem update_perm (h : table.find? id = some t) (change : Task → Task) :
    (table.update id change).toList.Perm
      ({ change t with id := t.id } :: (table.erase id).toList) := by
  obtain ⟨before, after, -, h_erase, h_update⟩ := exists_split h
  rw [h_erase, h_update]
  exact List.perm_middle

/-! ### Tables and lists -/

theorem toList_injective {table' : TaskTable} (h : table.toList = table'.toList) :
    table = table' := by
  cases table
  cases table'
  subst h
  rfl

theorem place_last {tasks : List Task} (h : ∀ u ∈ tasks, u.id < t.id) :
    place t tasks = tasks ++ [t] := by
  induction tasks with
  | nil => rfl
  | cons u rest ih =>
    -- every task that is there is passed by, so the new one goes to the end
    have h_u : u.id < t.id := h u List.mem_cons_self
    unfold place
    rw [if_neg (UInt32.lt_asymm h_u), if_neg (UInt32.ne_of_lt h_u).symm,
      ih fun v h_v => h v (List.mem_cons_of_mem _ h_v), List.cons_append]

/-- Tasks that come in ascending order of id stay as they come. -/
theorem toList_ofList {tasks : List Task} (h : tasks.Pairwise (·.id < ·.id)) :
    (ofList tasks).toList = tasks := by
  -- what is in the table ascends together with what is still to come
  have h_from (rest : List Task) (table : TaskTable)
      (h : (table.toList ++ rest).Pairwise (·.id < ·.id)) :
      (rest.foldl insert table).toList = table.toList ++ rest := by
    induction rest generalizing table with
    | nil => rw [List.foldl_nil, List.append_nil]
    | cons t rest ih =>
      have h_last : (table.insert t).toList = table.toList ++ [t] :=
        place_last fun u h_u => (List.pairwise_append.1 h).2.2 u h_u t List.mem_cons_self
      rw [List.append_cons, ← h_last] at h
      rw [List.foldl_cons, ih _ h, h_last, List.append_assoc, List.singleton_append]
  exact h_from tasks empty h

theorem ofList_toList (table : TaskTable) : ofList table.toList = table :=
  toList_injective (toList_ofList table.ascending)

/-- A list makes no tasks up, and no more than it has. -/
theorem ofList_spec (tasks : List Task) :
    (∀ t ∈ (ofList tasks).toList, t ∈ tasks) ∧ (ofList tasks).size ≤ tasks.length := by
  -- By induction on what is still to come, for any table: a task is added or takes the place of
  -- one.
  have h_from (rest : List Task) (table : TaskTable) :
      (∀ t ∈ (rest.foldl insert table).toList, t ∈ table.toList ∨ t ∈ rest) ∧
        (rest.foldl insert table).size ≤ table.size + rest.length := by
    induction rest generalizing table with
    | nil => exact ⟨fun t h_t => .inl h_t, Nat.le_refl _⟩
    | cons u rest ih =>
      obtain ⟨h_mem, h_size⟩ := ih (table.insert u)
      constructor
      · intro t h_t
        rcases h_mem t h_t with h_t | h_t
        · rcases mem_insert h_t with rfl | h_t
          · exact .inr List.mem_cons_self
          · exact .inl h_t
        · exact .inr (List.mem_cons_of_mem u h_t)
      · have h_insert := size_insert_le table u
        rw [List.foldl_cons, List.length_cons]
        omega
  obtain ⟨h_mem, h_size⟩ := h_from tasks empty
  constructor
  · intro t h_t
    exact (h_mem t h_t).resolve_left List.not_mem_nil
  · exact Nat.le_trans h_size (Nat.le_of_eq (Nat.zero_add _))

end TaskTable

end ScriptMachine
