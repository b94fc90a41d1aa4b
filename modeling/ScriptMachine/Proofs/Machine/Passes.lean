import Mathlib.Data.List.Nodup
import ScriptMachine.Proofs.Machine.Fate
import ScriptMachine.Proofs.Machine.Isolation

/-!
# Whom a pass serves

A pass goes from id to id while the turns that it gives start tasks and stop others. All the same it
serves everyone once and in order (`Machine.tick_serves_once`), and who comes and goes makes no
difference to anybody else.

To say so, a pass is taken apart into its visits (`Visits`), that is, the tasks that it comes to,
each with the machine as the pass has found it. The last visit may be one that is not over, and for
all that is known never will be. A task counts by what it is when the pass arrives at its id
(`arrival`), which is when the pass comes to the first task that has this id or a greater one.

Two facts carry the proof. Ids ascend along the visits (`Visits.ascending`), because each visit is
found by a search above the id of the one before; so nobody is visited twice. And a search never
jumps over anybody who is live at that moment; so who is live on arrival is visited
(`Visits.mem_of_arrival`). Tasks that are started in the middle of a pass get ids above all that
were given away, and the task that is being served has one of those (`Runs.newcomers`); so the pass
has yet to arrive at them.
-/

namespace ScriptMachine

/-! ### The next task of a pass -/

namespace TaskTable

variable {table : TaskTable} {cursor : Option UInt32} {t : Task}

/-- The task that comes next is the one with the least id above the cursor. -/
theorem after?_eq_some (h : table.after? cursor = some t) :
    (∀ id ∈ cursor, id < t.id) ∧
      ∀ u ∈ table.toList, (∀ id ∈ cursor, id < u.id) → t.id ≤ u.id := by
  -- the table is ascending, so what is found first is the least one
  cases cursor with
  | none =>
    refine ⟨nofun, fun u h_u _ => ?_⟩
    obtain ⟨rest, h_list⟩ := List.head?_eq_some_iff.1 h
    have h_ascending := table.ascending
    rw [h_list, List.pairwise_cons] at h_ascending
    rw [h_list] at h_u
    rcases List.mem_cons.1 h_u with rfl | h_rest
    · exact UInt32.le_refl _
    · exact UInt32.le_of_lt (h_ascending.1 u h_rest)
  | some id =>
    obtain ⟨h_above, before, after, h_list, h_before⟩ := List.find?_eq_some_iff_append.1 h
    refine ⟨fun c h_c => ?_, fun u h_u h_lt => ?_⟩
    · obtain rfl := Option.some.inj h_c
      simpa using h_above
    · have h_ascending := table.ascending
      rw [h_list, List.pairwise_append, List.pairwise_cons] at h_ascending
      rw [h_list] at h_u
      rcases List.mem_append.1 h_u with h_u | h_u
      · -- those before it are not above the cursor
        have h_not := h_before u h_u
        simp [h_lt id rfl] at h_not
      · rcases List.mem_cons.1 h_u with rfl | h_u
        · exact UInt32.le_refl _
        · exact UInt32.le_of_lt (h_ascending.2.1.1 u h_u)

/-- Nobody comes next if there is nobody above the cursor. -/
theorem not_above_of_after?_eq_none (h : table.after? cursor = none) {u : Task}
    (h_u : u ∈ table.toList) : ¬ ∀ id ∈ cursor, id < u.id := by
  intro h_above
  cases cursor with
  | none =>
    have h_list : table.toList = [] := List.head?_eq_none_iff.1 h
    rw [h_list] at h_u
    exact List.not_mem_nil h_u
  | some id =>
    have h_not := List.find?_eq_none.1 h u h_u
    exact h_not (decide_eq_true (h_above id rfl))

/-- Nobody is jumped over. -/
theorem eq_of_after? {id : UInt32} {u : Task} (h : table.after? cursor = some t)
    (h_id : ∀ c ∈ cursor, c < id) (h_le : id ≤ t.id) (h_find : table.find? id = some u) :
    u = t := by
  obtain ⟨h_mem, rfl⟩ := find?_eq_some_iff.1 h_find
  have h_least : t.id ≤ u.id := (after?_eq_some h).2 u h_mem h_id
  have h_t : t ∈ table.toList := mem_of_find? (find?_of_after? h)
  exact eq_of_id_eq h_mem h_t (UInt32.le_antisymm h_le h_least)

end TaskTable

/-! ### Visits -/

/-- A task that a pass comes to, and the machine as the pass finds it. -/
structure Visit where
  task : Task
  machine : Machine

/-- The visits of a pass from a cursor on, and the machine that it leaves. A pass under way leaves
none yet, and its last visit is not over. -/
inductive Visits (serve : Task → Machine → Option Machine) :
    Option UInt32 → Machine → List Visit → Option Machine → Prop
  | ended {cursor : Option UInt32} {m : Machine} (h_none : m.tasks.after? cursor = none) :
      Visits serve cursor m [] (some m)
  | begun {cursor : Option UInt32} {m : Machine} {t : Task}
      (h_next : m.tasks.after? cursor = some t) : Visits serve cursor m [⟨t, m⟩] none
  | cons {cursor : Option UInt32} {m m₁ : Machine} {t : Task} {visits : List Visit}
      {ending : Option Machine} (h_next : m.tasks.after? cursor = some t)
      (h_turn : serve t m = some m₁) (h_rest : Visits serve (some t.id) m₁ visits ending) :
      Visits serve cursor m (⟨t, m⟩ :: visits) ending

/-- The machine when a pass arrives at an id, which is at the first visit of this id or a greater
one, or else at the end. There is none if the pass has not come that far. -/
def arrival (ending : Option Machine) (id : UInt32) : List Visit → Option Machine
  | [] => ending
  | v :: visits => if id ≤ v.task.id then some v.machine else arrival ending id visits

/-- A pass that comes to an end is made of visits. -/
theorem Machine.pass_eq_some_iff {serve : Task → Machine → Option Machine}
    {cursor : Option UInt32} {m m' : Machine} :
    m.pass serve cursor = some m' ↔ ∃ visits, Visits serve cursor m visits (some m') := by
  constructor
  · -- along the pass, which tells who is visited and with what machine
    intro h
    induction cursor, m using Machine.pass.induct serve with
    | case1 cursor m h_after =>
      rw [Machine.pass, h_after] at h
      cases h
      exact ⟨[], .ended h_after⟩
    | case2 cursor m t h_after h_none =>
      rw [Machine.pass, h_after] at h
      simp only [h_none] at h
      contradiction
    | case3 cursor m t h_after m₁ h_some ih =>
      rw [Machine.pass, h_after] at h
      simp only [h_some] at h
      obtain ⟨visits, h_visits⟩ := ih h
      exact ⟨_, .cons h_after h_some h_visits⟩
  · -- along the visits, each of which is a turn of the pass
    rintro ⟨visits, h⟩
    generalize h_ending : some m' = ending at h
    induction h with
    | ended h_none => rw [Machine.pass, h_none, ← h_ending]
    | begun => contradiction
    | cons h_next h_turn _ ih =>
      rw [Machine.pass, h_next]
      simp only [h_turn]
      exact ih h_ending

namespace Visits

variable {serve : Task → Machine → Option Machine} {cursor : Option UInt32} {m : Machine}
  {visits : List Visit} {ending : Option Machine} {id : UInt32}

/-- **In order.** The ids of those that are visited ascend, from the cursor on. -/
theorem ascending (h : Visits serve cursor m visits ending) :
    (visits.map (·.task.id)).Pairwise (· < ·) ∧
      ∀ v ∈ visits, ∀ c ∈ cursor, c < v.task.id := by
  induction h with
  | ended => exact ⟨.nil, fun v h_v => absurd h_v List.not_mem_nil⟩
  | begun h_next =>
    refine ⟨List.pairwise_singleton .., fun v h_v => ?_⟩
    rw [List.mem_singleton.1 h_v]
    exact (TaskTable.after?_eq_some h_next).1
  | cons h_next _ _ ih =>
    -- each visit is above the one before, which is the cursor of the rest
    obtain ⟨h_pairwise, h_above⟩ := ih
    have h_first := (TaskTable.after?_eq_some h_next).1
    refine ⟨List.pairwise_cons.2 ⟨fun id h_id => ?_, h_pairwise⟩, fun v h_v c h_c => ?_⟩
    · obtain ⟨v, h_v, rfl⟩ := List.mem_map.1 h_id
      exact h_above v h_v _ rfl
    · rcases List.mem_cons.1 h_v with rfl | h_v
      · exact h_first c h_c
      · exact UInt32.lt_trans (h_first c h_c) (h_above v h_v _ rfl)

/-- Who is visited is there, and it is its own arrival. -/
theorem arrival_of_mem (h : Visits serve cursor m visits ending) {v : Visit} (h_v : v ∈ visits) :
    arrival ending v.task.id visits = some v.machine ∧
      v.machine.tasks.find? v.task.id = some v.task := by
  induction h with
  | ended => contradiction
  | begun h_next =>
    obtain rfl := List.mem_singleton.1 h_v
    exact ⟨if_pos (UInt32.le_refl _), TaskTable.find?_of_after? h_next⟩
  | cons h_next _ h_rest ih =>
    rcases List.mem_cons.1 h_v with rfl | h_v
    · exact ⟨if_pos (UInt32.le_refl _), TaskTable.find?_of_after? h_next⟩
    · -- a later visit is not where the pass arrives first
      have h_above := h_rest.ascending.2 v h_v _ rfl
      rw [arrival, if_neg (UInt32.not_le.2 h_above)]
      exact ih h_v

/-- **Nobody is left out.** Who is live when the pass arrives at its id is visited. -/
theorem mem_of_arrival (h : Visits serve cursor m visits ending) (h_id : ∀ c ∈ cursor, c < id)
    {n : Machine} {t : Task} (h_arrival : arrival ending id visits = some n)
    (h_find : n.tasks.find? id = some t) : ⟨t, n⟩ ∈ visits := by
  -- along the visits; as long as they are below the id, the pass has not arrived at it
  induction h with
  | ended h_none =>
    obtain rfl := Option.some.inj h_arrival
    obtain ⟨h_mem, rfl⟩ := TaskTable.find?_eq_some_iff.1 h_find
    exact absurd h_id (TaskTable.not_above_of_after?_eq_none h_none h_mem)
  | @begun cursor m u h_next =>
    by_cases h_le : id ≤ u.id
    · rw [arrival, if_pos h_le] at h_arrival
      obtain rfl := Option.some.inj h_arrival
      rw [TaskTable.eq_of_after? h_next h_id h_le h_find]
      exact List.mem_singleton_self _
    · rw [arrival, if_neg h_le] at h_arrival
      contradiction
  | @cons cursor m m₁ u visits ending h_next _ _ ih =>
    by_cases h_le : id ≤ u.id
    · rw [arrival, if_pos h_le] at h_arrival
      obtain rfl := Option.some.inj h_arrival
      rw [TaskTable.eq_of_after? h_next h_id h_le h_find]
      exact List.mem_cons_self
    · -- the pass has not come to this id yet, and goes on above a smaller one
      rw [arrival, if_neg h_le] at h_arrival
      refine List.mem_cons_of_mem _ (ih (fun c h_c => ?_) h_arrival)
      exact Option.some.inj h_c ▸ UInt32.not_le.1 h_le

/-- With the ids of some visits below it, an id is still to be arrived at. -/
theorem arrival_append {before after : List Visit} (h : ∀ v ∈ before, v.task.id < id) :
    arrival ending id (before ++ after) = arrival ending id after := by
  induction before with
  | nil => rfl
  | cons v before ih =>
    have h_v : v.task.id < id := h v List.mem_cons_self
    rw [List.cons_append, arrival, if_neg (UInt32.not_le.2 h_v)]
    exact ih fun u h_u => h u (List.mem_cons_of_mem v h_u)

/-- Above a visit, nothing before it matters. -/
theorem arrival_of_lt {before after : List Visit} {v : Visit}
    (h : Visits serve cursor m (before ++ v :: after) ending) (h_id : v.task.id < id) :
    arrival ending id (before ++ v :: after) = arrival ending id after := by
  have h_pairwise := h.ascending.1
  rw [List.map_append, List.map_cons, List.pairwise_append] at h_pairwise
  rw [List.append_cons]
  refine arrival_append fun u h_u => ?_
  -- all visits up to this one have ids below, so the pass arrives after it
  rcases List.mem_append.1 h_u with h_u | h_u
  · have h_below : u.task.id < v.task.id :=
      h_pairwise.2.2 _ (List.mem_map_of_mem h_u) _ List.mem_cons_self
    exact UInt32.lt_trans h_below h_id
  · exact List.mem_singleton.1 h_u ▸ h_id

/-- What a turn does is a run, and so is what the visits before another one do together. -/
theorem runs (h_serve : ∀ {t m m'}, serve t m = some m' → m.Runs m') {before after : List Visit}
    {v : Visit} (h : Visits serve cursor m (before ++ v :: after) ending) : m.Runs v.machine := by
  induction before generalizing cursor m with
  | nil => cases h <;> exact .refl _
  | cons u before ih =>
    rw [List.cons_append] at h
    generalize h_visits : before ++ v :: after = visits at h
    cases h with
    | begun => simp at h_visits
    | cons _ h_turn h_rest =>
      subst h_visits
      exact (h_serve h_turn).trans (ih h_rest)

end Visits

/-! ### Newcomers -/

namespace Machine

variable {m m' : Machine}

/-- Who was not there before a move and is there after it has the next id. -/
theorem Move.absent (h : Move m m') {id : UInt32} (h_none : m.tasks.find? id = none) :
    m'.tasks.find? id = none ∨ id = m.highestTask + 1 ∧ m'.started = m.started + 1 := by
  -- only a start brings somebody into the table, and it is under the next id
  cases h with
  | exchange h => exact .inl (find?_eq_none_of_standing? (h.confined.standing id) h_none)
  | store task _ v =>
    exact .inl (find?_eq_none_of_standing? ((confined_writeVariable m task _ v).standing id) h_none)
  | spawn script _ =>
    have h_began := began_spawn m script
    by_cases h_id : id = m.highestTask + 1
    · exact .inr ⟨h_id, h_began.started⟩
    · exact .inl (find?_eq_none_of_standing? (h_began.standing h_id) h_none)
  | call task script _ _ =>
    have h_began := began_spawn m script
    by_cases h_id : id = m.highestTask + 1
    · exact .inr ⟨h_id, h_began.started⟩
    · have h_still := find?_eq_none_of_standing? (h_began.standing h_id) h_none
      exact .inl (find?_updateTask_eq_none h_still task _)
  | remove task =>
    left
    cases h_find : m.tasks.find? task with
    | none =>
      unfold Machine.remove
      rw [h_find]
      exact h_none
    | some t =>
      rw [remove_eq h_find]
      dsimp only
      rw [TaskTable.find?_erase, h_none, ite_self]
  | steer task | halt task => exact .inl (find?_updateTask_eq_none h_none task _)
  | release mask =>
    left
    unfold Machine.release
    rw [TaskTable.find?_map, h_none]
    rfl
  | mark => exact .inl h_none

/-- The tasks that were started in a stretch of a run have greater ids than any before, as long as
ids do not wrap around. -/
structure Newcomers (m m' : Machine) : Prop where
  accounts : Accounts m m'
  above (h_ids : m.IdsGiven)
    (h_room : m.highestTask.toNat + (m'.started - m.started) < UInt32.size) {id : UInt32} {t : Task}
    (h_before : m.tasks.find? id = none) (h_after : m'.tasks.find? id = some t) :
    m.highestTask < id

namespace Newcomers

theorem of_tasks_eq (h : Accounts m m') (h_tasks : m'.tasks = m.tasks) : Newcomers m m' := by
  refine ⟨h, fun _ _ id t h_before h_after => ?_⟩
  rw [h_tasks, h_before] at h_after
  contradiction

theorem trans {m'' : Machine} (h : Newcomers m m') (h' : Newcomers m' m'') :
    Newcomers m m'' := by
  refine ⟨h.accounts.trans h'.accounts, fun h_ids h_room id t h_before h_after => ?_⟩
  have h_le := h.accounts.started_le
  have h_le' := h'.accounts.started_le
  -- who is new came in the first stretch or in the second
  cases h_mid : m'.tasks.find? id with
  | some u => exact h.above h_ids (by omega) h_before h_mid
  | none =>
    -- started later, so under a still greater id
    obtain ⟨h_ids', h_highest, -⟩ := h.accounts.books h_ids (by omega)
    have h_above := h'.above h_ids' (by omega) h_mid h_after
    rw [UInt32.lt_iff_toNat_lt] at h_above ⊢
    omega

end Newcomers

theorem Move.newcomers (h : Move m m') : Newcomers m m' := by
  refine ⟨h.accounts, fun _ h_room id t h_before h_after => ?_⟩
  rcases h.absent h_before with h_none | ⟨rfl, h_started⟩
  · rw [h_none] at h_after
    contradiction
  · rw [UInt32.lt_iff_toNat_lt, toNat_next (by omega)]
    exact Nat.lt_succ_self _

theorem Runs.newcomers (h : Runs m m') : Newcomers m m' :=
  h.lift (fun m => .of_tasks_eq (.refl m) rfl) Newcomers.trans Move.newcomers
    fun m focus running => .of_tasks_eq (.quiet ⟨⟨[], by simp⟩, rfl, rfl, rfl, rfl⟩) rfl

/-! ### Ticks -/

/-- How the body of a native is carried out in a tick of the next greater bound. -/
def bodies (setting : Setting) (bound : Nat) (body : Routine Unit) (m : Machine) :
    Option Machine :=
  (body.run (tick setting bound) m).map (·.2)

theorem carries_bodies {setting : Setting} (h_setting : setting.Ordinary) (bound : Nat) :
    Carries (bodies setting bound) := by
  intro body h_body m m' h
  obtain ⟨⟨_, m₁⟩, h_run, rfl⟩ := Option.map_eq_some_iff.1 h
  exact body.runs (runs_tick h_setting bound) h_body h_run

end Machine

/-- The ids of those who get a turn at a visit, in the order of the visits: of all who are not
skipped (`Pass.turn_eq`). -/
def Pass.served (p : Pass) (mask : ScriptKind) (visits : List Visit) : List UInt32 :=
  (visits.filter fun v => p.service mask v.task != .skip).map (·.task.id)

theorem Visits.mem_served_iff {serve : Task → Machine → Option Machine} {m : Machine}
    {visits : List Visit} {ending : Option Machine} (h : Visits serve none m visits ending)
    {p : Pass} {mask : ScriptKind} {id : UInt32} :
    id ∈ p.served mask visits ↔ ∃ n t, arrival ending id visits = some n ∧
      n.tasks.find? id = some t ∧ p.service mask t ≠ .skip := by
  unfold Pass.served
  constructor
  · -- who is served was visited, and found such as it was when the pass arrived
    intro h_mem
    obtain ⟨v, h_v, rfl⟩ := List.mem_map.1 h_mem
    obtain ⟨h_v, h_service⟩ := List.mem_filter.1 h_v
    obtain ⟨h_arrival, h_find⟩ := h.arrival_of_mem h_v
    exact ⟨v.machine, v.task, h_arrival, h_find, bne_iff_ne.1 h_service⟩
  · -- and who is there when the pass arrives is visited
    rintro ⟨n, t, h_arrival, h_find, h_service⟩
    have h_v : ⟨t, n⟩ ∈ visits := h.mem_of_arrival nofun h_arrival h_find
    refine List.mem_map.2 ⟨⟨t, n⟩, List.mem_filter.2 ⟨h_v, ?_⟩, TaskTable.id_of_find? h_find⟩
    exact bne_iff_ne.2 h_service

theorem Pass.normal_service_ne_skip_iff {mask : ScriptKind} {t : Task} :
    Pass.normal.service mask t ≠ .skip ↔
      t.kind.overlaps mask ∧ t.inHandler = false ∧ t.isWaiting = false := by
  unfold Pass.service
  split <;> simp_all

/-- How a pass serves the tasks, in a tick that has begun with `m`. -/
structure Orderly (p : Pass) (serve : Task → Machine → Option Machine) (mask : ScriptKind)
    (m : Machine) (visits : List Visit) (ending : Option Machine) : Prop where
  /-- Turns are given in ascending order of id. -/
  ascending : (p.served mask visits).Pairwise (· < ·)
  /-- A task gets one turn if it is live when the pass arrives at its id and the pass does not skip
  it as it is then, and otherwise it gets none. -/
  once (id : UInt32) : (p.served mask visits).count id = 1 ↔
    ∃ n t, arrival ending id visits = some n ∧ n.tasks.find? id = some t ∧
      p.service mask t ≠ .skip
  /-- Who is started in a turn has a greater id than the one whose turn it is, so the pass arrives
  at it after that turn. -/
  newcomers {before after : List Visit} {v : Visit} {n : Machine}
    (h_visits : visits = before ++ v :: after) (h_turn : serve v.task v.machine = some n)
    (h_room : m.highestTask.toNat + (n.started - m.started) < UInt32.size) {id : UInt32} {t : Task}
    (h_before : v.machine.tasks.find? id = none) (h_after : n.tasks.find? id = some t) :
    v.task.id < id ∧ arrival ending id visits = arrival ending id after

theorem Visits.orderly {serve : Task → Machine → Option Machine}
    (h_serve : ∀ {t m m'}, serve t m = some m' → m.Runs m') {m m₁ : Machine} (h_ids : m.IdsGiven)
    (h_runs : m.Runs m₁) {visits : List Visit} {ending : Option Machine}
    (h : Visits serve none m₁ visits ending) (p : Pass) (mask : ScriptKind) :
    Orderly p serve mask m visits ending := by
  have h_ascending : (p.served mask visits).Pairwise (· < ·) :=
    h.ascending.1.sublist (List.filter_sublist.map _)
  refine ⟨h_ascending, fun id => ?_, ?_⟩
  · -- ids ascend, so nobody is served twice, and to be served once is to be served
    have h_nodup : (p.served mask visits).Nodup := h_ascending.imp UInt32.ne_of_lt
    rw [← h.mem_served_iff, h_nodup.count]
    split <;> simp_all
  · rintro before after v n rfl h_turn h_room id t h_before h_after
    have h_past : m.Runs v.machine := h_runs.trans (h.runs h_serve)
    have h_turn_runs : v.machine.Runs n := h_serve h_turn
    have h_le := h_past.accounts.started_le
    have h_le' := h_turn_runs.accounts.started_le
    -- whoever is served has an id that was given away, and who is new has a greater one
    obtain ⟨h_given, h_highest, -⟩ := h_past.accounts.books h_ids (by omega)
    have h_above : v.machine.highestTask < id :=
      h_turn_runs.newcomers.above h_given (by omega) h_before h_after
    have h_v : v.machine.tasks.find? v.task.id = some v.task :=
      (h.arrival_of_mem (List.mem_append_right _ List.mem_cons_self)).2
    have h_lt : v.task.id < id :=
      UInt32.lt_of_le_of_lt (h_given v.task (TaskTable.mem_of_find? h_v)) h_above
    exact ⟨h_lt, h.arrival_of_lt h_lt⟩

theorem Pass.runs_turn {setting : Setting} {carryOut : Routine Unit → Machine → Option Machine}
    (h_setting : setting.Ordinary) (h_carry : Machine.Carries carryOut) {budget : Nat}
    {mask : ScriptKind} (p : Pass) {t : Task} {m m' : Machine}
    (h : p.turn setting carryOut budget mask t m = some m') : m.Runs m' := by
  cases p with
  | handlers => exact Machine.runs_handlerTurn h_setting h_carry h
  | normal => exact Machine.runs_normalTurn h_setting h_carry h

/-- **A pass serves everyone once and in order.** Who is skipped at a visit is left alone, and who is
not gets one slice, in the handler to which it is diverted if it is. A tick is two passes and its
end. In both passes turns are given in ascending order of id, and whoever is live when a pass
arrives at its id, and is then such as the pass serves, gets exactly one. That holds whoever came or
went before. Those who are started in a turn come after it. It is true of ticks that never come to
an end, too, as far as they go. -/
theorem Machine.tick_serves_once {setting : Setting} (h_setting : setting.Immediate) (bound : Nat)
    (mask : ScriptKind) {m : Machine} (h_ids : m.IdsGiven) :
    let turn (p : Pass) := p.turn setting (bodies setting bound) (bound + 1) mask
    (∀ p t n, turn p t n =
      match p.service mask t with
      | .skip => some n
      | .serve => n.slice setting (bodies setting bound) (bound + 1) t.id
      | .divert address =>
        (n.divert t.id address).slice setting (bodies setting bound) (bound + 1) t.id) ∧
    (∀ m', tick setting (bound + 1) mask m = some m' ↔ ∃ first m₁ second m₂,
      Visits (turn .handlers) none m first (some m₁) ∧
      Visits (turn .normal) none m₁ second (some m₂) ∧ m' = m₂.settle mask) ∧
    (∀ first ending, Visits (turn .handlers) none m first ending →
      Orderly .handlers (turn .handlers) mask m first ending) ∧
    ∀ first m₁ second ending, Visits (turn .handlers) none m first (some m₁) →
      Visits (turn .normal) none m₁ second ending →
      Orderly .normal (turn .normal) mask m second ending ∧
      ∀ id, (Pass.normal.served mask second).count id = 1 ↔
        ∃ n t, arrival ending id second = some n ∧ n.tasks.find? id = some t ∧
          t.kind.overlaps mask ∧ t.inHandler = false ∧ t.isWaiting = false := by
  intro turn
  -- turns are runs of the machine, so what is known of runs holds of them
  have h_turn (p : Pass) {t : Task} {m m' : Machine} (h : turn p t m = some m') : m.Runs m' :=
    p.runs_turn h_setting.ordinary (carries_bodies h_setting.ordinary bound) h
  refine ⟨fun p t n => p.turn_eq t n, fun m' => ?_, fun first ending h_first => ?_, ?_⟩
  · -- a tick is its two passes and the end, and a pass is its visits
    have h_tick : tick setting (bound + 1) mask m =
        (m.pass (turn .handlers) none).bind fun m₁ =>
          (m₁.pass (turn .normal) none).bind fun m₂ => some (m₂.settle mask) := rfl
    rw [h_tick]
    simp only [Option.bind_eq_some_iff, pass_eq_some_iff, Option.some.injEq]
    constructor
    · rintro ⟨m₁, ⟨first, h_first⟩, m₂, ⟨second, h_second⟩, rfl⟩
      exact ⟨first, m₁, second, m₂, h_first, h_second, rfl⟩
    · rintro ⟨first, m₁, second, m₂, h_first, h_second, rfl⟩
      exact ⟨m₁, ⟨first, h_first⟩, m₂, ⟨second, h_second⟩, rfl⟩
  · exact h_first.orderly (h_turn .handlers) h_ids (.refl m) .handlers mask
  · intro first m₁ second ending h_first h_second
    -- the second pass begins where the first one has led
    have h_runs : m.Runs m₁ :=
      runs_pass (h_turn .handlers) (pass_eq_some_iff.2 ⟨first, h_first⟩)
    have h_orderly := h_second.orderly (h_turn .normal) h_ids h_runs .normal mask
    refine ⟨h_orderly, fun id => ?_⟩
    rw [h_orderly.once]
    simp only [Pass.normal_service_ne_skip_iff]

/-- The second task has had its turn as well. -/
def helpedTwiceMachine : Machine :=
  (helpedMachine.slice unboundSetting Machine.noBody 5 2).getD {}

/-- The turns of a tick of `helpingMachine`. -/
def helpingTurn (p : Pass) : Task → Machine → Option Machine :=
  p.turn unboundSetting (Machine.bodies unboundSetting 4) 5 .all

/-- Nobody has a handler, so the first pass changes nothing. -/
theorem visits_handlers_helping :
    ∃ first, Visits (helpingTurn .handlers) none helpingMachine first (some helpingMachine) := by
  have h_main : helpingMachine.tasks.after? none =
    some (Task.start 1 ⟨"Main", "", .script, 0, [], 0, 0, 1⟩) := by decide +kernel
  have h_help : helpingMachine.tasks.after? (some 1) =
    some (Task.start 2 ⟨"Help", "", .help, 0, [], 3, 0, 2⟩) := by decide +kernel
  have h_last : helpingMachine.tasks.after? (some 2) = none := by decide +kernel
  exact ⟨_, .cons h_main rfl (.cons h_help rfl (.ended h_last))⟩

/-- The second pass comes to a task that the first turn in it has started. -/
theorem visits_normal_helping :
    Visits (helpingTurn .normal) none helpingMachine
      [⟨Task.start 1 ⟨"Main", "", .script, 0, [], 0, 0, 1⟩, helpingMachine⟩,
        ⟨Task.start 2 ⟨"Help", "", .help, 0, [], 3, 0, 2⟩, helpedMachine⟩,
        ⟨Task.start 3 ⟨"Help", "", .help, 0, [], 3, 0, 2⟩, helpedTwiceMachine⟩] none := by
  refine .cons (by decide +kernel) (?_ : _ = some helpedMachine)
    (.cons (by decide +kernel) (?_ : _ = some helpedTwiceMachine) (.begun (by decide +kernel)))
  · decide +kernel
  · decide +kernel

/-- The first of two tasks starts a third one, which gets its turn in the same pass. -/
theorem tick_serves_once_helping :
    unboundSetting.Immediate ∧ helpingMachine.IdsGiven ∧ helpingMachine.tasks.find? 3 = none ∧
    ∃ visits, Visits (helpingTurn .normal) none helpingMachine visits none ∧
      (Pass.normal.served .all visits).Pairwise (· < ·) ∧
      (Pass.normal.served .all visits).count 3 = 1 := by
  have h_setting : unboundSetting.Immediate := by
    intro native h_native body h_body
    rw [unboundSetting_unbound native h_native] at h_body
    contradiction
  have h_ids : helpingMachine.IdsGiven := by
    unfold State.IdsGiven
    decide +kernel
  obtain ⟨-, -, -, h_normal⟩ := Machine.tick_serves_once h_setting 4 .all h_ids
  obtain ⟨first, h_first⟩ := visits_handlers_helping
  obtain ⟨h_orderly, h_once⟩ := h_normal first _ _ _ h_first visits_normal_helping
  have h_third : helpedTwiceMachine.tasks.find? 3 =
    some (Task.start 3 ⟨"Help", "", .help, 0, [], 3, 0, 2⟩) := by decide +kernel
  refine ⟨h_setting, h_ids, by decide +kernel, _, visits_normal_helping, h_orderly.ascending, ?_⟩
  exact (h_once 3).2 ⟨helpedTwiceMachine, _, rfl, h_third, rfl, rfl, rfl⟩

end ScriptMachine
