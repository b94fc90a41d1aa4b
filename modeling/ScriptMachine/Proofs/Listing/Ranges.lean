import ScriptMachine.Proofs.Listing.Labels

/-!
# Which script an address belongs to

There are two answers to that. A listing goes through the code of each script, from its entry
through its first `END`. A look-up (`Symbols.scriptAt?`) takes the script with the greatest entry at
or below the address, wherever that script ends. They agree where no two scripts have code in common
(`Program.scriptAt?_agrees`), in whatever order the scripts stand in the table.

It comes down to intervals: the addresses of a script are those from its entry up to some end
(`Program.holds_iff`). So if a script began between the entry of another one and an address of
it, it would begin in the code of that one, and have its first instruction in common with it
(`Program.Holds.entry_lt`). Scripts that begin past the end of the code have no code and are below
no address that has an instruction.
-/

namespace ScriptMachine

namespace Program

/-- The address is one of the script's code. -/
def Holds (p : Program) (s : Script) (n : Nat) : Prop := ∃ i, p.InRange s n i

/-- No two scripts of the table have code in common. -/
def Apart (p : Program) : Prop := p.scripts.Pairwise fun s t => ∀ n, ¬(p.Holds s n ∧ p.Holds t n)

variable {p : Program} {s t : Script} {m n : Nat}

/-- The addresses of a script are an interval. -/
theorem holds_iff : p.Holds s n ↔
    s.entry.toNat ≤ n ∧ n < s.entry.toNat + (p.body s).length := by
  constructor
  · rintro ⟨i, h⟩
    have h_n : s.entry.toNat + (n - s.entry.toNat) = n := Nat.add_sub_cancel' h.entered
    -- An address with an END below it has no place in the body, so the body is as long as the
    -- range.
    have h_get := getElem?_body.2 ⟨h_n.symm ▸ h, rfl⟩
    have h_lt := (List.getElem?_eq_some_iff.1 h_get).1
    exact ⟨h.entered, by omega⟩
  · rintro ⟨h_entered, h_lt⟩
    have h_n : s.entry.toNat + (n - s.entry.toNat) = n := Nat.add_sub_cancel' h_entered
    have h_get : (p.body s)[n - s.entry.toNat]? = some _ := List.getElem?_eq_getElem (by omega)
    obtain ⟨h, -⟩ := getElem?_body.1 h_get
    exact ⟨_, h_n ▸ h⟩

theorem holds_entry (h : s.entry.toNat < p.code.length) : p.Holds s s.entry.toNat :=
  ⟨p.code[s.entry.toNat], Nat.le_refl _, List.getElem?_eq_getElem h, fun k _ h_k h_lt => by omega⟩

theorem Holds.lt_length (h : p.Holds s n) : n < p.code.length := by
  obtain ⟨i, h_i⟩ := h
  exact (List.getElem?_eq_some_iff.1 h_i.found).1

/-- A script that begins at or below an address of another one begins before that one does. -/
theorem Holds.entry_lt (h : p.Holds s n) (h_apart : ∀ m, ¬(p.Holds s m ∧ p.Holds t m))
    (h_le : t.entry.toNat ≤ n) : t.entry.toNat < s.entry.toNat := by
  -- Otherwise the beginning of the other script is an address of both.
  refine Nat.lt_of_not_le fun h_entered => h_apart t.entry.toNat ⟨?_, ?_⟩
  · rw [holds_iff] at h ⊢
    omega
  · exact holds_entry (Nat.lt_of_le_of_lt h_le h.lt_length)

end Program

/-! ### Lines of code -/

namespace Symbols

variable {symbols : Symbols} {s : Script}

/-- The lines of a script's listing that show an instruction. -/
def codeOf (symbols : Symbols) (s : Script) : List ListingLine :=
  (symbols.scriptListing s).filter (·.address?.isSome)

theorem codeOf_eq (symbols : Symbols) (s : Script) : symbols.codeOf s =
    (symbols.program.body s).map fun entry => .code entry.1 (entry.2.render symbols s) := by
  have h_heading : (heading s).filter (·.address?.isSome) = [] := by
    simp [heading, List.filter_eq_nil_iff, ListingLine.address?]
  rw [codeOf, scriptListing_eq, List.filter_append, List.filter_append, filter_codeLines, h_heading]
  exact List.append_nil _

/-- The lines of code are those of the instructions of the script, from its entry on. -/
theorem getElem?_codeOf {k : Nat} {line : ListingLine} : (symbols.codeOf s)[k]? = some line ↔
    ∃ i, symbols.program.InRange s (s.entry.toNat + k) i ∧
      line = .code (UInt32.ofNat (s.entry.toNat + k)) (i.render symbols s) := by
  simp only [codeOf_eq, List.getElem?_map, Option.map_eq_some_iff, Prod.exists,
    Program.getElem?_body]
  constructor
  · rintro ⟨_, i, ⟨h_range, rfl⟩, rfl⟩
    exact ⟨i, h_range, rfl⟩
  · rintro ⟨i, h_range, rfl⟩
    exact ⟨_, i, ⟨h_range, rfl⟩, rfl⟩

/-! ### Looking an address up -/

/-- The better of what was found so far and one more script. -/
def nearer (a : UInt32) (best : Option Script) (s : Script) : Option Script :=
  if s.entry ≤ a && best.all (·.entry ≤ s.entry) then some s else best

theorem scriptAt?_eq_foldl (symbols : Symbols) (a : UInt32) :
    symbols.scriptAt? a = symbols.program.scripts.foldl (nearer a) none := rfl

variable {a : UInt32} {scripts : List Script}

/-- Among scripts with no greater entry, none with a greater one is found. -/
theorem all_foldl_nearer {best : Option Script} (h_best : best.all (·.entry ≤ s.entry))
    (h : ∀ t ∈ scripts, t.entry ≤ a → t.entry ≤ s.entry) :
    (scripts.foldl (nearer a) best).all (·.entry ≤ s.entry) := by
  induction scripts generalizing best with
  | nil => exact h_best
  | cons t scripts ih =>
    refine ih ?_ fun u h_u => h u (List.mem_cons_of_mem t h_u)
    unfold nearer
    split
    · -- the one that takes over is at or below the address, so the hypothesis is about it
      rename_i h_t
      have h_le : t.entry ≤ a := by simpa using (Bool.and_eq_true_iff.1 h_t).1
      simpa using h t List.mem_cons_self h_le
    · exact h_best

/-- Once it is found, a script gives way only to one that is as near. -/
theorem foldl_nearer_some (h : ∀ t ∈ scripts, t.entry ≤ a → t.entry < s.entry) :
    scripts.foldl (nearer a) (some s) = some s := by
  induction scripts with
  | nil => rfl
  | cons t scripts ih =>
    -- A script at or below the address begins before this one, so it does not take over.
    have h_t : nearer a (some s) t = some s := by
      refine if_neg fun h_nearer => ?_
      obtain ⟨h_le, h_ge⟩ : t.entry ≤ a ∧ s.entry ≤ t.entry := by simpa using h_nearer
      exact UInt32.not_le.2 (h t List.mem_cons_self h_le) h_ge
    rw [List.foldl_cons, h_t]
    exact ih fun u h_u => h u (List.mem_cons_of_mem t h_u)

/-- The script with the greatest entry at or below the address is found, and of several the last. -/
theorem scriptAt?_of_nearest {before after : List Script}
    (h_scripts : symbols.program.scripts = before ++ s :: after) (h_le : s.entry ≤ a)
    (h_before : ∀ t ∈ before, t.entry ≤ a → t.entry ≤ s.entry)
    (h_after : ∀ t ∈ after, t.entry ≤ a → t.entry < s.entry) :
    symbols.scriptAt? a = some s := by
  -- What was found up to this script is no nearer, so the script takes over; what comes later
  -- leaves it.
  have h_best : (before.foldl (nearer a) none).all (·.entry ≤ s.entry) :=
    all_foldl_nearer rfl h_before
  have h_s : nearer a (before.foldl (nearer a) none) s = some s :=
    if_pos (by simp [h_best, h_le])
  rw [scriptAt?_eq_foldl, h_scripts, List.foldl_append, List.foldl_cons, h_s]
  exact foldl_nearer_some h_after

end Symbols

/-- **Listings and look-ups agree.** In a program whose scripts have no code in common, the lines of
code in the listing of a script are those of the addresses of the script, one after the other from
its entry on, and each of these addresses is looked up as one of that script. -/
theorem Program.scriptAt?_agrees (p : Program) (natives : List String) (h : p.Apart) :
    ∀ s ∈ p.scripts,
      (∀ k line, ((p.symbols natives).codeOf s)[k]? = some line ↔
        ∃ i, p.InRange s (s.entry.toNat + k) i ∧
          line = .code (UInt32.ofNat (s.entry.toNat + k)) (i.render (p.symbols natives) s)) ∧
      ∀ a : UInt32, p.Holds s a.toNat → (p.symbols natives).scriptAt? a = some s := by
  intro s h_s
  refine ⟨fun k line => Symbols.getElem?_codeOf, fun a h_a => ?_⟩
  -- The table is not sorted. What decides is that any other script that begins at or below the
  -- address begins before this one, wherever it stands in the table.
  obtain ⟨before, after, h_scripts⟩ := List.mem_iff_append.1 h_s
  rw [Apart, h_scripts, List.pairwise_append, List.pairwise_cons] at h
  obtain ⟨-, ⟨h_after, -⟩, h_before⟩ := h
  refine Symbols.scriptAt?_of_nearest h_scripts (UInt32.le_iff_toNat_le.2 ?_)
    (fun t h_t h_le => ?_) fun t h_t h_le => ?_
  · obtain ⟨i, h_i⟩ := h_a
    exact h_i.entered
  · have h_apart (m : Nat) : ¬(p.Holds s m ∧ p.Holds t m) :=
      fun ⟨h_m, h_m'⟩ => h_before t h_t s List.mem_cons_self m ⟨h_m', h_m⟩
    have h_lt := h_a.entry_lt h_apart (UInt32.le_iff_toNat_le.1 h_le)
    exact UInt32.le_iff_toNat_le.2 h_lt.le
  · have h_lt := h_a.entry_lt (h_after t h_t) (UInt32.le_iff_toNat_le.1 h_le)
    exact UInt32.lt_iff_toNat_lt.2 h_lt

/-- The first script of the table comes last in the code, which ends without an `END`, and two
scripts begin at the same place behind the code. -/
def scattered : Program :=
  { code := [⟨.sleep, 0, .int, 0, 0⟩, ⟨.finish, 0, .int, 0, 0⟩, ⟨.sleep, 0, .int, 0, 0⟩,
      ⟨.swap, 0, .int, 0, 0⟩]
    scripts := [⟨"Late", "", .script, 0, [], 2, 0, 1⟩, ⟨"Lost", "", .script, 0, [], 9, 0, 2⟩,
      ⟨"Early", "", .script, 0, [], 0, 0, 3⟩, ⟨"Gone", "", .script, 0, [], 9, 0, 4⟩] }

theorem scriptAt?_agrees_scattered : scattered.Apart ∧
    scattered.Holds ⟨"Late", "", .script, 0, [], 2, 0, 1⟩ 3 ∧
    (scattered.symbols []).scriptAt? 3 = some ⟨"Late", "", .script, 0, [], 2, 0, 1⟩ := by
  have h_ends : scattered.scripts.Pairwise fun s t =>
      s.entry.toNat + (scattered.body s).length ≤ t.entry.toNat ∨
      t.entry.toNat + (scattered.body t).length ≤ s.entry.toNat := by
    decide +kernel
  have h_apart : scattered.Apart := h_ends.imp fun h n ⟨h_s, h_t⟩ => by
    rw [Program.holds_iff] at h_s h_t
    omega
  have h_holds : scattered.Holds ⟨"Late", "", .script, 0, [], 2, 0, 1⟩ 3 :=
    Program.holds_iff.2 (by decide +kernel)
  exact ⟨h_apart, h_holds,
    (Program.scriptAt?_agrees scattered [] h_apart _ List.mem_cons_self).2 3 h_holds⟩

end ScriptMachine
