import Mathlib.Data.List.Sort
import Mathlib.Data.List.TakeWhile
import ScriptMachine.Dump
import ScriptMachine.Proofs.Image.RoundTrip

/-!
# The text pool in a dump

A pool holds texts, each of which begins at the beginning or behind a zero byte (`textStarts`). A
dump lists texts of the pool with their offsets. It finds them by walking from one to the next, and
it measures its steps by the texts as they are shown and not by the bytes of the pool. Where the two
differ, it gets out of step. What is true of the walk in any case, and when it is in step, is
`Dump.data_listed`.

Bytes that are no text are shown as a replacement character, which may take more bytes than it
stands for and never takes fewer (`Text.length_le_size_decode`). So a walk that gets out of step
skips something, and does not come back to the beginning that it has passed.
-/

namespace ScriptMachine

/-! ### The texts of a pool -/

/-- A text begins at the beginning of a pool, and behind a zero byte. -/
def BeginsText (data : List UInt8) (n : Nat) : Prop := n = 0 ∨ data[n - 1]? = some 0

instance (data : List UInt8) : DecidablePred (BeginsText data) := fun n =>
  inferInstanceAs (Decidable (n = 0 ∨ data[n - 1]? = some 0))

/-- Where the texts of a pool begin, in ascending order. -/
def textStarts (data : List UInt8) : List Nat :=
  (List.range data.length).filter (BeginsText data ·)

/-- The bytes of the text at an offset, without the zero byte that ends it. -/
def textBytes (data : List UInt8) (n : Nat) : List UInt8 := (data.drop n).takeWhile (· != 0)

variable {data : List UInt8} {n : Nat}

theorem textAt?_of_le (h : n ≤ data.length) :
    textAt? data n = some (Text.decode (textBytes data n)) := if_pos h

/-- There is no zero byte in a text. -/
theorem ne_zero_of_lt {k : Nat} (h : k < (textBytes data n).length) : data[n + k]? ≠ some 0 := by
  have h_byte : ((textBytes data n)[k] != 0) = true :=
    List.mem_takeWhile_imp (p := (· != 0)) (List.getElem_mem h)
  have h_get := List.prefix_iff_getElem?.1 (List.takeWhile_prefix (l := data.drop n) (· != 0)) k h
  rw [List.getElem?_drop] at h_get
  rw [h_get]
  exact fun h_zero => bne_iff_ne.1 h_byte (Option.some.inj h_zero)

/-- A text ends with the pool or at a zero byte. -/
theorem eq_zero_of_lt (h : n + (textBytes data n).length < data.length) :
    data[n + (textBytes data n).length]? = some 0 := by
  have h_split : textBytes data n ++ (data.drop n).dropWhile (· != 0) = data.drop n :=
    List.takeWhile_append_dropWhile
  have h_head := List.head?_dropWhile_not (· != 0) (data.drop n)
  rw [← List.getElem?_drop, ← h_split, List.getElem?_append_right (Nat.le_refl _), Nat.sub_self,
    ← List.head?_eq_getElem?]
  cases h_rest : (data.drop n).dropWhile (· != 0) with
  | nil =>
    -- then the text would be all that is left
    have h_length := congrArg List.length h_split
    rw [h_rest, List.append_nil, List.length_drop] at h_length
    omega
  | cons byte rest =>
    rw [h_rest] at h_head
    simpa using h_head

/-! ### From one text to the next -/

/-- Where the text behind the one at an offset begins, if there is one. -/
def nextStart (data : List UInt8) (n : Nat) : Nat := n + (textBytes data n).length + 1

theorem lt_nextStart (data : List UInt8) (n : Nat) : n < nextStart data n :=
  Nat.lt_succ_of_le (Nat.le_add_right ..)

theorem beginsText_nextStart (h : nextStart data n < data.length) :
    BeginsText data (nextStart data n) :=
  .inr (eq_zero_of_lt (Nat.lt_of_succ_lt h))

/-- Between two beginnings there is none. -/
theorem not_beginsText {k : Nat} (h : n < k) (h' : k < nextStart data n) : ¬ BeginsText data k := by
  unfold nextStart at h'
  rintro (h_zero | h_zero)
  · omega
  · -- A later beginning stands right behind a zero byte, and a text has none inside.
    have h_inside : data[n + (k - 1 - n)]? ≠ some 0 := ne_zero_of_lt (by omega)
    rw [show n + (k - 1 - n) = k - 1 by omega] at h_inside
    exact h_inside h_zero

/-- The texts that begin at an offset or behind it. -/
def startsFrom (data : List UInt8) (n : Nat) : List Nat :=
  (List.range' n (data.length - n)).filter (BeginsText data ·)

theorem textStarts_eq (data : List UInt8) : textStarts data = startsFrom data 0 := by
  unfold textStarts startsFrom
  rw [List.range_eq_range', Nat.sub_zero]

theorem startsFrom_of_le (h : data.length ≤ n) : startsFrom data n = [] := by
  unfold startsFrom
  rw [Nat.sub_eq_zero_of_le h]
  rfl

theorem mem_startsFrom {k : Nat} :
    k ∈ startsFrom data n ↔ n ≤ k ∧ k < data.length ∧ BeginsText data k := by
  unfold startsFrom
  rw [List.mem_filter, List.mem_range'_1, decide_eq_true_iff]
  constructor
  · rintro ⟨⟨h_le, h_lt⟩, h_k⟩
    exact ⟨h_le, by omega, h_k⟩
  · rintro ⟨h_le, h_lt, h_k⟩
    exact ⟨⟨h_le, by omega⟩, h_k⟩

theorem pairwise_startsFrom (data : List UInt8) (n : Nat) :
    (startsFrom data n).Pairwise (· < ·) :=
  List.Pairwise.filter _ (List.pairwise_lt_range' 1)

/-- Between a beginning and the next one there is none. -/
theorem startsFrom_of_begins (h : n < data.length) (h_begins : BeginsText data n) :
    startsFrom data n = n :: startsFrom data (nextStart data n) := by
  have h_later := lt_nextStart data n
  have h_pairwise : (n :: startsFrom data (nextStart data n)).Pairwise (· < ·) :=
    List.pairwise_cons.2 ⟨fun k h_k => Nat.lt_of_lt_of_le h_later (mem_startsFrom.1 h_k).1,
      pairwise_startsFrom ..⟩
  -- Both lists ascend, so it is enough that they have the same members.
  refine (pairwise_startsFrom data n).eq_of_mem_iff h_pairwise fun k => ?_
  rw [List.mem_cons, mem_startsFrom, mem_startsFrom]
  constructor
  · rintro ⟨h_le, h_lt, h_k⟩
    rcases Nat.eq_or_lt_of_le h_le with rfl | h_gt
    · exact .inl rfl
    · exact .inr ⟨Nat.le_of_not_lt fun h_between => not_beginsText h_gt h_between h_k, h_lt, h_k⟩
  · rintro (rfl | ⟨h_le, h_lt, h_k⟩)
    · exact ⟨Nat.le_refl _, h, h_begins⟩
    · exact ⟨by omega, h_lt, h_k⟩

/-! ### The walk -/

/-- Where the walk goes on from the text at an offset. -/
def nextOffset (data : List UInt8) (n : Nat) : Nat :=
  n + ((textAt? data (UInt32.ofNat n).toNat).getD "").utf8ByteSize + 1

theorem lt_nextOffset (data : List UInt8) (n : Nat) : n < nextOffset data n :=
  Nat.lt_succ_of_le (Nat.le_add_right ..)

/-- The walk comes from one beginning to the next, or to the end if there is none. -/
def InStep (data : List UInt8) (n : Nat) : Prop :=
  nextOffset data n = nextStart data n ∨
    data.length ≤ nextOffset data n ∧ data.length ≤ nextStart data n

namespace Dump

theorem dataEntries_of_le (h : data.length ≤ n) (steps : Nat) : dataEntries data n steps = [] := by
  cases steps with
  | zero => rfl
  | succ steps => exact if_neg (Nat.not_lt.2 h)

theorem dataEntries_succ (h : n < data.length) (steps : Nat) : dataEntries data n (steps + 1) =
    (n, (textAt? data (UInt32.ofNat n).toNat).getD "") ::
      dataEntries data (nextOffset data n) steps := by
  rw [dataEntries]
  exact if_pos h

/-- The bound on the steps is never what ends the walk. -/
theorem dataEntries_of_enough {steps steps' : Nat} (h : data.length ≤ n + steps)
    (h' : data.length ≤ n + steps') : dataEntries data n steps = dataEntries data n steps' := by
  induction steps generalizing n steps' with
  -- A bound of zero is enough only for a walk that has come to the end.
  | zero => rw [dataEntries_of_le (by exact h), dataEntries_of_le (by exact h)]
  | succ steps ih =>
    rcases Nat.lt_or_ge n data.length with h_lt | h_ge
    · obtain ⟨steps', rfl⟩ : ∃ rest, steps' = rest + 1 := ⟨steps' - 1, by omega⟩
      -- Every step goes ahead by a byte at least, so what is left of both bounds is enough for the
      -- rest.
      have h_later := lt_nextOffset data n
      rw [dataEntries_succ h_lt, dataEntries_succ h_lt]
      exact congrArg _ (ih (by omega) (by omega))
    · rw [dataEntries_of_le h_ge, dataEntries_of_le h_ge]

/-- What is listed lies ahead, and is a text of the pool. -/
theorem mem_dataEntries {steps : Nat} {entry : Nat × String}
    (h : entry ∈ dataEntries data n steps) :
    n ≤ entry.1 ∧ entry.1 < data.length ∧
      textAt? data (UInt32.ofNat entry.1).toNat = some entry.2 := by
  induction steps generalizing n with
  | zero => contradiction
  | succ steps ih =>
    rcases Nat.lt_or_ge n data.length with h_lt | h_ge
    · -- The offset is looked up as a word. In a pool that words cannot address the word is a
      -- smaller one, so the text is inside the pool all the same.
      have h_word : (UInt32.ofNat n).toNat ≤ data.length := by
        rw [UInt32.toNat_ofNat']
        exact Nat.le_trans (Nat.mod_le ..) (Nat.le_of_lt h_lt)
      rw [dataEntries_succ h_lt, List.mem_cons, textAt?_of_le h_word] at h
      rcases h with rfl | h_rest
      · exact ⟨Nat.le_refl n, h_lt, textAt?_of_le h_word⟩
      · obtain ⟨h_ahead, h_entry⟩ := ih h_rest
        exact ⟨Nat.le_trans (Nat.le_of_lt (lt_nextOffset data n)) h_ahead, h_entry⟩
    · rw [dataEntries_of_le h_ge] at h
      contradiction

theorem pairwise_dataEntries (data : List UInt8) (n steps : Nat) :
    (dataEntries data n steps).Pairwise fun entry later => entry.1 < later.1 := by
  induction steps generalizing n with
  | zero => exact .nil
  | succ steps ih =>
    rcases Nat.lt_or_ge n data.length with h_lt | h_ge
    · rw [dataEntries_succ h_lt]
      refine List.pairwise_cons.2 ⟨fun entry h_entry => ?_, ih _⟩
      exact Nat.lt_of_lt_of_le (lt_nextOffset data n) (mem_dataEntries h_entry).1
    · rw [dataEntries_of_le h_ge]
      exact .nil

/-- Where the lists go on alike, the walk was in step. -/
theorem inStep_of_eq {steps : Nat} (h : data.length ≤ n + (steps + 1))
    (h_eq : (dataEntries data (nextOffset data n) steps).map (·.1) =
      startsFrom data (nextStart data n)) : InStep data n := by
  have h_later := lt_nextOffset data n
  -- One side may have come to its end while the other has not; then one list is empty and the other
  -- is not.
  rcases Nat.lt_or_ge (nextStart data n) data.length with h_start | h_start
  · rw [startsFrom_of_begins h_start (beginsText_nextStart h_start)] at h_eq
    rcases Nat.lt_or_ge (nextOffset data n) data.length with h_lt | h_ge
    · obtain ⟨rest, rfl⟩ : ∃ rest, steps = rest + 1 := ⟨steps - 1, by omega⟩
      rw [dataEntries_succ h_lt, List.map_cons] at h_eq
      exact .inl (List.cons.inj h_eq).1
    · rw [dataEntries_of_le h_ge] at h_eq
      contradiction
  · rw [startsFrom_of_le h_start] at h_eq
    rcases Nat.lt_or_ge (nextOffset data n) data.length with h_lt | h_ge
    · obtain ⟨rest, rfl⟩ : ∃ rest, steps = rest + 1 := ⟨steps - 1, by omega⟩
      rw [dataEntries_succ h_lt] at h_eq
      contradiction
    · exact .inr ⟨h_ge, h_start⟩

/-- **The walk in step.** From a beginning on, the walk comes by exactly the beginnings if and only
if it is in step at each of them. -/
theorem offsets_eq_iff {steps : Nat} (h : data.length ≤ n + steps)
    (h_begins : n < data.length → BeginsText data n) :
    (dataEntries data n steps).map (·.1) = startsFrom data n ↔
      ∀ k ∈ startsFrom data n, InStep data k := by
  induction steps generalizing n with
  | zero =>
    rw [dataEntries_of_le (by exact h), startsFrom_of_le (by exact h)]
    simp
  | succ steps ih =>
    rcases Nat.lt_or_ge n data.length with h_lt | h_ge
    · have h_later := lt_nextOffset data n
      rw [dataEntries_succ h_lt, startsFrom_of_begins h_lt (h_begins h_lt), List.map_cons,
        List.cons.injEq, List.forall_mem_cons, eq_self, true_and]
      -- In step, both lists go on from one offset or are both at their end. Out of step, their next
      -- entries differ, and no later entry makes up for that.
      by_cases h_step : InStep data n
      · rw [and_iff_right h_step]
        rcases h_step with h_next | ⟨h_end, h_end'⟩
        · rw [h_next]
          exact ih (by omega) beginsText_nextStart
        · rw [dataEntries_of_le h_end, startsFrom_of_le h_end']
          simp
      · exact iff_of_false (fun h_eq => h_step (inStep_of_eq h h_eq)) fun h_all => h_step h_all.1
    · rw [dataEntries_of_le h_ge, startsFrom_of_le h_ge]
      simp

end Dump

/-- In a pool that words can address, the walk is in step where a text is the last one or is shown
in as many bytes as it has. -/
theorem inStep_iff (h_pool : data.length ≤ 2 ^ 32) (h : n < data.length) :
    InStep data n ↔ (nextStart data n < data.length →
      (Text.decode (textBytes data n)).utf8ByteSize = (textBytes data n).length) := by
  have h_shown : nextOffset data n =
      n + (Text.decode (textBytes data n)).utf8ByteSize + 1 := by
    unfold nextOffset
    rw [UInt32.toNat_ofNat_of_lt' (Nat.lt_of_lt_of_le h h_pool), textAt?_of_le (Nat.le_of_lt h)]
    rfl
  -- Decoding never makes a text shorter, so the walk never stops short of the next beginning: out
  -- of step is always beyond it.
  have h_longer := Text.length_le_size_decode (textBytes data n)
  unfold InStep
  rw [h_shown]
  unfold nextStart
  omega

/-- Valid texts are shown as they are. -/
theorem inStep_of_valid (h_pool : data.length ≤ 2 ^ 32) (h : n < data.length)
    (h_valid : Text.Valid (textBytes data n)) : InStep data n := by
  refine (inStep_iff h_pool h).2 fun _ => ?_
  rw [← Text.length_encode, Text.encode_decode_iff.2 h_valid]

/-- **What a dump lists of the pool.** The walk comes to an end by itself. The offsets that it lists
ascend, and each stands beside the text that is found under it. They are the beginnings of the texts
if and only if the walk is in step at each beginning. In a pool that words can address, and no other
is read from a file, that is to say that every text but the last is shown in as many bytes as it
has. So it is if the texts are valid. -/
theorem Dump.data_listed (p : Program) :
    let entries := dataEntries p.data 0 p.data.length
    dataLines p = "Data:" :: entries.map (fun (n, text) => toString n ++ ": " ++ text) ++ [""] ∧
    (∀ more, dataEntries p.data 0 (p.data.length + more) = entries) ∧
    (entries.map (·.1)).Pairwise (· < ·) ∧
    (∀ entry ∈ entries, entry.1 < p.data.length ∧ p.textAt? (.ofNat entry.1) = some entry.2) ∧
    (entries.map (·.1) = textStarts p.data ↔ ∀ n ∈ textStarts p.data, InStep p.data n) ∧
    (p.data.length ≤ 2 ^ 32 → ∀ n ∈ textStarts p.data, InStep p.data n ↔
      (nextStart p.data n < p.data.length →
        (Text.decode (textBytes p.data n)).utf8ByteSize = (textBytes p.data n).length)) ∧
    (p.data.length ≤ 2 ^ 32 → (∀ n ∈ textStarts p.data, Text.Valid (textBytes p.data n)) →
      entries.map (·.1) = textStarts p.data) ∧
    ∀ bytes i, Image.decode bytes = .ok i → i.program = p → p.data.length < 2 ^ 31 := by
  have h_begins : 0 < p.data.length → BeginsText p.data 0 := fun _ => .inl rfl
  have h_lt {n : Nat} (h_n : n ∈ textStarts p.data) : n < p.data.length :=
    List.mem_range.1 (List.mem_filter.1 h_n).1
  have h_iff : (dataEntries p.data 0 p.data.length).map (·.1) = textStarts p.data ↔
      ∀ n ∈ textStarts p.data, InStep p.data n := by
    rw [textStarts_eq]
    exact offsets_eq_iff (Nat.le_add_left ..) h_begins
  refine ⟨rfl, fun more => dataEntries_of_enough (by omega) (by omega), ?_, fun entry h_entry => ?_,
    h_iff, fun h_pool n h_n => inStep_iff h_pool (h_lt h_n), fun h_pool h_valid => ?_,
    fun bytes i h_decode h_i => ?_⟩
  · exact List.pairwise_map.2 (pairwise_dataEntries ..)
  · exact (mem_dataEntries h_entry).2
  · exact h_iff.2 fun n h_n => inStep_of_valid h_pool (h_lt h_n) (h_valid n h_n)
  · rw [← h_i]
    exact (Image.writable_of_decode h_decode).program.data_length

/-- Two valid texts, one of them with a character of two bytes. -/
def greetings : Program := { data := [0x68, 0x69, 0, 0xC3, 0xA9, 0] }

theorem data_listed_greetings :
    greetings.data.length ≤ 2 ^ 32 ∧
    (∀ n ∈ textStarts greetings.data, Text.Valid (textBytes greetings.data n)) ∧
    (Dump.dataEntries greetings.data 0 greetings.data.length).map (·.1) = [0, 3] ∧
    (InStep greetings.data 0 ↔ (3 < 6 → (Text.decode [0x68, 0x69]).utf8ByteSize = 2)) ∧
    Image.decode (Image.encode ⟨greetings, none⟩) = .ok ⟨greetings, none⟩ ∧
    greetings.data.length < 2 ^ 31 := by
  have h_pool : greetings.data.length ≤ 2 ^ 32 := by decide
  have h_starts : textStarts greetings.data = [0, 3] := by decide
  have h_valid : ∀ n ∈ textStarts greetings.data, Text.Valid (textBytes greetings.data n) := by
    rw [h_starts]
    simp only [List.forall_mem_cons, List.not_mem_nil, false_implies, implies_true, and_true]
    exact ⟨Text.valid_iff.2 ⟨"hi", rfl⟩, Text.valid_iff.2 ⟨"é", rfl⟩⟩
  have h_decode : Image.decode (Image.encode ⟨greetings, none⟩) = .ok ⟨greetings, none⟩ := by
    decide +kernel
  obtain ⟨-, -, -, -, -, h_step, h_listed, h_read⟩ := Dump.data_listed greetings
  refine ⟨h_pool, h_valid, (h_listed h_pool h_valid).trans h_starts, ?_, h_decode,
    h_read _ _ h_decode rfl⟩
  exact h_step h_pool 0 (by rw [h_starts]; exact List.mem_cons_self)

/-- A byte that is no text, shown in three bytes, and a text behind it. -/
def brokenPool : Program := { data := [0xFF, 0, 0x61, 0x62, 0x63, 0x64, 0] }

/-- The walk goes on in the middle of the text, and its beginning is not listed. -/
theorem data_skipped :
    Dump.dataLines brokenPool = ["Data:", "0: \uFFFD", "4: cd", ""] ∧
    textStarts brokenPool.data = [0, 2] ∧ brokenPool.textAt? 2 = some "abcd" ∧
    ¬ ∀ p : Program,
      (Dump.dataEntries p.data 0 p.data.length).map (·.1) = textStarts p.data := by
  refine ⟨by decide, by decide, by decide, fun h => absurd (h brokenPool) (by decide)⟩

end ScriptMachine
