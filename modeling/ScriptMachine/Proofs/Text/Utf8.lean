import ScriptMachine.Text.Utf8

/-!
# Text survives being written and read

`Text.encode` writes characters and `Text.decode` reads any bytes. This file ties the two together:

* `decode_encode` : what was written is read as it was;
* `encode_decode_iff` : bytes are written back as they were exactly when they are valid UTF-8
  (`Text.Valid`, which is the validity of byte arrays in the core library);
* `nul_notMem_decode` : reading makes no zero character out of bytes that are not zero;
* `length_le_size_decode` : what is read takes at least as many bytes as it was read from.

The first goes character by character (`decodeFrom_encodeChar`), along the four lengths that an
encoding can have. The announcement of each length by its lead byte is stated once
(`ofLead?_one` to `ofLead?_four`), with the range of the second byte, which is what keeps overlong
forms, surrogates and too large numbers out.

The last two are invariants of the walk over the bytes: whatever is in hand completes to a character
other than zero (`Completes`), and to one that is written in no fewer bytes than it is read from
(`Spans`). Bytes that are given up are at most three, and so is what the replacement character is
written in.
-/

namespace ScriptMachine.Text

/-! ### Steps of the walk -/

@[simp] theorem settle_missing (bits : Nat) (range : UInt8 × UInt8)
    (missing : List (UInt8 × UInt8)) :
    Partial.settle ⟨bits, range :: missing⟩ = ([], some ⟨bits, range :: missing⟩) := rfl

@[simp] theorem settle_whole (bits : Nat) :
    Partial.settle ⟨bits, []⟩ = ([Char.ofNat bits], none) := rfl

theorem decodeFrom_lead {byte : UInt8} {inHand : Partial} {rest : List UInt8}
    (h : Partial.ofLead? byte = some inHand) :
    decodeFrom none (byte :: rest) = inHand.settle.1 ++ decodeFrom inHand.settle.2 rest := by
  simp only [decodeFrom, readByte, begin, h]

/-- A byte in the range that it has to lie in is taken in. -/
theorem decodeFrom_tail {bits : Nat} {low high byte : UInt8} {missing : List (UInt8 × UInt8)}
    {rest : List UInt8} (h_low : low.toNat ≤ byte.toNat) (h_high : byte.toNat ≤ high.toNat) :
    decodeFrom (some ⟨bits, (low, high) :: missing⟩) (byte :: rest) =
      (Partial.settle ⟨bits * 64 + byte.toNat % 64, missing⟩).1 ++
        decodeFrom (Partial.settle ⟨bits * 64 + byte.toNat % 64, missing⟩).2 rest := by
  have h : low ≤ byte ∧ byte ≤ high :=
    ⟨UInt8.le_iff_toNat_le.2 h_low, UInt8.le_iff_toNat_le.2 h_high⟩
  simp only [decodeFrom, readByte, Partial.accept?, if_pos h]

/-! ### What lead bytes announce -/

theorem ofLead?_one {b : UInt8} (h : b.toNat < 0x80) :
    Partial.ofLead? b = some ⟨b.toNat, []⟩ := by
  simp only [Partial.ofLead?, if_pos h]

theorem ofLead?_two {b : UInt8} (h : 0xC2 ≤ b.toNat) (h' : b.toNat < 0xE0) :
    Partial.ofLead? b = some ⟨b.toNat % 0x20, [(0x80, 0xBF)]⟩ := by
  unfold Partial.ofLead?
  simp only
  rw [if_neg (by omega), if_neg (by omega), if_pos h']

/-- Of the lead bytes of three, the first keeps overlong forms out and `0xED` keeps surrogates
out. -/
theorem ofLead?_three {b : UInt8} (h : 0xE0 ≤ b.toNat) (h' : b.toNat < 0xF0) :
    ∃ low high : UInt8, Partial.ofLead? b = some ⟨b.toNat % 0x10, [(low, high), (0x80, 0xBF)]⟩ ∧
      low.toNat = (if b.toNat = 0xE0 then 0xA0 else 0x80) ∧
      high.toNat = (if b.toNat = 0xED then 0x9F else 0xBF) := by
  unfold Partial.ofLead?
  simp only
  rw [if_neg (by omega), if_neg (by omega), if_neg (by omega)]
  by_cases h_first : b.toNat = 0xE0
  · rw [if_pos h_first]
    exact ⟨_, _, by rw [h_first], by rw [if_pos h_first]; rfl, by rw [if_neg (by omega)]; rfl⟩
  · rw [if_neg h_first]
    by_cases h_surrogate : b.toNat = 0xED
    · rw [if_pos h_surrogate]
      exact ⟨_, _, by rw [h_surrogate], by rw [if_neg h_first]; rfl,
        by rw [if_pos h_surrogate]; rfl⟩
    · rw [if_neg h_surrogate, if_pos h']
      exact ⟨_, _, rfl, by rw [if_neg h_first]; rfl, by rw [if_neg h_surrogate]; rfl⟩

/-- Of the lead bytes of four, the first keeps overlong forms out and the last keeps numbers out
that are no characters. -/
theorem ofLead?_four {b : UInt8} (h : 0xF0 ≤ b.toNat) (h' : b.toNat < 0xF5) :
    ∃ low high : UInt8,
      Partial.ofLead? b = some ⟨b.toNat % 0x08, [(low, high), (0x80, 0xBF), (0x80, 0xBF)]⟩ ∧
      low.toNat = (if b.toNat = 0xF0 then 0x90 else 0x80) ∧
      high.toNat = (if b.toNat = 0xF4 then 0x8F else 0xBF) := by
  unfold Partial.ofLead?
  simp only
  rw [if_neg (by omega), if_neg (by omega), if_neg (by omega), if_neg (by omega),
    if_neg (by omega), if_neg (by omega)]
  by_cases h_first : b.toNat = 0xF0
  · rw [if_pos h_first]
    exact ⟨_, _, by rw [h_first], by rw [if_pos h_first]; rfl, by rw [if_neg (by omega)]; rfl⟩
  · rw [if_neg h_first]
    by_cases h_last : b.toNat = 0xF4
    · rw [if_neg (by omega), if_pos h_last]
      exact ⟨_, _, by rw [h_last], by rw [if_neg h_first]; rfl, by rw [if_pos h_last]; rfl⟩
    · rw [if_pos (by omega)]
      exact ⟨_, _, rfl, by rw [if_neg h_first]; rfl, by rw [if_neg h_last]; rfl⟩

theorem ofLead?_none {b : UInt8} (h : 0x80 ≤ b.toNat ∧ b.toNat < 0xC2 ∨ 0xF5 ≤ b.toNat) :
    Partial.ofLead? b = none := by
  unfold Partial.ofLead?
  simp only
  rw [if_neg (by omega)]
  by_cases h_tail : b.toNat < 0xC2
  · rw [if_pos h_tail]
  · rw [if_neg h_tail, if_neg (by omega), if_neg (by omega), if_neg (by omega), if_neg (by omega),
      if_neg (by omega), if_neg (by omega), if_neg (by omega)]

/-- What a lead byte announces, in one of the four lengths that an encoding can have. -/
theorem ofLead?_cases {b : UInt8} {inHand : Partial} (h : Partial.ofLead? b = some inHand) :
    b.toNat < 0x80 ∧ inHand = ⟨b.toNat, []⟩ ∨
    0xC2 ≤ b.toNat ∧ b.toNat < 0xE0 ∧ inHand = ⟨b.toNat % 0x20, [(0x80, 0xBF)]⟩ ∨
    (0xE0 ≤ b.toNat ∧ b.toNat < 0xF0 ∧ ∃ low high : UInt8,
      inHand = ⟨b.toNat % 0x10, [(low, high), (0x80, 0xBF)]⟩ ∧
      low.toNat = (if b.toNat = 0xE0 then 0xA0 else 0x80) ∧
      high.toNat = (if b.toNat = 0xED then 0x9F else 0xBF)) ∨
    0xF0 ≤ b.toNat ∧ b.toNat < 0xF5 ∧ ∃ low high : UInt8,
      inHand = ⟨b.toNat % 0x08, [(low, high), (0x80, 0xBF), (0x80, 0xBF)]⟩ ∧
      low.toNat = (if b.toNat = 0xF0 then 0x90 else 0x80) ∧
      high.toNat = (if b.toNat = 0xF4 then 0x8F else 0xBF) := by
  -- The lead bytes are ranges one above the other, with those that lead nothing below and above all
  -- but the first.
  have h_bound : b.toNat < 256 := b.toNat_lt
  by_cases h_two : b.toNat < 0xC2
  · by_cases h_one : b.toNat < 0x80
    · exact .inl ⟨h_one, (Option.some.inj ((ofLead?_one h_one).symm.trans h)).symm⟩
    · rw [ofLead?_none (by omega)] at h
      contradiction
  by_cases h_three : b.toNat < 0xE0
  · exact .inr (.inl ⟨by omega, h_three,
      (Option.some.inj ((ofLead?_two (by omega) h_three).symm.trans h)).symm⟩)
  by_cases h_four : b.toNat < 0xF0
  · obtain ⟨low, high, h_announced, h_range⟩ := ofLead?_three (by omega) h_four
    exact .inr (.inr (.inl ⟨by omega, h_four, low, high,
      (Option.some.inj (h_announced.symm.trans h)).symm, h_range⟩))
  by_cases h_none : b.toNat < 0xF5
  · obtain ⟨low, high, h_announced, h_range⟩ := ofLead?_four (by omega) h_none
    exact .inr (.inr (.inr ⟨by omega, h_none, low, high,
      (Option.some.inj (h_announced.symm.trans h)).symm, h_range⟩))
  · rw [ofLead?_none (by omega)] at h
    contradiction

/-! ### What was written is read as it was -/

/-- The bytes of one character are read as that character, whatever follows. -/
theorem decodeFrom_encodeChar (c : Char) (rest : List UInt8) :
    decodeFrom none (String.utf8EncodeChar c ++ rest) = c :: decodeFrom none rest := by
  have h_valid : c.toNat < 0xD800 ∨ 0xDFFF < c.toNat ∧ c.toNat < 0x110000 := c.valid
  have h_low : (0x80 : UInt8).toNat = 0x80 := rfl
  have h_high : (0xBF : UInt8).toNat = 0xBF := rfl
  have h_tail : ∀ n, (UInt8.ofNat (n % 64 + 0x80)).toNat = n % 64 + 0x80 := by
    intro n
    rw [UInt8.toNat_ofNat']
    omega
  have h_val : c.val.toNat = c.toNat := rfl
  fun_cases String.utf8EncodeChar c with
  | case1 v h₁ =>
    -- the byte is the character
    have h_lead : (UInt8.ofNat v).toNat = c.toNat := by rw [UInt8.toNat_ofNat']; omega
    rw [List.cons_append, decodeFrom_lead (ofLead?_one (by omega)), h_lead]
    simp
  | case2 v h₁ h₂ =>
    -- any lead byte of two allows any byte behind it
    have h_lead : (UInt8.ofNat (v / 64 % 0x20 + 0xC0)).toNat = c.toNat / 64 + 0xC0 := by
      rw [UInt8.toNat_ofNat']; omega
    have h_last := h_tail v
    rw [List.cons_append, List.cons_append, decodeFrom_lead (ofLead?_two (by omega) (by omega)),
      settle_missing, List.nil_append, decodeFrom_tail (by omega) (by omega), h_lead, h_last,
      show (c.toNat / 64 + 0xC0) % 0x20 * 64 + (v % 64 + 0x80) % 64 = c.toNat by omega]
    simp
  | case3 v h₁ h₂ h₃ =>
    have h_lead : (UInt8.ofNat (v / 4096 % 0x10 + 0xE0)).toNat = c.toNat / 4096 + 0xE0 := by
      rw [UInt8.toNat_ofNat']; omega
    have h_second := h_tail (v / 64)
    have h_last := h_tail v
    obtain ⟨low, high, h_announced, h_from, h_to⟩ :=
      ofLead?_three (b := UInt8.ofNat (v / 4096 % 0x10 + 0xE0)) (by omega) (by omega)
    rw [h_lead] at h_from h_to
    -- the second byte is in the narrower range since the character is no surrogate
    rw [List.cons_append, List.cons_append, List.cons_append, decodeFrom_lead h_announced,
      settle_missing, List.nil_append,
      decodeFrom_tail (by split at h_from <;> omega) (by split at h_to <;> omega),
      settle_missing, List.nil_append, decodeFrom_tail (by omega) (by omega), h_lead, h_second,
      h_last, show ((c.toNat / 4096 + 0xE0) % 0x10 * 64 + (v / 64 % 64 + 0x80) % 64) * 64
        + (v % 64 + 0x80) % 64 = c.toNat by omega]
    simp
  | case4 v h₁ h₂ h₃ =>
    have h_lead : (UInt8.ofNat (v / 262144 % 0x08 + 0xF0)).toNat = c.toNat / 262144 + 0xF0 := by
      rw [UInt8.toNat_ofNat']; omega
    have h_second := h_tail (v / 4096)
    have h_third := h_tail (v / 64)
    have h_last := h_tail v
    obtain ⟨low, high, h_announced, h_from, h_to⟩ :=
      ofLead?_four (b := UInt8.ofNat (v / 262144 % 0x08 + 0xF0)) (by omega) (by omega)
    rw [h_lead] at h_from h_to
    -- and here since it is below the bound of all characters
    rw [List.cons_append, List.cons_append, List.cons_append, List.cons_append,
      decodeFrom_lead h_announced, settle_missing, List.nil_append,
      decodeFrom_tail (by split at h_from <;> omega) (by split at h_to <;> omega),
      settle_missing, List.nil_append, decodeFrom_tail (by omega) (by omega),
      settle_missing, List.nil_append, decodeFrom_tail (by omega) (by omega), h_lead, h_second,
      h_third, h_last, show (((c.toNat / 262144 + 0xF0) % 0x08 * 64 + (v / 4096 % 64 + 0x80) % 64)
        * 64 + (v / 64 % 64 + 0x80) % 64) * 64 + (v % 64 + 0x80) % 64 = c.toNat by omega]
    simp

theorem decodeFrom_encodeChars (chars : List Char) :
    decodeFrom none (chars.flatMap String.utf8EncodeChar) = chars := by
  induction chars with
  | nil => rfl
  | cons c chars ih => rw [List.flatMap_cons, decodeFrom_encodeChar, ih]

/-- **Reading undoes writing.** -/
@[simp] theorem decode_encode (text : String) : decode (encode text) = text := by
  rw [decode, encode, decodeFrom_encodeChars, String.ofList_toList]

/-! ### Which bytes are written back as they were -/

/-- The bytes are valid UTF-8. -/
def Valid (bytes : List UInt8) : Prop := ByteArray.IsValidUTF8 bytes.toByteArray

/-- The valid bytes are those that stand for some text. -/
theorem valid_iff {bytes : List UInt8} : Valid bytes ↔ ∃ text, encode text = bytes := by
  constructor
  · rintro ⟨chars, h⟩
    refine ⟨String.ofList chars, ?_⟩
    rw [encode, String.toList_ofList]
    have h_data := congrArg (fun b : ByteArray => b.data.toList) h
    simpa [List.utf8Encode] using h_data.symm
  · rintro ⟨text, rfl⟩
    exact ⟨text.toList, rfl⟩

theorem encode_decode_iff {bytes : List UInt8} : encode (decode bytes) = bytes ↔ Valid bytes := by
  constructor
  · exact fun h => valid_iff.2 ⟨_, h⟩
  · intro h
    obtain ⟨text, rfl⟩ := valid_iff.1 h
    rw [decode_encode]

/-! ### Zero bytes and zero characters -/

theorem zero_mem_encodeChar_iff {c : Char} : 0 ∈ String.utf8EncodeChar c ↔ c = '\x00' := by
  have h_valid : c.toNat < 0xD800 ∨ 0xDFFF < c.toNat ∧ c.toNat < 0x110000 := c.valid
  have h_zero : c = '\x00' ↔ c.toNat = 0 := ⟨fun h => h ▸ rfl, fun h => Char.toNat_inj.1 h⟩
  have h_val : c.val.toNat = c.toNat := rfl
  rw [h_zero]
  -- The bytes of longer encodings have their high bit set, so only the encoding of one byte can be
  -- zero.
  fun_cases String.utf8EncodeChar c <;>
    simp only [List.mem_cons, List.not_mem_nil, or_false, ← UInt8.toNat_inj, UInt8.toNat_ofNat',
      UInt8.toNat_zero] <;> omega

/-- Only the zero character has a zero byte in it. -/
theorem zero_mem_encode_iff {text : String} : 0 ∈ encode text ↔ '\x00' ∈ text.toList := by
  simp [encode, zero_mem_encodeChar_iff]

/-- Whatever bytes come in the ranges that are still missing, the character that they complete is
one, and is not zero. -/
def Completes : List (UInt8 × UInt8) → Nat → Prop
  | [], bits => bits ≠ 0 ∧ bits.isValidChar
  | (low, high) :: missing, bits =>
    ∀ byte : UInt8, low ≤ byte → byte ≤ high → Completes missing (bits * 64 + byte.toNat % 64)

theorem completes_of_ofLead? {byte : UInt8} {inHand : Partial} (h_byte : byte ≠ 0)
    (h : Partial.ofLead? byte = some inHand) : Completes inHand.missing inHand.bits := by
  have h_zero : byte.toNat ≠ 0 := fun h => h_byte (UInt8.toNat_inj.1 h)
  have h_low : (0x80 : UInt8).toNat = 0x80 := rfl
  have h_high : (0xBF : UInt8).toNat = 0xBF := rfl
  rcases ofLead?_cases h with ⟨h_one, rfl⟩ | ⟨h_from, h_to, rfl⟩ |
    ⟨h_from, h_to, low, high, rfl, h_second, h_second'⟩ |
    ⟨h_from, h_to, low, high, rfl, h_second, h_second'⟩
  · -- one byte is the character itself
    exact ⟨h_zero, Or.inl (show byte.toNat < 0xD800 by omega)⟩
  · -- two bytes make less than 0x800, and more than zero since the lead byte is no overlong one
    intro b₁ h₁ h₁'
    rw [UInt8.le_iff_toNat_le] at h₁ h₁'
    simp only [Completes, Nat.isValidChar]
    omega
  · -- the second byte decides: overlong forms and surrogates are out of its range
    intro b₁ h₁ h₁' b₂ h₂ h₂'
    rw [UInt8.le_iff_toNat_le] at h₁ h₁' h₂ h₂'
    simp only [Completes, Nat.isValidChar]
    split at h_second <;> split at h_second' <;> omega
  · intro b₁ h₁ h₁' b₂ h₂ h₂' b₃ h₃ h₃'
    rw [UInt8.le_iff_toNat_le] at h₁ h₁' h₂ h₂' h₃ h₃'
    simp only [Completes, Nat.isValidChar]
    split at h_second <;> split at h_second' <;> omega

theorem ofNat_ne_nul {n : Nat} (h_zero : n ≠ 0) (h_valid : n.isValidChar) :
    Char.ofNat n ≠ '\x00' := by
  intro h
  rw [Char.ofNat, dif_pos h_valid] at h
  exact h_zero (congrArg Char.toNat h)

/-- What is settled is not zero, and what is kept in hand still completes. -/
theorem nul_notMem_settle {inHand : Partial} (h : Completes inHand.missing inHand.bits) :
    '\x00' ∉ inHand.settle.1 ∧ ∀ p ∈ inHand.settle.2, Completes p.missing p.bits := by
  obtain ⟨bits, missing⟩ := inHand
  cases missing with
  | nil =>
    obtain ⟨h_zero, h_valid⟩ := h
    simpa using (ofNat_ne_nul h_zero h_valid).symm
  -- nothing is settled while bytes are missing
  | cons range missing => simpa using h

theorem nul_notMem_begin {byte : UInt8} (h : byte ≠ 0) :
    '\x00' ∉ (begin byte).1 ∧ ∀ p ∈ (begin byte).2, Completes p.missing p.bits := by
  unfold begin
  cases h_lead : Partial.ofLead? byte with
  -- what is put in place of a stray byte is no zero character
  | none => simp [replacement]
  | some inHand => exact nul_notMem_settle (completes_of_ofLead? h h_lead)

theorem nul_notMem_decodeFrom {bytes : List UInt8} (h_bytes : 0 ∉ bytes) :
    ∀ {inHand : Option Partial}, (∀ p ∈ inHand, Completes p.missing p.bits) →
      '\x00' ∉ decodeFrom inHand bytes := by
  -- the induction is on the bytes, with anything in hand that completes
  induction bytes with
  | nil =>
    intro inHand _
    cases inHand <;> simp [decodeFrom, replacement]
  | cons byte rest ih =>
    intro inHand h
    obtain ⟨h_byte, h_rest⟩ : byte ≠ 0 ∧ 0 ∉ rest := by simpa [eq_comm] using h_bytes
    -- One byte settles no zero character, and leaves in hand what completes; the hypothesis then
    -- takes over.
    suffices h_read : '\x00' ∉ (readByte inHand byte).1 ∧
        ∀ p ∈ (readByte inHand byte).2, Completes p.missing p.bits by
      rw [decodeFrom, List.mem_append, not_or]
      exact ⟨h_read.1, ih h_rest h_read.2⟩
    obtain ⟨h_none, h_some⟩ := nul_notMem_begin h_byte
    cases inHand with
    | none => exact ⟨h_none, h_some⟩
    | some unfinished =>
      have h_completes := h unfinished rfl
      obtain ⟨bits, missing⟩ := unfinished
      cases missing with
      | nil => simpa [readByte, Partial.accept?, replacement] using ⟨h_none, h_some⟩
      | cons range missing =>
        unfold readByte Partial.accept?
        by_cases h_range : range.1 ≤ byte ∧ byte ≤ range.2
        · simp only [if_pos h_range]
          exact nul_notMem_settle (h_completes byte h_range.1 h_range.2)
        · -- the unfinished character is given up, and the byte begins a new one
          simp only [if_neg h_range]
          exact ⟨by simpa [replacement] using h_none, h_some⟩

/-- **Reading makes no zero character** out of bytes that are not zero. -/
theorem nul_notMem_decode {bytes : List UInt8} (h : 0 ∉ bytes) :
    '\x00' ∉ (decode bytes).toList := by
  rw [decode, String.toList_ofList]
  exact nul_notMem_decodeFrom h (by simp)

/-! ### How much is written back -/

theorem length_encode (text : String) : (encode text).length = text.utf8ByteSize := by
  rw [← String.size_toByteArray, ← String.ofList_toList (s := text), String.toByteArray_ofList]
  simp [encode, List.utf8Encode]

/-- The bytes that characters are written in. -/
def width (chars : List Char) : Nat := (chars.flatMap String.utf8EncodeChar).length

@[simp] theorem width_nil : width [] = 0 := rfl

@[simp] theorem width_cons (c : Char) (chars : List Char) :
    width (c :: chars) = c.utf8Size + width chars := by
  simp [width, String.length_utf8EncodeChar]

@[simp] theorem width_append (chars chars' : List Char) :
    width (chars ++ chars') = width chars + width chars' := by
  simp [width]

/-- Whatever bytes come in the ranges that are still missing, the character that they complete is
written in at least so many bytes. -/
def Spans (size : Nat) : List (UInt8 × UInt8) → Nat → Prop
  | [], bits => size ≤ (Char.ofNat bits).utf8Size
  | (low, high) :: missing, bits =>
    ∀ byte : UInt8, low ≤ byte → byte ≤ high → Spans size missing (bits * 64 + byte.toNat % 64)

/-- The more bits a character has, the more bytes it takes. -/
theorem le_utf8Size {n size : Nat} (h_valid : n.isValidChar)
    (h : (size ≤ 1 ∨ 0x80 ≤ n) ∧ (size ≤ 2 ∨ 0x800 ≤ n) ∧ (size ≤ 3 ∨ 0x10000 ≤ n) ∧ size ≤ 4) :
    size ≤ (Char.ofNat n).utf8Size := by
  have h_val : (Char.ofNat n).val.toNat = n := by
    rw [Char.ofNat, dif_pos h_valid]
    rfl
  have h_le {bound : UInt32} (h : (Char.ofNat n).val ≤ bound) : n ≤ bound.toNat := by
    rwa [UInt32.le_iff_toNat_le, h_val] at h
  -- the lengths that there are, each with the numbers that it is too short for
  rcases Char.utf8Size_eq (Char.ofNat n) with h_size | h_size | h_size | h_size
  · have h_n : n ≤ 0x7F := h_le (Char.utf8Size_eq_one_iff.1 h_size)
    omega
  · have h_n : n ≤ 0x7FF := h_le (Char.utf8Size_eq_two_iff.1 h_size).2
    omega
  · have h_n : n ≤ 0xFFFF := h_le (Char.utf8Size_eq_three_iff.1 h_size).2
    omega
  · omega

theorem spans_of_ofLead? {byte : UInt8} {inHand : Partial}
    (h : Partial.ofLead? byte = some inHand) :
    inHand.missing.length ≤ 3 ∧ Spans (1 + inHand.missing.length) inHand.missing inHand.bits := by
  have h_low : (0x80 : UInt8).toNat = 0x80 := rfl
  have h_high : (0xBF : UInt8).toNat = 0xBF := rfl
  rcases ofLead?_cases h with ⟨-, rfl⟩ | ⟨h_from, h_to, rfl⟩ |
    ⟨h_from, h_to, low, high, rfl, h_second, h_second'⟩ |
    ⟨h_from, h_to, low, high, rfl, h_second, h_second'⟩
  · exact ⟨Nat.zero_le 3, Char.utf8Size_pos _⟩
  · refine ⟨Nat.le_of_ble_eq_true rfl, fun b₁ h₁ h₁' => ?_⟩
    rw [UInt8.le_iff_toNat_le] at h₁ h₁'
    refine le_utf8Size ?_ ?_ <;>
      simp only [List.length_cons, List.length_nil, Nat.isValidChar] <;> omega
  · refine ⟨Nat.le_of_ble_eq_true rfl, fun b₁ h₁ h₁' b₂ h₂ h₂' => ?_⟩
    rw [UInt8.le_iff_toNat_le] at h₁ h₁' h₂ h₂'
    refine le_utf8Size ?_ ?_ <;> simp only [List.length_cons, List.length_nil, Nat.isValidChar] <;>
      split at h_second <;> split at h_second' <;> omega
  · refine ⟨Nat.le_refl 3, fun b₁ h₁ h₁' b₂ h₂ h₂' b₃ h₃ h₃' => ?_⟩
    rw [UInt8.le_iff_toNat_le] at h₁ h₁' h₂ h₂' h₃ h₃'
    refine le_utf8Size ?_ ?_ <;> simp only [List.length_cons, List.length_nil, Nat.isValidChar] <;>
      split at h_second <;> split at h_second' <;> omega

/-- So many bytes are in hand, and the character that they begin is written in no fewer bytes than
it is read from. -/
def Holds (read : Nat) : Option Partial → Prop
  | none => read = 0
  | some p => read + p.missing.length ≤ 4 ∧ p.missing ≠ [] ∧
    Spans (read + p.missing.length) p.missing p.bits

theorem holds_settle {inHand : Partial} {read : Nat} (h_length : read + inHand.missing.length ≤ 4)
    (h : Spans (read + inHand.missing.length) inHand.missing inHand.bits) :
    ∃ read', read ≤ width inHand.settle.1 + read' ∧ Holds read' inHand.settle.2 := by
  obtain ⟨bits, missing⟩ := inHand
  cases missing with
  | nil =>
    -- the character is settled, and written in as many bytes as were in hand at least
    refine ⟨0, ?_, rfl⟩
    simpa [Spans] using h
  -- or all bytes are still in hand
  | cons range missing => exact ⟨read, by simp, h_length, List.cons_ne_nil _ _, h⟩

theorem holds_begin (byte : UInt8) :
    ∃ read', 1 ≤ width (begin byte).1 + read' ∧ Holds read' (begin byte).2 := by
  unfold begin
  cases h_lead : Partial.ofLead? byte with
  | none => exact ⟨0, by decide, rfl⟩
  | some inHand =>
    obtain ⟨h_length, h_spans⟩ := spans_of_ofLead? h_lead
    exact holds_settle (by omega) h_spans

theorem holds_readByte {inHand : Option Partial} {read : Nat} (h : Holds read inHand)
    (byte : UInt8) : ∃ read', read + 1 ≤ width (readByte inHand byte).1 + read' ∧
      Holds read' (readByte inHand byte).2 := by
  obtain ⟨read', h_begin, h_holds⟩ := holds_begin byte
  cases inHand with
  | none =>
    -- nothing is in hand, so the byte begins a character
    obtain rfl : read = 0 := h
    exact ⟨read', h_begin, h_holds⟩
  | some unfinished =>
    obtain ⟨bits, missing⟩ := unfinished
    obtain ⟨h_length, h_missing, h_spans⟩ := h
    obtain ⟨⟨low, high⟩, rest, rfl⟩ := List.exists_cons_of_ne_nil h_missing
    rw [List.length_cons] at h_length h_spans
    unfold readByte Partial.accept?
    by_cases h_range : low ≤ byte ∧ byte ≤ high
    · simp only [if_pos h_range]
      refine holds_settle (by dsimp only; omega) ?_
      rw [Nat.add_right_comm, Nat.add_assoc]
      exact h_spans byte h_range.1 h_range.2
    · -- the replacement takes as many bytes as there can be in hand, and the byte begins anew
      have h_replacement : replacement.utf8Size = 3 := rfl
      simp only [if_neg h_range]
      refine ⟨read', ?_, h_holds⟩
      rw [width_cons]
      omega

/-- **Reading shortens nothing**: the text that is read takes at least as many bytes. -/
theorem length_le_width_decodeFrom (bytes : List UInt8) {inHand : Option Partial} {read : Nat}
    (h : Holds read inHand) : read + bytes.length ≤ width (decodeFrom inHand bytes) := by
  induction bytes generalizing inHand read with
  | nil =>
    cases inHand with
    | none => exact Nat.le_of_eq h
    | some unfinished =>
      -- at the end what is in hand is given up, for a replacement of three bytes
      obtain ⟨h_length, h_missing, -⟩ := h
      have h_pos := List.length_pos_iff.2 h_missing
      show read ≤ 3
      omega
  | cons byte rest ih =>
    obtain ⟨read', h_read, h_holds⟩ := holds_readByte h byte
    -- what is in hand after the byte is the loan that the rest has to make good
    have h_rest := ih h_holds
    rw [decodeFrom, width_append, List.length_cons]
    omega

theorem length_le_size_decode (bytes : List UInt8) :
    bytes.length ≤ (decode bytes).utf8ByteSize := by
  have h_width := @length_le_width_decodeFrom bytes none 0 rfl
  rw [← length_encode, encode, decode, String.toList_ofList]
  rwa [Nat.zero_add] at h_width

end ScriptMachine.Text
