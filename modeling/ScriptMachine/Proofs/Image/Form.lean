import Mathlib.Algebra.Group.Nat.Defs
import Mathlib.Data.Set.Basic
import ScriptMachine.Image.Writer
import ScriptMachine.Proofs.Text.Utf8

/-!
# The forms of an image

A reader accepts more than a writer produces: bytes that are no text, tables of negative length and
flags other than 0 and 1 all stand for something. The `Form` of a thing is the set of all ways to
write it down. A way to write it down is a `Piece`: its bytes, and the fields among them for which
there is a choice, in the order of the file. `Field.Canonical` says of a field that a writer would
have chosen it.

Forms are put together as the bytes are: `F ++ G` is a piece of `F` followed by one of `G`. So
`Form.image` and the forms below it read like the writers in `Image/Writer`, and every fact about
them is proven for the few forms at the bottom and carried along `++`. Two relations matter:

* `F.Splits input rest` : `input` is a piece of `F` followed by `rest`. This is what a reader
  decides, see `Reading`.
* `Writes w F` : the bytes `w` are the canonical piece of `F`. They are one of its pieces if there
  are any at all, and they are the only one whose fields are all canonical. The second half is
  stated with arbitrary bytes behind, since it has to be carried along `++`.

`Image.Writable` says what an image has to meet in order to have a form (`nonempty_image_iff`):
tables that are not too long, no text with a zero character in it, and tasks that carry the name and
the file of their script.
-/

namespace ScriptMachine

/-! ### Fields, pieces and forms -/

/-- A field of a file that can be spelled in several ways. -/
inductive Field where
  /-- The bytes of a text, without the zero byte that ends it. -/
  | text (raw : List UInt8)
  /-- The signed length of a table; a negative one means an empty table. -/
  | length (count : UInt32)
  | flag (byte : UInt8)

/-- The field is spelled as a writer spells it. -/
def Field.Canonical : Field → Prop
  | text raw => Text.Valid raw
  | length count => 0 ≤ count.toInt32
  | flag byte => byte = 0 ∨ byte = 1

/-- Some bytes of a file, and the fields among them that can be spelled in several ways. -/
structure Piece where
  bytes : List UInt8
  fields : List Field

instance : Append Piece := ⟨fun p q => ⟨p.bytes ++ q.bytes, p.fields ++ q.fields⟩⟩

@[simp] theorem Piece.bytes_append (p q : Piece) : (p ++ q).bytes = p.bytes ++ q.bytes := rfl

/-- Every field of the piece is spelled as a writer spells it. -/
def Piece.Canonical (p : Piece) : Prop := ∀ f ∈ p.fields, f.Canonical

@[simp] theorem Piece.canonical_append {p q : Piece} :
    (p ++ q).Canonical ↔ p.Canonical ∧ q.Canonical := List.forall_mem_append

/-- The ways to write something down. -/
def Form : Type := Set Piece

namespace Form

instance : Membership Piece Form := ⟨fun F p => Set.Mem F p⟩

/-- A piece of the one and then a piece of the other. -/
instance : Append Form := ⟨fun F G => {p | ∃ q ∈ F, ∃ r ∈ G, p = q ++ r}⟩

/-- There is a way to write it down. -/
def Nonempty (F : Form) : Prop := ∃ p, p ∈ F

/-- The input is a piece of the form, followed by the rest. -/
def Splits (F : Form) (input rest : List UInt8) : Prop := ∃ p ∈ F, input = p.bytes ++ rest

@[simp] theorem nonempty_append {F G : Form} :
    (F ++ G).Nonempty ↔ F.Nonempty ∧ G.Nonempty := by
  constructor
  · rintro ⟨_, q, hq, r, hr, -⟩
    exact ⟨⟨q, hq⟩, r, hr⟩
  · rintro ⟨⟨q, hq⟩, r, hr⟩
    exact ⟨q ++ r, q, hq, r, hr, rfl⟩

@[simp] theorem splits_append {F G : Form} {input rest : List UInt8} :
    (F ++ G).Splits input rest ↔ ∃ mid, F.Splits input mid ∧ G.Splits mid rest := by
  constructor
  · rintro ⟨_, ⟨q, hq, r, hr, rfl⟩, rfl⟩
    exact ⟨r.bytes ++ rest, ⟨q, hq, by rw [Piece.bytes_append, List.append_assoc]⟩, r, hr, rfl⟩
  · rintro ⟨_, ⟨q, hq, rfl⟩, r, hr, rfl⟩
    exact ⟨q ++ r, ⟨q, hq, r, hr, rfl⟩, by rw [Piece.bytes_append, List.append_assoc]⟩

/-- With the forms in a row, their pieces are taken off the input one after the other. -/
theorem append_assoc (F G H : Form) : F ++ G ++ H = F ++ (G ++ H) := by
  -- A piece is its bytes and its fields, and both are put in a row by appending.
  have h_pieces (q r s : Piece) : q ++ r ++ s = q ++ (r ++ s) :=
    congrArg₂ Piece.mk (List.append_assoc ..) (List.append_assoc ..)
  refine Set.ext fun p => ⟨?_, ?_⟩
  · rintro ⟨_, ⟨q, hq, r, hr, rfl⟩, s, hs, rfl⟩
    exact ⟨q, hq, r ++ s, ⟨r, hr, s, hs, rfl⟩, h_pieces q r s⟩
  · rintro ⟨q, hq, _, ⟨r, hr, s, hs, rfl⟩, rfl⟩
    exact ⟨q ++ r, ⟨q, hq, r, hr, rfl⟩, s, hs, (h_pieces q r s).symm⟩

/-! ### The forms at the bottom -/

/-- The given bytes and nothing else. -/
def exactly (bytes : List UInt8) : Form := {p | p = ⟨bytes, []⟩}

def word (w : UInt32) : Form := exactly (Writer.word w)

/-- The same pieces, on a condition. -/
def given (F : Form) (condition : Prop) : Form := {p | condition ∧ p ∈ F}

/-- Bytes that are read as the text. -/
def text (s : String) : Form :=
  {p | ∃ raw, 0 ∉ raw ∧ Text.decode raw = s ∧ p = ⟨raw ++ [0], [.text raw]⟩}

/-- Any byte but 0 means that the flag is set. -/
def flag (b : Bool) : Form := {p | ∃ byte : UInt8, (byte != 0) = b ∧ p = ⟨[byte], [.flag byte]⟩}

/-- A signed number that stands for the length of a table. -/
def signedLength (size : Nat) : Form :=
  {p | ∃ count : UInt32, count.toInt32.toInt.toNat = size ∧
    p = ⟨Writer.word count, [.length count]⟩}

/-- The members one after the other. -/
def entries {α : Type} (entry : α → Form) : List α → Form
  | [] => exactly []
  | a :: rest => entry a ++ entries entry rest

/-- A table whose length is a signed number. -/
def signedTable {α : Type} (entry : α → Form) (members : List α) : Form :=
  signedLength members.length ++ entries entry members

/-- A table whose length is a number without sign. -/
def table {α : Type} (entry : α → Form) (members : List α) : Form :=
  (word (UInt32.ofNat members.length) ++ entries entry members).given (members.length < 2 ^ 32)

section

variable {input rest : List UInt8}

@[simp] theorem nonempty_exactly {bytes : List UInt8} : (exactly bytes).Nonempty := ⟨_, rfl⟩

@[simp] theorem splits_exactly {bytes : List UInt8} :
    (exactly bytes).Splits input rest ↔ input = bytes ++ rest :=
  ⟨fun ⟨_, rfl, h⟩ => h, fun h => ⟨_, rfl, h⟩⟩

@[simp] theorem nonempty_word {w : UInt32} : (word w).Nonempty := nonempty_exactly

@[simp] theorem splits_word {w : UInt32} :
    (word w).Splits input rest ↔ input = Writer.word w ++ rest := splits_exactly

@[simp] theorem nonempty_given {F : Form} {condition : Prop} :
    (F.given condition).Nonempty ↔ condition ∧ F.Nonempty :=
  ⟨fun ⟨p, h, hp⟩ => ⟨h, p, hp⟩, fun ⟨h, p, hp⟩ => ⟨p, h, hp⟩⟩

@[simp] theorem splits_given {F : Form} {condition : Prop} :
    (F.given condition).Splits input rest ↔ condition ∧ F.Splits input rest :=
  ⟨fun ⟨p, ⟨h, hp⟩, h_input⟩ => ⟨h, p, hp, h_input⟩,
    fun ⟨h, p, hp, h_input⟩ => ⟨p, ⟨h, hp⟩, h_input⟩⟩

/-- A text without zero characters can be written down, and no other. -/
@[simp] theorem nonempty_text {s : String} : (text s).Nonempty ↔ '\x00' ∉ s.toList := by
  constructor
  · rintro ⟨_, raw, h_raw, rfl, -⟩
    exact Text.nul_notMem_decode h_raw
  · -- the encoding is one way to write it down, and it has no zero byte to end it early
    intro h
    exact ⟨_, Text.encode s, mt Text.zero_mem_encode_iff.1 h, Text.decode_encode s, rfl⟩

theorem splits_text {s : String} : (text s).Splits input rest ↔
    ∃ raw, 0 ∉ raw ∧ Text.decode raw = s ∧ input = raw ++ 0 :: rest := by
  constructor
  · rintro ⟨_, ⟨raw, h_raw, h_decode, rfl⟩, rfl⟩
    exact ⟨raw, h_raw, h_decode, by simp⟩
  · rintro ⟨raw, h_raw, h_decode, rfl⟩
    exact ⟨_, ⟨raw, h_raw, h_decode, rfl⟩, by simp⟩

@[simp] theorem nonempty_flag {b : Bool} : (flag b).Nonempty := by
  cases b
  · exact ⟨_, 0, rfl, rfl⟩
  · exact ⟨_, 1, rfl, rfl⟩

theorem splits_flag {b : Bool} :
    (flag b).Splits input rest ↔ ∃ byte : UInt8, (byte != 0) = b ∧ input = byte :: rest := by
  constructor
  · rintro ⟨_, ⟨byte, h_byte, rfl⟩, rfl⟩
    exact ⟨byte, h_byte, rfl⟩
  · rintro ⟨byte, h_byte, rfl⟩
    exact ⟨_, ⟨byte, h_byte, rfl⟩, rfl⟩

theorem toInt_toInt32_ofNat {size : Nat} (h : size < 2 ^ 31) :
    (UInt32.ofNat size).toInt32.toInt = size := Int32.toInt_ofNat_of_lt h

@[simp] theorem nonempty_signedLength {size : Nat} :
    (signedLength size).Nonempty ↔ size < 2 ^ 31 := by
  constructor
  · rintro ⟨_, count, rfl, -⟩
    -- no signed word reaches 2 ^ 31, so neither does the length it stands for
    have h_lt := count.toInt32.toInt_lt
    omega
  · intro h
    exact ⟨_, UInt32.ofNat size, by rw [toInt_toInt32_ofNat h, Int.toNat_natCast], rfl⟩

theorem splits_signedLength {size : Nat} : (signedLength size).Splits input rest ↔
    ∃ count : UInt32, count.toInt32.toInt.toNat = size ∧ input = Writer.word count ++ rest := by
  constructor
  · rintro ⟨_, ⟨count, h_count, rfl⟩, rfl⟩
    exact ⟨count, h_count, rfl⟩
  · rintro ⟨count, h_count, rfl⟩
    exact ⟨_, ⟨count, h_count, rfl⟩, rfl⟩

variable {α : Type} {entry : α → Form}

theorem splits_entries_word {words : List UInt32} : (entries word words).Splits input rest ↔
    input = words.flatMap Writer.word ++ rest := by
  induction words generalizing input with
  | nil => simp [entries]
  | cons w words ih => simp [entries, ih]

theorem splits_table {members : List α} : (table entry members).Splits input rest ↔
    ∃ count mid, (word count).Splits input mid ∧ members.length = count.toNat ∧
      (entries entry members).Splits mid rest := by
  simp only [table, splits_given, splits_append, splits_word]
  constructor
  · -- a table within the bound has the length that its word says
    rintro ⟨h_lt, mid, rfl, h_members⟩
    exact ⟨_, mid, rfl, (UInt32.toNat_ofNat_of_lt' h_lt).symm, h_members⟩
  · rintro ⟨count, mid, rfl, h_length, h_members⟩
    -- the length was read from a word, so it is no longer than a word can say
    rw [h_length, UInt32.ofNat_toNat]
    exact ⟨count.toNat_lt, mid, rfl, h_members⟩

@[simp] theorem nonempty_entries {members : List α} :
    (entries entry members).Nonempty ↔ ∀ a ∈ members, (entry a).Nonempty := by
  induction members with
  | nil => simp [entries]
  | cons a members ih => simp [entries, ih]

end

end Form

/-! ### Canonical pieces -/

/-- The bytes are the canonical piece of the form: they are one of its pieces, if it has any, and
the only one whose fields are all canonical. -/
structure Writes (w : List UInt8) (F : Form) : Prop where
  exists_mem : F.Nonempty → ∃ p ∈ F, p.bytes = w
  append_eq_iff : ∀ p ∈ F, ∀ r r', w ++ r = p.bytes ++ r' ↔ p.Canonical ∧ r = r'

namespace Writes

variable {w v : List UInt8} {F G : Form}

theorem eq_iff (h : Writes w F) {p : Piece} (hp : p ∈ F) : w = p.bytes ↔ p.Canonical := by
  simpa using h.append_eq_iff p hp [] []

theorem append (hF : Writes w F) (hG : Writes v G) : Writes (w ++ v) (F ++ G) where
  exists_mem h := by
    obtain ⟨q, hq, rfl⟩ := hF.exists_mem (Form.nonempty_append.1 h).1
    obtain ⟨r, hr, rfl⟩ := hG.exists_mem (Form.nonempty_append.1 h).2
    exact ⟨q ++ r, ⟨q, hq, r, hr, rfl⟩, rfl⟩
  append_eq_iff := by
    -- what follows the first piece is arbitrary, so it may be the second one
    rintro _ ⟨q, hq, r, hr, rfl⟩ s s'
    rw [Piece.bytes_append, List.append_assoc, List.append_assoc, hF.append_eq_iff q hq,
      hG.append_eq_iff r hr, Piece.canonical_append, and_assoc]

theorem given (h : Writes w F) (condition : Prop) : Writes w (F.given condition) where
  exists_mem := fun h_ne => by
    obtain ⟨p, hp, h_bytes⟩ := h.exists_mem (Form.nonempty_given.1 h_ne).2
    exact ⟨p, ⟨(Form.nonempty_given.1 h_ne).1, hp⟩, h_bytes⟩
  append_eq_iff := fun p hp => h.append_eq_iff p hp.2

theorem exactly (bytes : List UInt8) : Writes bytes (Form.exactly bytes) where
  exists_mem _ := ⟨_, rfl, rfl⟩
  append_eq_iff := by
    rintro _ rfl r r'
    simp [Piece.Canonical]

end Writes

theorem append_zero_cons_inj {l l' r r' : List UInt8} (h : 0 ∉ l) (h' : 0 ∉ l') :
    l ++ 0 :: r = l' ++ 0 :: r' ↔ l = l' ∧ r = r' := by
  induction l generalizing l' with
  | nil => cases l' <;> simp_all
  | cons a l ih =>
    cases l' with
    | nil =>
      -- the zero byte ends one list while the other goes on
      have h_head : a ≠ 0 := fun h_zero => h (h_zero ▸ List.mem_cons_self)
      simp [h_head]
    | cons b l' =>
      rw [List.mem_cons, not_or] at h h'
      simp [ih h.2 h'.2, and_assoc]

theorem word_append_inj {w w' : UInt32} {r r' : List UInt8} :
    Writer.word w ++ r = Writer.word w' ++ r' ↔ w = w' ∧ r = r' := by
  constructor
  · intro h
    simp only [Writer.word, List.cons_append, List.nil_append, List.cons.injEq,
      ← UInt8.toNat_inj, UInt8.toNat_ofNat'] at h
    have h_w := w.toNat_lt
    have h_w' := w'.toNat_lt
    -- four digits to the base 256 make up a word
    exact ⟨UInt32.toNat_inj.1 (by omega), h.2.2.2.2⟩
  · rintro ⟨rfl, rfl⟩
    rfl

namespace Writes

theorem text (s : String) : Writes (Writer.text s) (Form.text s) where
  exists_mem h :=
    ⟨_, ⟨Text.encode s, mt Text.zero_mem_encode_iff.1 (Form.nonempty_text.1 h),
      Text.decode_encode s, rfl⟩, rfl⟩
  append_eq_iff := by
    rintro _ ⟨raw, h_raw, rfl, rfl⟩ r r'
    have h_encode : 0 ∉ Text.encode (Text.decode raw) :=
      mt Text.zero_mem_encode_iff.1 (Text.nul_notMem_decode h_raw)
    -- both spellings end at their first zero byte
    simp [Writer.text, append_zero_cons_inj h_encode h_raw, Text.encode_decode_iff,
      Piece.Canonical, Field.Canonical]

theorem flag (b : Bool) : Writes (Writer.flag b) (Form.flag b) where
  exists_mem _ := by
    cases b
    · exact ⟨_, ⟨0, rfl, rfl⟩, rfl⟩
    · exact ⟨_, ⟨1, rfl, rfl⟩, rfl⟩
  append_eq_iff := by
    rintro _ ⟨byte, rfl, rfl⟩ r r'
    by_cases h : byte = 0
    · simp [h, Writer.flag, Piece.Canonical, Field.Canonical]
    · -- of all bytes that set the flag a writer chooses 1
      simp [bne_iff_ne.2 h, h, Writer.flag, Piece.Canonical, Field.Canonical, @eq_comm _ 1 byte]

/-- A length is not negative exactly if it is the table's length as a word. -/
theorem signedLength {size : Nat} :
    Writes (Writer.word (UInt32.ofNat size)) (Form.signedLength size) where
  exists_mem h := by
    rw [Form.nonempty_signedLength] at h
    exact ⟨_, ⟨_, by rw [Form.toInt_toInt32_ofNat h, Int.toNat_natCast], rfl⟩, rfl⟩
  append_eq_iff := by
    rintro _ ⟨count, rfl, rfl⟩ r r'
    have h_lt := count.toInt32.toInt_lt
    suffices h : UInt32.ofNat count.toInt32.toInt.toNat = count ↔ 0 ≤ count.toInt32 by
      simpa [word_append_inj, Piece.Canonical, Field.Canonical] using fun _ => h
    rw [Int32.le_iff_toInt_le, Int32.toInt_zero]
    constructor
    · intro h
      rw [← h, Form.toInt_toInt32_ofNat (by omega)]
      exact Int.natCast_nonneg _
    · -- a word is determined by the signed number it is read as
      intro h
      have h_signed : (UInt32.ofNat count.toInt32.toInt.toNat).toInt32 = count.toInt32 := by
        rw [← Int32.toInt_inj, Form.toInt_toInt32_ofNat (by omega)]
        exact Int.toNat_of_nonneg h
      exact congrArg Int32.toUInt32 h_signed

section

variable {α : Type} {write : α → List UInt8} {entry : α → Form}

theorem entries (h : ∀ a, Writes (write a) (entry a)) (members : List α) :
    Writes (members.flatMap write) (Form.entries entry members) := by
  induction members with
  | nil => exact .exactly []
  | cons a members ih =>
    -- each member is told apart from whatever follows it
    rw [List.flatMap_cons]
    exact (h a).append ih

theorem signedTable (h : ∀ a, Writes (write a) (entry a)) (members : List α) :
    Writes (Writer.table write members) (Form.signedTable entry members) :=
  signedLength.append (entries h members)

theorem table (h : ∀ a, Writes (write a) (entry a)) (members : List α) :
    Writes (Writer.table write members) (Form.table entry members) :=
  ((exactly _).append (entries h members)).given _

end

end Writes

/-! ### The forms of programs -/

namespace Form

def instruction (i : Instruction) : Form := exactly (Writer.instruction i)

def script (s : Script) : Form :=
  text s.name ++ text s.file ++ word s.kind.bits ++ word s.offset ++ signedTable text s.localNames
    ++ word s.entry ++ word s.parameterCount ++ word s.id

/-- The text pool leaves no choice: a negative length is refused. -/
def data (bytes : List UInt8) : Form :=
  (exactly (Writer.table (fun b => [b]) bytes)).given (bytes.length < 2 ^ 31)

def program (p : Program) : Form :=
  (exactly Image.magic).given (p.version = currentVersion) ++ word p.version
    ++ signedTable text p.globals ++ signedTable instruction p.code ++ signedTable word p.autostart
    ++ signedTable script p.scripts ++ data p.data

end Form

namespace Writes

theorem script (s : Script) : Writes (Writer.script s) (Form.script s) :=
  text s.name |>.append (text s.file) |>.append (exactly _) |>.append (exactly _)
    |>.append (signedTable text s.localNames) |>.append (exactly _) |>.append (exactly _)
    |>.append (exactly _)

theorem program (p : Program) : Writes (Writer.program p) (Form.program p) :=
  (exactly _).given _ |>.append (exactly _) |>.append (signedTable text p.globals)
    |>.append (signedTable (fun _ => exactly _) p.code)
    |>.append (signedTable (fun _ => exactly _) p.autostart)
    |>.append (signedTable script p.scripts) |>.append ((exactly _).given _)

end Writes

/-! ### The forms of checkpoints and images -/

/-- The task runs a script of the table, and has its name and file. -/
def Task.Runs (t : Task) (scripts : List Script) : Prop :=
  ∃ s, ofOrdinal? scripts t.scriptId = some s ∧ t.name = s.name ∧ t.file = s.file

namespace Form

def variableSlot (v : Variable) : Form :=
  exactly [v.value.tag.number.toUInt8] ++ word v.value.bits ++ text v.name

/-- The name and the file of a task are not written, so they have to be those of its script. -/
def task (scripts : List Script) (t : Task) : Form :=
  (table variableSlot t.locals ++ word t.id ++ word t.address ++ word t.savedAddress
    ++ word t.waitingFor ++ word t.offset ++ word t.handlerIndex ++ word t.ticks ++ word t.scriptId
    ++ word t.kind.bits ++ flag t.inHandler ++ flag t.stopped ++ flag t.yielded ++ flag t.sleeping
    ++ exactly (Writer.stack t.stack) ++ table word t.handlers).given (t.Runs scripts)

def checkpoint (scripts : List Script) (c : Checkpoint) : Form :=
  exactly (Writer.stack c.stack) ++ table variableSlot c.globals ++ table (task scripts) c.tasks
    ++ word c.ticks ++ word c.line ++ word c.highestTask ++ word c.highestScript ++ word c.executed

def image (i : Image) : Form :=
  program i.program ++
    match i.checkpoint with
    | none => exactly []
    | some c => checkpoint i.program.scripts c

end Form

namespace Writes

theorem variableSlot (v : Variable) : Writes (Writer.variableSlot v) (Form.variableSlot v) :=
  exactly _ |>.append (exactly _) |>.append (text v.name)

theorem task (scripts : List Script) (t : Task) : Writes (Writer.task t) (Form.task scripts t) :=
  table variableSlot t.locals |>.append (exactly _) |>.append (exactly _) |>.append (exactly _)
    |>.append (exactly _) |>.append (exactly _) |>.append (exactly _) |>.append (exactly _)
    |>.append (exactly _) |>.append (exactly _) |>.append (flag _) |>.append (flag _)
    |>.append (flag _) |>.append (flag _) |>.append (exactly _)
    |>.append (table (fun _ => exactly _) t.handlers) |>.given _

theorem checkpoint (scripts : List Script) (c : Checkpoint) :
    Writes (Writer.checkpoint c) (Form.checkpoint scripts c) :=
  exactly _ |>.append (table variableSlot c.globals) |>.append (table (task scripts) c.tasks)
    |>.append (exactly _) |>.append (exactly _) |>.append (exactly _) |>.append (exactly _)
    |>.append (exactly _)

/-- The bytes of an image are its canonical piece. -/
theorem image (i : Image) : Writes i.encode (Form.image i) := by
  refine (program i.program).append ?_
  cases i.checkpoint with
  | none => exact exactly []
  | some c => exact checkpoint i.program.scripts c

end Writes

/-! ### Which images have a form -/

/-- The text has no zero character, which would end it early. -/
def Text.NulFree (s : String) : Prop := '\x00' ∉ s.toList

/-- The script can be written down. -/
structure Script.Writable (s : Script) : Prop where
  name : Text.NulFree s.name
  file : Text.NulFree s.file
  localNames_length : s.localNames.length < 2 ^ 31
  localNames : ∀ n ∈ s.localNames, Text.NulFree n

/-- The program can be written down. -/
structure Program.Writable (p : Program) : Prop where
  version : p.version = currentVersion
  globals_length : p.globals.length < 2 ^ 31
  globals : ∀ n ∈ p.globals, Text.NulFree n
  code_length : p.code.length < 2 ^ 31
  autostart_length : p.autostart.length < 2 ^ 31
  scripts_length : p.scripts.length < 2 ^ 31
  scripts : ∀ s ∈ p.scripts, s.Writable
  data_length : p.data.length < 2 ^ 31

/-- The task can be written down beside a table of scripts. -/
structure Task.Writable (scripts : List Script) (t : Task) : Prop where
  runs : t.Runs scripts
  locals_length : t.locals.length < 2 ^ 32
  locals : ∀ v ∈ t.locals, Text.NulFree v.name
  handlers_length : t.handlers.length < 2 ^ 32

/-- The checkpoint can be written down beside a table of scripts. -/
structure Checkpoint.Writable (scripts : List Script) (c : Checkpoint) : Prop where
  globals_length : c.globals.length < 2 ^ 32
  globals : ∀ v ∈ c.globals, Text.NulFree v.name
  tasks_length : c.tasks.length < 2 ^ 32
  tasks : ∀ t ∈ c.tasks, t.Writable scripts

/-- The image can be written down so that it is read as it is. -/
structure Image.Writable (i : Image) : Prop where
  program : i.program.Writable
  checkpoint : ∀ c, i.checkpoint = some c → c.Writable i.program.scripts

namespace Form

section

variable {α : Type} {entry : α → Form} {members : List α}

@[simp] theorem nonempty_signedTable : (signedTable entry members).Nonempty ↔
    members.length < 2 ^ 31 ∧ ∀ a ∈ members, (entry a).Nonempty := by
  simp [signedTable]

@[simp] theorem nonempty_table : (table entry members).Nonempty ↔
    members.length < 2 ^ 32 ∧ ∀ a ∈ members, (entry a).Nonempty := by
  simp [table]

end

theorem nonempty_script_iff {s : Script} : (script s).Nonempty ↔ s.Writable := by
  constructor
  · intro h
    obtain ⟨h_name, h_file, h_length, h_locals⟩ := by simpa [script, and_assoc] using h
    exact ⟨h_name, h_file, h_length, h_locals⟩
  · rintro ⟨h_name, h_file, h_length, h_locals⟩
    simpa [script, and_assoc] using ⟨h_name, h_file, h_length, h_locals⟩

theorem nonempty_program_iff {p : Program} : (program p).Nonempty ↔ p.Writable := by
  constructor
  · intro h
    obtain ⟨h_version, h_globals_length, h_globals, h_code, h_autostart, h_scripts_length,
        h_scripts, h_data⟩ := by
      simpa [program, instruction, data, nonempty_script_iff, and_assoc] using h
    exact ⟨h_version, h_globals_length, h_globals, h_code, h_autostart, h_scripts_length,
      h_scripts, h_data⟩
  · rintro ⟨h_version, h_globals_length, h_globals, h_code, h_autostart, h_scripts_length,
      h_scripts, h_data⟩
    simpa [program, instruction, data, nonempty_script_iff, and_assoc] using
      ⟨h_version, h_globals_length, h_globals, h_code, h_autostart, h_scripts_length, h_scripts,
        h_data⟩

theorem nonempty_task_iff {scripts : List Script} {t : Task} :
    (task scripts t).Nonempty ↔ t.Writable scripts := by
  constructor
  · intro h
    obtain ⟨h_runs, h_locals_length, h_locals, h_handlers⟩ := by
      simpa [task, variableSlot, and_assoc] using h
    exact ⟨h_runs, h_locals_length, h_locals, h_handlers⟩
  · rintro ⟨h_runs, h_locals_length, h_locals, h_handlers⟩
    simpa [task, variableSlot, and_assoc] using ⟨h_runs, h_locals_length, h_locals, h_handlers⟩

theorem nonempty_checkpoint_iff {scripts : List Script} {c : Checkpoint} :
    (checkpoint scripts c).Nonempty ↔ c.Writable scripts := by
  constructor
  · intro h
    obtain ⟨h_globals_length, h_globals, h_tasks_length, h_tasks⟩ := by
      simpa [checkpoint, variableSlot, nonempty_task_iff, and_assoc] using h
    exact ⟨h_globals_length, h_globals, h_tasks_length, h_tasks⟩
  · rintro ⟨h_globals_length, h_globals, h_tasks_length, h_tasks⟩
    simpa [checkpoint, variableSlot, nonempty_task_iff, and_assoc] using
      ⟨h_globals_length, h_globals, h_tasks_length, h_tasks⟩

/-- **The images that have a form** are those that can be written down. -/
theorem nonempty_image_iff {i : Image} : (image i).Nonempty ↔ i.Writable := by
  unfold image
  rw [nonempty_append, nonempty_program_iff]
  -- Without a checkpoint, nothing follows the program; with one, it has to be written beside the
  -- scripts.
  cases h : i.checkpoint with
  | none => exact ⟨fun ⟨h_program, _⟩ => ⟨h_program, by simp [h]⟩,
      fun h_image => ⟨h_image.program, nonempty_exactly⟩⟩
  | some c =>
    simp only [nonempty_checkpoint_iff]
    exact ⟨fun ⟨h_program, h_c⟩ => ⟨h_program, by simpa [h] using h_c⟩,
      fun h_image => ⟨h_image.program, h_image.checkpoint c h⟩⟩

end Form

end ScriptMachine
