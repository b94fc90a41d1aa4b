import ScriptMachine.Proofs.Image.Reading

/-!
# Writing and reading images

What the two directions of the format have to do with each other:

* `Image.decode_encode_iff` : reading what was written yields the same image exactly for the images
  that can be written down (`Image.Writable`);
* `Image.decode_normalises` : reading brings any accepted bytes into the form that a writer
  chooses. What is read can be written down and read again, and the bytes are those of a writer
  unless one of the fields in which there is a choice is spelled in another way.

Both are read off the form of an image. Its pieces are what is decoded (`Image.decode_eq_ok_iff`),
it has one exactly if the image can be written down (`Form.nonempty_image_iff`), and then the bytes
of the image are one of them (`Writes.image`).
-/

namespace ScriptMachine

/-- What can be written down is read as it was. -/
theorem Image.Writable.decode_encode {i : Image} (h : i.Writable) :
    Image.decode i.encode = .ok i := by
  obtain ⟨p, hp, h_bytes⟩ := (Writes.image i).exists_mem (Form.nonempty_image_iff.2 h)
  exact Image.decode_eq_ok_iff.2 ⟨p, hp, h_bytes.symm⟩

/-- What is decoded can be written down. -/
theorem Image.writable_of_decode {bytes : List UInt8} {i : Image}
    (h : Image.decode bytes = .ok i) : i.Writable := by
  obtain ⟨p, hp, -⟩ := Image.decode_eq_ok_iff.1 h
  exact Form.nonempty_image_iff.1 ⟨p, hp⟩

/-- **Round trip of images.** What is written is read as it was, bit for bit, if the tables fit the
numbers that stand for their lengths, no text has a zero character in it and every task carries the
name and the file of its script. Of no other image is that true. -/
theorem Image.decode_encode_iff (i : Image) : Image.decode i.encode = .ok i ↔ i.Writable :=
  ⟨Image.writable_of_decode, Image.Writable.decode_encode⟩

/-- The three kinds of fields. -/
theorem canonical_iff {fields : List Field} : (∀ f ∈ fields, f.Canonical) ↔
    (∀ raw, .text raw ∈ fields → Text.Valid raw) ∧
    (∀ count, .length count ∈ fields → 0 ≤ count.toInt32) ∧
    (∀ byte, .flag byte ∈ fields → byte = 0 ∨ byte = 1) := by
  constructor
  · intro h
    exact ⟨fun raw hf => h _ hf, fun count hf => h _ hf, fun byte hf => h _ hf⟩
  · rintro ⟨h_text, h_length, h_flag⟩ f hf
    -- each kind of field has its own way of being canonical
    cases f with
    | text raw => exact h_text raw hf
    | length count => exact h_length count hf
    | flag byte => exact h_flag byte hf

/-- **Reading normalises.** An image that was decoded can be written down, with stacks within their
capacity, and is read again as it is. The bytes it was decoded from are a piece of its form, and the
writer gives the same bytes exactly if every text in them is valid UTF-8, no signed length is
negative and every flag is 0 or 1. -/
theorem Image.decode_normalises {bytes : List UInt8} {i : Image}
    (h : Image.decode bytes = .ok i) :
    i.Writable ∧
    (∀ c, i.checkpoint = some c →
      c.stack.size ≤ Stack.capacity ∧ ∀ t ∈ c.tasks, t.stack.size ≤ Stack.capacity) ∧
    Image.decode i.encode = .ok i ∧
    (∃ fields, ⟨bytes, fields⟩ ∈ Form.image i) ∧
    ∀ fields, ⟨bytes, fields⟩ ∈ Form.image i →
      (i.encode = bytes ↔
        (∀ raw, .text raw ∈ fields → Text.Valid raw) ∧
        (∀ count, .length count ∈ fields → 0 ≤ count.toInt32) ∧
        (∀ byte, .flag byte ∈ fields → byte = 0 ∨ byte = 1)) := by
  have h_writable := Image.writable_of_decode h
  refine ⟨h_writable, fun c _ => ⟨c.stack.size_le, fun t _ => t.stack.size_le⟩,
    h_writable.decode_encode, ?_, fun fields h_form => ?_⟩
  · -- the bytes are those of a piece of the form, which lists its fields
    obtain ⟨p, hp, rfl⟩ := Image.decode_eq_ok_iff.1 h
    exact ⟨p.fields, hp⟩
  · -- of all pieces of a form the writer gives the canonical one
    rw [← canonical_iff]
    exact (Writes.image i).eq_iff h_form

/-- A save file with a name that is no text, a table of negative length, a flag of 2 and a NaN with
a payload of its own. -/
def looseBytes : List UInt8 :=
  Image.magic ++ Writer.word 7 ++ Writer.word 1 ++ [0xFF, 0] ++ Writer.word 0xFFFFFFFF
    ++ Writer.word 0 ++ Writer.word 1 ++ [0x4D, 0, 0] ++ [1, 0, 0, 1, 2, 3].flatMap Writer.word
    ++ Writer.word 0
    -- the main stack holds the NaN, and the one task runs the script with the id 3
    ++ [1, 1, 0, 0x7FC0BEEF, 2, 0, 1].flatMap Writer.word
    ++ [0, 9, 0, 0, 0, 0, 0, 0, 1, 1].flatMap Writer.word ++ [2, 0, 0, 1]
    ++ [0, 0, 0, 0].flatMap Writer.word ++ [5, 0, 9, 3, 40].flatMap Writer.word

/-- What `looseBytes` are read as. -/
def looseImage : Image :=
  let script : Script := ⟨"M", "", ⟨1⟩, 0, [], 1, 2, 3⟩
  { program := { globals := ["\uFFFD"], scripts := [script] }
    checkpoint := some {
      stack := { slots := [⟨.float, 0x7FC0BEEF⟩], pushes := 1, pops := 0 }
      tasks := [{ Task.start 9 script with
        scriptId := 1, address := 0, inHandler := true, sleeping := true }]
      ticks := 5, highestTask := 9, highestScript := 3, executed := 40 } }

theorem decode_looseBytes : Image.decode looseBytes = .ok looseImage := by decide +kernel

theorem looseBytes_normalised : Image.decode looseBytes = .ok looseImage ∧
    Image.decode looseImage.encode = .ok looseImage ∧ looseImage.encode ≠ looseBytes := by
  refine ⟨decode_looseBytes, (Image.decode_normalises decode_looseBytes).2.2.1, ?_⟩
  decide +kernel

end ScriptMachine
