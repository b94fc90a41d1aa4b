/-!
# Bytes as text

Text is stored as UTF-8. Writing is exact (`Text.encode`). Reading (`Text.decode`) accepts any
bytes: the longest run of bytes that begins like the encoding of a character but does not complete
one is read as a single replacement character, and so is a byte that can begin nothing.

Reading is a walk over the bytes with a `Partial` character in hand, so it is a plain recursion on
the list.
-/

namespace ScriptMachine.Text

/-- The bytes of a text. -/
def encode (text : String) : List UInt8 := text.toList.flatMap String.utf8EncodeChar

/-- Stands for bytes that are no character. -/
def replacement : Char := '\uFFFD'

/-- A character of which some bytes are read: the bits so far, and the ranges in which the bytes
that are still missing have to lie. -/
structure Partial where
  bits : Nat
  missing : List (UInt8 × UInt8)

/-- What a lead byte announces. The second byte has a narrower range where a wider one would allow
an overlong form, a surrogate or a number past the last character. -/
def Partial.ofLead? (lead : UInt8) : Option Partial :=
  let any : UInt8 × UInt8 := (0x80, 0xBF)
  let b := lead.toNat
  if b < 0x80 then some ⟨b, []⟩
  else if b < 0xC2 then none
  else if b < 0xE0 then some ⟨b % 0x20, [any]⟩
  else if b = 0xE0 then some ⟨0, [(0xA0, 0xBF), any]⟩
  else if b = 0xED then some ⟨0xD, [(0x80, 0x9F), any]⟩
  else if b < 0xF0 then some ⟨b % 0x10, [any, any]⟩
  else if b = 0xF0 then some ⟨0, [(0x90, 0xBF), any, any]⟩
  else if b < 0xF4 then some ⟨b % 0x08, [any, any, any]⟩
  else if b = 0xF4 then some ⟨4, [(0x80, 0x8F), any, any]⟩
  else none

/-- A partial character that misses nothing is a character. -/
def Partial.settle (inHand : Partial) : List Char × Option Partial :=
  if inHand.missing.isEmpty then ([Char.ofNat inHand.bits], none) else ([], some inHand)

/-- Takes in the next byte, if it lies in the range it has to. -/
def Partial.accept? (inHand : Partial) (byte : UInt8) : Option Partial :=
  match inHand.missing with
  | [] => none
  | (low, high) :: missing =>
    if low ≤ byte ∧ byte ≤ high then some ⟨inHand.bits * 64 + byte.toNat % 64, missing⟩ else none

/-- Reads a byte with nothing in hand. -/
def begin (byte : UInt8) : List Char × Option Partial :=
  match Partial.ofLead? byte with
  | some inHand => inHand.settle
  | none => ([replacement], none)

/-- Reads a byte: the characters that are settled by it, and what is in hand after it. -/
def readByte (inHand : Option Partial) (byte : UInt8) : List Char × Option Partial :=
  match inHand with
  | none => begin byte
  | some unfinished =>
    match unfinished.accept? byte with
    | some inHand => inHand.settle
    | none => (replacement :: (begin byte).1, (begin byte).2)

/-- The characters in a list of bytes, given what is in hand from the bytes before it. -/
def decodeFrom (inHand : Option Partial) : List UInt8 → List Char
  | [] => if inHand.isSome then [replacement] else []
  | byte :: rest => (readByte inHand byte).1 ++ decodeFrom (readByte inHand byte).2 rest

/-- The text in a list of bytes. -/
def decode (bytes : List UInt8) : String := String.ofList (decodeFrom none bytes)

end ScriptMachine.Text
