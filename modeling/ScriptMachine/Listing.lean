import ScriptMachine.Image

/-!
# Listings

A program as readable assembly. Variables, natives and called scripts are shown by name where they
have one, and jump targets by label.

The code of a script runs from its entry through the first `END` (`Program.body`). Labels are made
by scanning the code of one script after the other (`Program.labels`): each target is named after
the script, the kind of the jump and the number of targets seen before in the script. The first name
that a target gets is the one that counts.
-/

namespace ScriptMachine

/-! ### Labels -/

/-- The addresses and instructions of a script, from its entry through its first `END`. -/
def Program.body (p : Program) (s : Script) : List (UInt32 × Instruction) :=
  let rest := p.code.zipIdx.drop s.entry.toNat
  let before := rest.takeWhile (·.1.opcode != .finish)
  (before ++ (rest.drop before.length).take 1).map fun (i, address) => (UInt32.ofNat address, i)

/-- The word for the role of an instruction's target, if it has a target. -/
def Instruction.targetWord? (i : Instruction) : Option String :=
  match i.opcode with
  | .except => some "exception_handler"
  | .jump | .jumpIfZero => some (if i.mode = Mode.backward then "loop" else "skip")
  | _ => none

/-- The targets of a script with the labels that it proposes for them. -/
def Program.scriptLabels (p : Program) (s : Script) : List (UInt32 × String) :=
  let targets := (p.body s).filterMap fun (_, i) => i.targetWord?.map (i.operand, ·)
  targets.zipIdx.map fun ((address, word), count) =>
    (address, s.name ++ "_" ++ word ++ "_" ++ toString count)

/-- All proposed labels; the first one of an address is its label. -/
def Program.labels (p : Program) : List (UInt32 × String) := p.scripts.flatMap p.scriptLabels

/-! ### Names -/

/-- What a listing draws its names from. -/
structure Symbols where
  program : Program
  /-- The names of the native functions. -/
  natives : List String
  labels : List (UInt32 × String)

def Program.symbols (p : Program) (natives : List String) : Symbols :=
  { program := p, natives, labels := p.labels }

namespace Symbols

def label? (symbols : Symbols) (address : UInt32) : Option String := symbols.labels.lookup address

/-- The labels in ascending order of address, one per address. -/
def labelTable (symbols : Symbols) : List (UInt32 × String) :=
  let addresses := (symbols.labels.map (·.1)).eraseDups.mergeSort (· ≤ ·)
  addresses.filterMap fun address => (symbols.label? address).map (address, ·)

/-- The script with the greatest entry at or below an address, and of several the last. -/
def scriptAt? (symbols : Symbols) (address : UInt32) : Option Script :=
  let better (best : Option Script) (s : Script) : Option Script :=
    if s.entry ≤ address && best.all (·.entry ≤ s.entry) then some s else best
  symbols.program.scripts.foldl better none

/-- A variable as a script sees it. -/
def variableName (symbols : Symbols) (s : Script) (id : UInt32) : String :=
  match Place.ofId id s.offset with
  | .globalSlot 0 => "null"
  | .globalSlot (index + 1) =>
    "global " ++ symbols.program.globals[index]?.getD ("#" ++ toString id.toNat)
  | .localSlot index => "local " ++ s.localNames[index]?.getD ("#" ++ toString id.toNat)

/-- A target by its label, or else by its address. -/
def targetName (symbols : Symbols) (address : UInt32) : String :=
  (symbols.label? address).getD (toString address.toNat)

end Symbols

/-! ### Instructions -/

namespace Instruction

/-- The operand of an immediate push, read as its tag says. -/
def immediateText (i : Instruction) : String :=
  match i.tag with
  | .float | .vector => Single.fixed 6 ⟨i.operand⟩
  | .object => toString i.operand.toNat
  | _ => toString i.operand.toInt32.toInt

def typedName (i : Instruction) : String := i.opcode.name ++ i.tag.suffix

/-- The text of an instruction that names nothing. -/
def plainText (i : Instruction) : String :=
  match i.opcode with
  | .endExcept => if i.mode = Mode.yield then "YIELD" else "ENDEXCEPT"
  | .swap =>
    if i.tag = .int ∧ i.operand ≠ 0 then
      "COPY " ++ (if i.mode = Mode.copyFrom then "from " else "to ")
        ++ toString i.operand.toInt32.toInt
    else "SWAP"
  | _ => i.typedName

/-- The text of an instruction, with numbers in place of names. -/
def mnemonic (i : Instruction) : String :=
  let number := toString i.operand.toNat
  match i.opcode with
  | .push =>
    if i.mode = Mode.reference then i.typedName ++ " [" ++ number ++ "]"
    else i.typedName ++ " " ++ i.immediateText
  | .pop => if i.mode = Mode.reference then i.typedName ++ " [" ++ number ++ "]" else i.plainText
  | .jump | .jumpIfZero | .except | .callNative | .line => i.opcode.name ++ " " ++ number
  | .callScript => if i.mode = Mode.async then "CALL async " ++ number else "CALL " ++ number
  | _ => i.plainText

/-- The text of an instruction of a script, with names. -/
def render (symbols : Symbols) (s : Script) (i : Instruction) : String :=
  let number := toString i.operand.toNat
  match i.opcode with
  | .push =>
    if i.mode = Mode.reference then i.typedName ++ " " ++ symbols.variableName s i.operand
    else i.typedName ++ " " ++ i.immediateText
  | .pop =>
    if i.mode = Mode.reference then i.typedName ++ " " ++ symbols.variableName s i.operand
    else i.plainText
  | .cast =>
    if i.mode = Mode.zero then "ZERO " ++ symbols.variableName s i.operand else i.plainText
  | .jump | .jumpIfZero | .except => i.opcode.name ++ " " ++ symbols.targetName i.operand
  | .callNative => "SYS " ++ symbols.natives[i.operand.toNat]?.getD number
  | .callScript =>
    let callee := ((symbols.program.script? i.operand).map (·.name)).getD number
    if i.mode = Mode.async then "CALL async " ++ callee else "CALL " ++ callee
  | .line => "LINE " ++ number
  | _ => i.plainText

end Instruction

/-! ### Listings -/

/-- One line of a listing. -/
inductive ListingLine where
  /-- The beginning of a script, with its signature. -/
  | opening (signature : String)
  | localName (name : String)
  | label (name : String)
  | code (address : UInt32) (text : String)
  | blank
deriving DecidableEq, Repr

def ListingLine.address? : ListingLine → Option UInt32
  | code address _ => some address
  | _ => none

namespace Symbols

/-- The listing of a script: its signature, its locals and its code, with labels before the
instructions that have one. -/
def scriptListing (symbols : Symbols) (s : Script) : List ListingLine :=
  let codeLines (entry : UInt32 × Instruction) : List ListingLine :=
    let (address, i) := entry
    (symbols.label? address).toList.map .label ++ [.code address (i.render symbols s)]
  .opening s.signature :: s.ownLocals.map .localName
    ++ (symbols.program.body s).flatMap codeLines ++ [.blank]

/-- The listings of all scripts, in the order of the script table. -/
def listing (symbols : Symbols) : List ListingLine :=
  symbols.program.scripts.flatMap symbols.scriptListing

end Symbols

end ScriptMachine
