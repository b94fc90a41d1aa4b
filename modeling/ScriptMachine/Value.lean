import ScriptMachine.Single.Decimal

/-!
# Values

Every slot of a stack and every variable holds a `Value`: a type tag and a 32-bit payload. The tag
says how the payload is meant, but nothing stops a program from reading a payload in another way, so
the payload is kept as its bits, and `Value.int`, `Value.single`, `Value.object` and `Value.truth`
are readings of the same bits.
-/

namespace ScriptMachine

/-! ### Type tags -/

/-- The type tags, in the order of their numbers. -/
inductive Tag where
  | untyped
  | int
  | float
  | vector
  | object
  | reserved5
  | boolean
  | reserved7
deriving DecidableEq, Repr, Inhabited

namespace Tag

def all : List Tag := [untyped, int, float, vector, object, reserved5, boolean, reserved7]

/-- The number under which a tag is stored. -/
def number : Tag → UInt32
  | untyped => 0
  | int => 1
  | float => 2
  | vector => 3
  | object => 4
  | reserved5 => 5
  | boolean => 6
  | reserved7 => 7

def ofNumber? (number : UInt32) : Option Tag := all[number.toNat]?

@[simp] theorem ofNumber?_number (tag : Tag) : ofNumber? tag.number = some tag := by
  cases tag <;> rfl

def name : Tag → String
  | untyped => "NONE"
  | int => "INT"
  | float => "FLOAT"
  | vector => "VECTOR"
  | object => "OBJECT"
  | reserved5 => "UNK2"
  | boolean => "BOOLEAN"
  | reserved7 => "UNK4"

/-- The letter that marks a typed mnemonic. -/
def suffix : Tag → String
  | int => "I"
  | float => "F"
  | vector => "V"
  | object => "O"
  | boolean => "B"
  | _ => ""

end Tag

/-! ### Values -/

/-- A type tag and a payload. -/
structure Value where
  tag : Tag
  bits : UInt32
deriving DecidableEq, Repr

namespace Value

def ofInt (n : Int32) : Value := ⟨.int, n.toUInt32⟩

def ofSingle (x : Single) : Value := ⟨.float, x.bits⟩

def ofObject (id : UInt32) : Value := ⟨.object, id⟩

/-- A truth value with the payload 0 or 1. -/
def ofBool (b : Bool) : Value := ⟨.boolean, if b then 1 else 0⟩

/-- What an empty stack yields. -/
def zero : Value := ⟨.int, 0⟩

/-- What a fresh variable holds, and what an unknown one is read as. -/
def blank : Value := ⟨.float, 0⟩

instance : Inhabited Value := ⟨blank⟩

/-- The payload as a signed integer. -/
def int (v : Value) : Int32 := v.bits.toInt32

/-- The payload as a floating point number. -/
def single (v : Value) : Single := ⟨v.bits⟩

/-- The payload as an object id. -/
def object (v : Value) : UInt32 := v.bits

/-- Any payload but zero is true. -/
def truth (v : Value) : Bool := v.bits != 0

/-- The object held by the slot, if its tag says that it holds one. -/
def object? (v : Value) : Option UInt32 :=
  if v.tag = .object then some v.bits else none

/-- The same payload under another tag. -/
def retag (v : Value) (tag : Tag) : Value := { v with tag }

@[simp] theorem bits_retag (v : Value) (tag : Tag) : (v.retag tag).bits = v.bits := rfl

@[simp] theorem tag_retag (v : Value) (tag : Tag) : (v.retag tag).tag = tag := rfl

/-- The value as it stands in a dump. -/
def text (v : Value) : String :=
  match v.tag with
  | .int => toString v.int.toInt
  | .float | .vector => v.single.fixed 6 ++ "f"
  | .boolean => toString v.truth
  | .object => toString v.object.toNat ++ " (object)"
  | .untyped | .reserved5 | .reserved7 => toString v.int.toInt ++ " (unk type)"

end Value

/-! ### Variables -/

/-- A named slot. -/
structure Variable where
  name : String
  value : Value
deriving DecidableEq, Repr, Inhabited

namespace Variable

/-- A variable that nothing has been stored in. -/
def fresh (name : String) : Variable := ⟨name, .blank⟩

end Variable

end ScriptMachine
