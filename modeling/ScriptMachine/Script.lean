import ScriptMachine.Value

/-!
# Scripts

A `Script` describes one compiled unit of a program: its name, where its code begins, its local
variables and how many of them are parameters. The kinds of scripts are bits of a word, so that a
mask can select several of them.

Variables are addressed by a single number. Up to the script's offset it counts the globals, of
which number 0 is the null variable; above it, it counts the locals (`Place.ofId`).
-/

namespace ScriptMachine

/-! ### Kinds of scripts -/

/-- A set of script kinds, one per bit. -/
structure ScriptKind where
  bits : UInt32
deriving DecidableEq, Repr, Inhabited

namespace ScriptKind

def script : ScriptKind := ⟨1⟩

def help : ScriptKind := ⟨2⟩

def challengeHelp : ScriptKind := ⟨4⟩

def templeHelp : ScriptKind := ⟨8⟩

def templeSpecial : ScriptKind := ⟨16⟩

def multiplayerHelp : ScriptKind := ⟨64⟩

def none : ScriptKind := ⟨0⟩

def all : ScriptKind := ⟨0xFFFFFFFF⟩

/-- The two share a kind. -/
def overlaps (k mask : ScriptKind) : Bool := k.bits &&& mask.bits != 0

def union (k l : ScriptKind) : ScriptKind := ⟨k.bits ||| l.bits⟩

/-- Only a single known kind has a name. -/
def name (k : ScriptKind) : String :=
  if k = script then "script"
  else if k = help then "help script"
  else if k = challengeHelp then "challenge help script"
  else if k = templeHelp then "temple help script"
  else if k = templeSpecial then "temple special script"
  else if k = multiplayerHelp then "multiplayer help script"
  else "unknown script"

end ScriptKind

/-! ### Scripts -/

/-- One compiled unit. Ids count from 1, in the order of the script table. -/
structure Script where
  name : String
  file : String
  kind : ScriptKind
  /-- The highest variable id that still addresses a global. -/
  offset : UInt32
  /-- The names of the locals, parameters first. -/
  localNames : List String
  entry : UInt32
  parameterCount : UInt32
  id : UInt32
deriving DecidableEq, Repr, Inhabited

namespace Script

def parameters (s : Script) : List String := s.localNames.take s.parameterCount.toNat

/-- The locals that are not parameters. -/
def ownLocals (s : Script) : List String := s.localNames.drop s.parameterCount.toNat

/-- Kind, name and parameters, as a listing shows them. -/
def signature (s : Script) : String :=
  s.kind.name ++ " " ++ s.name ++ "(" ++ String.intercalate ", " s.parameters ++ ")"

end Script

/-- The member of a list that a number counting from 1 stands for. -/
def ofOrdinal? {α : Type} (members : List α) (ordinal : UInt32) : Option α :=
  if ordinal = 0 then none else members[ordinal.toNat - 1]?

theorem mem_of_ofOrdinal? {α : Type} {members : List α} {ordinal : UInt32} {a : α}
    (h : ofOrdinal? members ordinal = some a) : a ∈ members := by
  unfold ofOrdinal? at h
  split at h
  · contradiction
  · exact List.mem_of_getElem? h

/-! ### Addresses of variables -/

/-- Where a variable is kept. -/
inductive Place where
  | globalSlot (index : Nat)
  | localSlot (index : Nat)
deriving DecidableEq, Repr

/-- The place of the variable with a given id, for a script with the given offset. -/
def Place.ofId (id offset : UInt32) : Place :=
  if id ≤ offset then .globalSlot id.toNat else .localSlot (id.toNat - offset.toNat - 1)

end ScriptMachine
