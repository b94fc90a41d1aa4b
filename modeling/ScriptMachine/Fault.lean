/-!
# Faults

A fault is what goes wrong while a script runs. It never stops the machine: it is reported to the
host, with an optional text and number, and a safe value takes the place of the missing one.
-/

namespace ScriptMachine

/-- The causes, in the order of the numbers that hosts expect. -/
inductive FaultCode where
  | noError
  | stackEmpty
  | stackFull
  | scriptIdNotFound
  | scriptNameNotFound
  | noScriptOfKind
  | taskIdNotFound
  | nativeNotFound
  | divisionByZero
  | invalidType
  | invalidOperand
deriving DecidableEq, Repr, Inhabited

namespace FaultCode

def all : List FaultCode :=
  [noError, stackEmpty, stackFull, scriptIdNotFound, scriptNameNotFound, noScriptOfKind,
    taskIdNotFound, nativeNotFound, divisionByZero, invalidType, invalidOperand]

def number (code : FaultCode) : UInt32 := UInt32.ofNat (all.idxOf code)

def ofNumber? (number : UInt32) : Option FaultCode := all[number.toNat]?

@[simp] theorem ofNumber?_number (code : FaultCode) : ofNumber? code.number = some code := by
  cases code <;> rfl

def message : FaultCode → String
  | noError => "no error"
  | stackEmpty => "stack is empty"
  | stackFull => "stack is full"
  | scriptIdNotFound => "script id not found"
  | scriptNameNotFound => "script name not found"
  | noScriptOfKind => "no script of type"
  | taskIdNotFound => "task id not found"
  | nativeNotFound => "native function not found"
  | divisionByZero => "division by zero"
  | invalidType => "invalid data type"
  | invalidOperand => "invalid operand"

end FaultCode

/-- A fault as it is reported: the cause, a name and the offending number, where there are any. -/
structure Fault where
  code : FaultCode
  text : String
  number : UInt32
deriving DecidableEq, Repr

end ScriptMachine
