/-!
# Why an image cannot be loaded

A `LoadError` says what is wrong with a file. It has two wordings: `LoadError.message` is a
sentence, and `LoadError.term` is the bare cause with its details.
-/

namespace ScriptMachine

/-- Why an image cannot be read or restored. -/
inductive LoadError where
  /-- There is no file under the given path. -/
  | fileNotFound
  /-- The bytes end inside the named field. -/
  | truncated (field : String)
  | badMagic (found : List UInt8)
  | unsupportedVersion (version : UInt32)
  | invalidOpcode (opcode : UInt32) (index : Nat)
  | invalidTag (number : UInt32)
  | negativeCount (field : String) (count : Int32)
  | stackTooLarge (count : UInt32)
  | unknownScript (task script : UInt32)
  /-- The image holds no checkpoint to restore. -/
  | missingCheckpoint
  | trailingBytes (count : Nat)
deriving DecidableEq, Repr

namespace LoadError

/-- Bytes as a list of numbers. -/
def byteList (bytes : List UInt8) : String :=
  "[" ++ String.intercalate ", " (bytes.map fun b => toString b.toNat) ++ "]"

def message : LoadError → String
  | fileNotFound => "i/o error: No such file or directory (os error 2)"
  | truncated field => "unexpected end of data while reading " ++ field
  | badMagic found => "unrecognised header, expected \"LHVM\" but found " ++ byteList found
  | unsupportedVersion version => "unsupported LHVM version " ++ toString version.toNat
  | invalidOpcode opcode index =>
    "invalid opcode " ++ toString opcode.toNat ++ " at instruction " ++ toString index
  | invalidTag number => "invalid data type " ++ toString number.toNat
  | negativeCount field count => "negative " ++ field ++ " count " ++ toString count.toInt
  | stackTooLarge count => "stack count " ++ toString count.toNat ++ " exceeds the 32 slot capacity"
  | unknownScript task script =>
    "task " ++ toString task.toNat ++ " refers to unknown script " ++ toString script.toNat
  | missingCheckpoint => "no runtime status present"
  | trailingBytes count => toString count ++ " unexpected bytes after the runtime status"

def term : LoadError → String
  | fileNotFound =>
    "Io(Os \x7b code: 2, kind: NotFound, message: \"No such file or directory\" \x7d)"
  | truncated field => "Truncated(\"" ++ field ++ "\")"
  | badMagic found => "BadMagic(" ++ byteList found ++ ")"
  | unsupportedVersion version => "UnsupportedVersion(" ++ toString version.toNat ++ ")"
  | invalidOpcode opcode index =>
    "InvalidOpcode \x7b opcode: " ++ toString opcode.toNat ++ ", index: " ++ toString index
      ++ " \x7d"
  | invalidTag number => "InvalidDataType(" ++ toString number.toNat ++ ")"
  | negativeCount field count =>
    "NegativeCount \x7b what: \"" ++ field ++ "\", count: " ++ toString count.toInt ++ " \x7d"
  | stackTooLarge count => "StackTooLarge(" ++ toString count.toNat ++ ")"
  | unknownScript task script =>
    "ScriptIdOutOfRange \x7b task: " ++ toString task.toNat ++ ", script_id: "
      ++ toString script.toNat ++ " \x7d"
  | missingCheckpoint => "MissingStatus"
  | trailingBytes count => "TrailingBytes(" ++ toString count ++ ")"

end LoadError

end ScriptMachine
