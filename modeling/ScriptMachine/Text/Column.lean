/-!
# Text in columns

Padding to a width that is counted in characters. Text that is already as wide, or wider, is left
as it is.
-/

namespace ScriptMachine.Text

/-- Fills up with `fill` on the left. -/
def padLeft (width : Nat) (fill : Char) (text : String) : String :=
  String.ofList (List.replicate (width - text.length) fill) ++ text

/-- Fills up with blanks on the right. -/
def padRight (width : Nat) (text : String) : String :=
  text ++ String.ofList (List.replicate (width - text.length) ' ')

/-- A number as decimal digits, with blanks on the left. -/
def rightAligned (width n : Nat) : String := padLeft width ' ' (toString n)

/-- Eight hexadecimal digits. -/
def hexWord (word : UInt32) : String :=
  padLeft 8 '0' (String.ofList (Nat.toDigits 16 word.toNat))

end ScriptMachine.Text
