import ScriptMachine.Single
import ScriptMachine.Text.Column

/-!
# Single-precision numbers as decimal text

`Single.fixed` writes a number with a given number of decimal places: the exact value rounded once,
ties to the even last digit, with the sign of a negative zero. `Single.ofText?` reads decimal text
and rounds the number it denotes once.
-/

namespace ScriptMachine.Single

/-! ### Writing -/

/-- The number with `places` digits after the point. -/
def fixed (places : Nat) (x : Single) : String :=
  let sign := if x.isNegative then "-" else ""
  if x.isNaN then "NaN"
  else if x.isInfinite then sign ++ "inf"
  else
    let scale := Nat.pow 10 places
    let scaled := roundHalfEven (x.units * scale) unitsInOne
    sign ++ toString (scaled / scale) ++ "."
      ++ Text.padLeft places '0' (toString (scaled % scale))

/-! ### Reading -/

/-- The number nearest to `digits` times a power of ten. An exponent beyond either bound gives what
the bound gives, namely infinity or zero. -/
def ofScientific (negative : Bool) (digits : Nat) (exponent : Int) : Single :=
  let lowest : Int := -((Nat.toDigits 10 digits).length + 60)
  let exponent := max lowest (min exponent 40)
  if 0 ≤ exponent then ofRatio negative (digits * Nat.pow 10 exponent.toNat * unitsInOne) 1
  else ofRatio negative (digits * unitsInOne) (Nat.pow 10 (-exponent).toNat)

/-- The number that a list of digits denotes. -/
def digitsValue (digits : List Char) : Nat :=
  digits.foldl (fun n d => n * 10 + (d.toNat - '0'.toNat)) 0

/-- An optional sign, and the rest. -/
def splitSign : List Char → Bool × List Char
  | '-' :: rest => (true, rest)
  | '+' :: rest => (false, rest)
  | rest => (false, rest)

/-- Leading digits, and the rest. -/
def splitDigits (text : List Char) : List Char × List Char :=
  (text.takeWhile Char.isDigit, text.dropWhile Char.isDigit)

/-- The exponent part of a decimal: nothing, or the letter `e`, an optional sign and digits. -/
def readExponent? : List Char → Option Int
  | [] => some 0
  | mark :: rest =>
    if mark = 'e' ∨ mark = 'E' then
      let (negative, rest) := splitSign rest
      let (digits, rest) := splitDigits rest
      if digits.isEmpty || !rest.isEmpty then none
      else some (if negative then -(digitsValue digits : Int) else digitsValue digits)
    else none

/-- Digits with an optional point anywhere among them, at least one digit, and an exponent part. -/
def readDecimal? (negative : Bool) (text : List Char) : Option Single := do
  let (whole, rest) := splitDigits text
  let (fraction, rest) := match rest with
    | '.' :: rest => splitDigits rest
    | rest => ([], rest)
  guard !(whole.isEmpty && fraction.isEmpty)
  let exponent ← readExponent? rest
  return ofScientific negative (digitsValue (whole ++ fraction)) (exponent - fraction.length)

/-- A decimal, an infinity or a NaN, with an optional sign; letters in either case. -/
def ofText? (text : String) : Option Single :=
  let (negative, rest) := splitSign text.toList
  match String.ofList (rest.map Char.toLower) with
  | "inf" => some (infinity negative)
  | "infinity" => some (infinity negative)
  | "nan" => some nan
  | _ => readDecimal? negative rest

end ScriptMachine.Single
