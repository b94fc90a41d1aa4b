/-!
# Single-precision numbers

A `Single` is the 32-bit pattern of a binary floating point number: one sign bit, eight bits of
exponent and twenty-three of fraction. Keeping the pattern and not the number it stands for means
that a pattern which is only moved around, a NaN with its payload included, comes out as it went in.

Every finite number is a whole multiple of `2 ^ -149`. Arithmetic therefore happens on that grid:

* `Single.units` counts the multiples, and counts an infinity above every finite number, so that
  the order of numbers is the order of integers (`Single.compare?`);
* a result is computed exactly, as a quotient of two naturals, and then rounded once by
  `Single.ofRatio`, to the nearest pattern and to the even one of two that are equally near.

A result that is no number is always `Single.nan`.
-/

namespace ScriptMachine

/-- The whole number nearest to `num / den`; of two that are equally near, the even one. -/
def roundHalfEven (num den : Nat) : Nat :=
  let quotient := num / den
  let rest := num % den
  if 2 * rest < den then quotient
  else if den < 2 * rest then quotient + 1
  else quotient + quotient % 2

/-- A single-precision number, as its bit pattern. -/
structure Single where
  bits : UInt32
deriving DecidableEq, Repr, Inhabited

namespace Single

/-! ### Reading a pattern -/

/-- The weight of the sign bit. -/
def signWeight : Nat := 0x80000000

/-- The weight of the lowest bit of the exponent, just above the fraction. -/
def exponentWeight : Nat := 0x800000

/-- How many steps of the grid make up the number one. -/
def unitsInOne : Nat := Nat.pow 2 149

/-- The sign bit is set. Zeros and NaNs have a sign too. -/
def isNegative (x : Single) : Bool := signWeight ≤ x.bits.toNat

/-- The pattern without its sign bit. -/
def magnitude (x : Single) : Nat := x.bits.toNat % signWeight

/-- The magnitude of an infinity: the exponent is all ones and the fraction zero. -/
def infiniteMagnitude : Nat := 255 * exponentWeight

/-- A pattern above infinity is no number. -/
def isNaN (x : Single) : Bool := infiniteMagnitude < x.magnitude

def isInfinite (x : Single) : Bool := x.magnitude == infiniteMagnitude

def isZero (x : Single) : Bool := x.magnitude == 0

/-- The distance from zero in multiples of `2 ^ -149`. An exponent field of zero means no leading
one and the same spacing as an exponent field of one. -/
def units (x : Single) : Nat :=
  let exponent := x.magnitude / exponentWeight
  let fraction := x.magnitude % exponentWeight
  if exponent = 0 then fraction else (exponentWeight + fraction) <<< (exponent - 1)

/-- The position on the number line in multiples of `2 ^ -149`; both zeros stand at zero. -/
def position (x : Single) : Int :=
  if x.isNegative then -(x.units : Int) else x.units

/-! ### Making a pattern -/

/-- The pattern with the given sign and magnitude. -/
def ofMagnitude (negative : Bool) (magnitude : Nat) : Single :=
  ⟨UInt32.ofNat (magnitude + if negative then signWeight else 0)⟩

def zero (negative : Bool) : Single := ofMagnitude negative 0

def infinity (negative : Bool) : Single := ofMagnitude negative infiniteMagnitude

def nan : Single := ⟨0x7fc00000⟩

/-- The number nearest to `num / den` multiples of `2 ^ -149`, ties to the even pattern. From
`2 ^ 24` multiples on the spacing grows with the number, so that twenty-four binary digits remain;
a pattern past the largest finite one is infinity. -/
def ofRatio (negative : Bool) (num den : Nat) : Single :=
  let spacing := (num / den).log2 - 23
  let digits := roundHalfEven num (den <<< spacing)
  -- The leading digit and a carry out of the digits both add to the exponent.
  ofMagnitude negative (min (spacing * exponentWeight + digits) infiniteMagnitude)

/-- The number nearest to a natural. -/
def ofNat (n : Nat) : Single := ofRatio false (n * unitsInOne) 1

/-! ### Arithmetic -/

/-- Flips the sign bit, that of a NaN included. -/
def neg (x : Single) : Single := ⟨x.bits ^^^ 0x80000000⟩

/-- A sum of zero is negative only when both summands are. -/
def add (x y : Single) : Single :=
  if x.isNaN || y.isNaN then nan
  else if x.isInfinite then
    -- Infinities of opposite signs have no sum.
    if y.isInfinite && x.isNegative != y.isNegative then nan else x
  else if y.isInfinite then y
  else
    let sum := x.position + y.position
    if sum = 0 then zero (x.isNegative && y.isNegative)
    else ofRatio (sum < 0) sum.natAbs 1

def sub (x y : Single) : Single := x.add y.neg

def mul (x y : Single) : Single :=
  let negative := x.isNegative != y.isNegative
  if x.isNaN || y.isNaN then nan
  else if x.isInfinite || y.isInfinite then
    if x.isZero || y.isZero then nan else infinity negative
  else ofRatio negative (x.units * y.units) unitsInOne

def div (x y : Single) : Single :=
  let negative := x.isNegative != y.isNegative
  if x.isNaN || y.isNaN then nan
  else if x.isInfinite then if y.isInfinite then nan else infinity negative
  else if y.isInfinite then zero negative
  else if y.isZero then if x.isZero then nan else infinity negative
  else ofRatio negative (x.units * unitsInOne) y.units

/-- What is left of `x` after taking away as many whole `y` as fit, with the sign of `x`. The rest
is a multiple of the finer of the two spacings, so it is exact. -/
def rem (x y : Single) : Single :=
  if x.isNaN || y.isNaN || x.isInfinite || y.isZero then nan
  else if y.isInfinite then x
  else ofRatio x.isNegative (x.units % y.units) 1

/-! ### Order -/

/-- How two numbers are ordered, or `none` when one of them is no number. -/
def compare? (x y : Single) : Option Ordering :=
  if x.isNaN || y.isNaN then none else some (compare x.position y.position)

/-- Equality of numbers: the two zeros are equal, and a NaN equals nothing. -/
def equals (x y : Single) : Bool := x.compare? y == some .eq

/-- At least as large; false when either is no number. -/
def atLeast (x y : Single) : Bool := (x.compare? y).any (·.isGE)

end Single

end ScriptMachine
