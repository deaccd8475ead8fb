/-!
Binary floating-point numbers as bit patterns, with exact integer arithmetic.

A `Double` is the 64-bit interchange pattern. Rounding takes a ratio of natural numbers to the
nearest representable magnitude, a half going to the even neighbour, in any format given by its
precision and exponent width; the two formats used are `Format.double` and `Format.single`.
-/

set_option autoImplicit false

namespace QueryBuilder

-- A binary interchange format: bits of significand, the leading one included, and of exponent.
structure Format where
  precision : Nat
  exponentBits : Nat
deriving DecidableEq, Repr

namespace Format

def double : Format := ⟨53, 11⟩

def single : Format := ⟨24, 8⟩

-- The exponent of the unit in the last place of the smallest magnitudes.
def minExponent (f : Format) : Int :=
  3 - (Nat.pow 2 (f.exponentBits - 1) : Nat) - f.precision

def infinity (f : Format) : Nat :=
  (Nat.pow 2 f.exponentBits - 1) * Nat.pow 2 (f.precision - 1)

-- The quotient rounded to the nearest integer, a half to the even neighbour.
def roundDiv (num den : Nat) : Nat :=
  let q := num / den
  let r := 2 * (num % den)
  if r < den then q else if den < r then q + 1 else q + q % 2

-- The pattern, without sign, of the magnitude nearest to `num / den`.
def round (f : Format) (num den : Nat) : Nat :=
  if num = 0 then 0 else
    let guess : Int := (Nat.log2 num : Int) - Nat.log2 den
    let tooHigh := if 0 ≤ guess then num < den * Nat.pow 2 guess.toNat else num * Nat.pow 2 (-guess).toNat < den
    let log := if tooHigh then guess - 1 else guess
    let exponent := max f.minExponent (log - (f.precision - 1 : Nat))
    let significand :=
      if 0 ≤ exponent then roundDiv num (den * Nat.pow 2 exponent.toNat)
      else roundDiv (num * Nat.pow 2 (-exponent).toNat) den
    let leading := Nat.pow 2 (f.precision - 1)
    if significand < leading then significand
    else
      let pattern := (exponent - f.minExponent + 1).toNat * leading + (significand - leading)
      min pattern f.infinity

end Format

-- A 64-bit floating-point number, given by its bits.
structure Double where
  bits : UInt64
deriving DecidableEq, Repr, Inhabited

namespace Double

def isNegative (x : Double) : Bool :=
  Nat.pow 2 63 ≤ x.bits.toNat

def magnitudeBits (x : Double) : Nat :=
  x.bits.toNat % Nat.pow 2 63

def exponentField (x : Double) : Nat :=
  x.magnitudeBits / Nat.pow 2 52

def fraction (x : Double) : Nat :=
  x.magnitudeBits % Nat.pow 2 52

def isFinite (x : Double) : Bool :=
  x.exponentField < 2047

def isNaN (x : Double) : Bool :=
  x.exponentField == 2047 && x.fraction != 0

def isZero (x : Double) : Bool :=
  x.magnitudeBits == 0

-- The comparison of numbers: no NaN equals anything, and the two zeros are equal.
def sameNumber (x y : Double) : Bool :=
  !x.isNaN && !y.isNaN && (x.bits == y.bits || (x.isZero && y.isZero))

-- A finite magnitude is `m * 2 ^ q` for the pair `(m, q)`.
def scaled (x : Double) : Nat × Int :=
  if x.exponentField = 0 then (x.fraction, -1074)
  else (Nat.pow 2 52 + x.fraction, (x.exponentField : Int) - 1075)

def ofParts (negative : Bool) (magnitude : Nat) : Double :=
  ⟨UInt64.ofNat (if negative then Nat.pow 2 63 + magnitude else magnitude)⟩

def ofInt (n : Int) : Double :=
  ofParts (n < 0) (Format.double.round n.natAbs 1)

def ofDecimal (negative : Bool) (m : Nat) (e : Int) : Double :=
  ofParts negative
    (if 0 ≤ e then Format.double.round (m * Nat.pow 10 e.toNat) 1
     else Format.double.round m (Nat.pow 10 (-e).toNat))

-- The number nearest to a product of two that are finite and not negative.
def product (x y : Double) : Double :=
  let (m, p) := x.scaled
  let (n, q) := y.scaled
  ofParts false (Format.double.round (m * n * Nat.pow 2 (p + q).toNat) (Nat.pow 2 (-(p + q)).toNat))

-- The number nearest to a quotient of two that are finite and not negative.
def quotient (x y : Double) : Double :=
  let (m, p) := x.scaled
  let (n, q) := y.scaled
  ofParts false (Format.double.round (m * Nat.pow 2 (p - q).toNat) (n * Nat.pow 2 (q - p).toNat))

-- The exponent of the highest power of ten that is finite.
def topPower : Nat := 308

def tenTo (k : Nat) : Double :=
  ofDecimal false 1 k

-- Divides by a power of ten, in steps where the power itself is not finite.
def shrink (x : Double) (k : Nat) : Double :=
  if k ≤ topPower then x.quotient (tenTo k)
  else if x.isZero then x
  else shrink (x.quotient (tenTo topPower)) (k - topPower)
termination_by k
decreasing_by
  simp only [topPower] at *
  omega

-- Multiplies by a power of ten; from powers that are not finite only zero comes out finite.
def grow (x : Double) (k : Nat) : Double :=
  if k ≤ topPower then x.product (tenTo k)
  else if x.isZero then x
  else ⟨UInt64.ofNat Format.double.infinity⟩

-- A decimal `m * 10 ^ e` in three roundings: of `m`, of the power of ten, and of what comes of them.
def scaleDecimal (negative : Bool) (m : Nat) (e : Int) : Double :=
  let x := ofInt m
  ofParts negative (if 0 ≤ e then x.grow e.toNat else x.shrink (-e).toNat).magnitudeBits

-- The 32-bit pattern of the nearest single; a NaN keeps the front of its payload and is quiet.
def toSingle (x : Double) : Nat :=
  let magnitude :=
    if x.isNaN then Format.single.infinity + Nat.pow 2 22 + x.fraction / Nat.pow 2 29 % Nat.pow 2 22
    else if x.isFinite then
      let (m, q) := x.scaled
      if 0 ≤ q then Format.single.round (m * Nat.pow 2 q.toNat) 1
      else Format.single.round m (Nat.pow 2 (-q).toNat)
    else Format.single.infinity
  if x.isNegative then Nat.pow 2 31 + magnitude else magnitude

def singleOfInt (n : Int) : Nat :=
  let magnitude := Format.single.round n.natAbs 1
  if n < 0 then Nat.pow 2 31 + magnitude else magnitude

-- A single widened without change of value; a NaN becomes quiet.
def ofSingle (bits : Nat) : Double :=
  let negative := Nat.pow 2 31 ≤ bits
  let exponent := bits / Nat.pow 2 23 % Nat.pow 2 8
  let fraction := bits % Nat.pow 2 23
  ofParts negative <|
    if exponent = 255 then
      if fraction = 0 then Format.double.infinity
      else Format.double.infinity + Nat.pow 2 51 + fraction % Nat.pow 2 22 * Nat.pow 2 29
    else if exponent = 0 then Format.double.round fraction (Nat.pow 2 149)
    else if 150 ≤ exponent then Format.double.round ((Nat.pow 2 23 + fraction) * Nat.pow 2 (exponent - 150)) 1
    else Format.double.round (Nat.pow 2 23 + fraction) (Nat.pow 2 (150 - exponent))

end Double

end QueryBuilder
