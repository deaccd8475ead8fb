import QueryBuilder.Number.Double

/-!
The shortest decimal that reads back as a given floating-point number.

A decimal `d * 10 ^ k` reads back as `x` when it lies in the interval of numbers nearer to `x` than
to its neighbours, the ends included when the significand of `x` is even. Grids of one, two, and up
to seventeen digits are tried in turn; on each, only the two points next to `x` can qualify.
-/

set_option autoImplicit false

namespace QueryBuilder.Number

-- A positive decimal: `digits * 10 ^ exponent`.
structure Decimal where
  digits : Nat
  exponent : Int
deriving DecidableEq, Repr

-- Compares `a * 2 ^ q` with `d * 10 ^ k` by exact integers.
def compareScaled (a : Nat) (q : Int) (d : Nat) (k : Int) : Ordering :=
  let left := a * Nat.pow 2 q.toNat * Nat.pow 10 (-k).toNat
  let right := d * Nat.pow 10 k.toNat * Nat.pow 2 (-q).toNat
  compare left right

def floorScaled (a : Nat) (q k : Int) : Nat :=
  (a * Nat.pow 2 q.toNat * Nat.pow 10 (-k).toNat) / (Nat.pow 10 k.toNat * Nat.pow 2 (-q).toNat)

-- The interval around `m * 2 ^ q`, in units of a quarter: `(low, middle, high)` times `2 ^ (q - 2)`.
def quarters (m : Nat) (lowest : Bool) : Nat × Nat × Nat :=
  (if m = Nat.pow 2 52 ∧ ¬ lowest then 4 * m - 1 else 4 * m - 2, 4 * m, 4 * m + 2)

def readsBack (m : Nat) (q : Int) (lowest : Bool) (d : Nat) (k : Int) : Bool :=
  let (low, _, high) := quarters m lowest
  let below := compareScaled low (q - 2) d k
  let above := compareScaled high (q - 2) d k
  if m % 2 = 0 then below != .gt && above != .lt else below == .lt && above == .gt

-- Of the two neighbours on the grid of step `10 ^ k`, the one nearer to the number that reads back.
def nearestOnGrid? (m : Nat) (q : Int) (lowest : Bool) (k : Int) : Option Decimal :=
  let d := floorScaled m q k
  match readsBack m q lowest d k && d != 0, readsBack m q lowest (d + 1) k with
  | true, false => some ⟨d, k⟩
  | false, true => some ⟨d + 1, k⟩
  | false, false => none
  | true, true =>
      match compareScaled (2 * m) q (2 * d + 1) k with
      | .lt => some ⟨d, k⟩
      | .gt => some ⟨d + 1, k⟩
      | .eq => some (if d % 2 = 0 then ⟨d, k⟩ else ⟨d + 1, k⟩)

def firstGrid? (m : Nat) (q : Int) (lowest : Bool) : (tries : Nat) → (k : Int) → Option Decimal
  | 0, _ => none
  | tries + 1, k =>
      match nearestOnGrid? m q lowest k with
      | some d => some d
      | none => firstGrid? m q lowest tries (k - 1)

-- The same decimal without zeros at the end of its digits.
def Decimal.strip : (fuel : Nat) → Decimal → Decimal
  | 0, d => d
  | fuel + 1, d =>
      if d.digits ≠ 0 ∧ d.digits % 10 = 0 then Decimal.strip fuel ⟨d.digits / 10, d.exponent + 1⟩ else d

-- The power of ten just above a magnitude; one digit of the answer stands just below it.
def topExponent (m : Nat) (q : Int) : Int :=
  if 0 ≤ q then ((toString (m * Nat.pow 2 q.toNat)).length : Int)
  else
    let whole := m / Nat.pow 2 (-q).toNat
    if whole ≠ 0 then ((toString whole).length : Int)
    else ((toString (m * Nat.pow 10 (-q).toNat / Nat.pow 2 (-q).toNat)).length : Int) + q

def shortest (x : Double) : Decimal :=
  let (m, q) := x.scaled
  let lowest := x.exponentField ≤ 1
  match firstGrid? m q lowest 17 (topExponent m q - 1) with
  | some d => d.strip 20
  | none => ⟨m, 0⟩

-- How a decimal is laid out: which decimal exponents are written without an exponent part.
structure Layout where
  minFixed : Int
  maxFixed : Int
  positiveMark : String

-- JSON numbers are positional from `1e-5` up to, and not including, `1e16`.
def jsonLayout : Layout := ⟨-5, 15, "e+"⟩

def zeros (n : Nat) : String :=
  String.ofList (List.replicate n '0')

-- Writes a positive decimal; a whole number keeps one zero behind its point.
def Decimal.write (l : Layout) (d : Decimal) : String :=
  let digits := toString d.digits
  let count := digits.length
  let point : Int := count + d.exponent
  let exponent := point - 1
  if l.minFixed ≤ exponent ∧ exponent ≤ l.maxFixed then
    if 0 ≤ d.exponent then digits ++ zeros d.exponent.toNat ++ ".0"
    else if 0 < point then
      String.ofList (digits.toList.take point.toNat) ++ "." ++ String.ofList (digits.toList.drop point.toNat)
    else "0." ++ zeros (-point).toNat ++ digits
  else
    let rest := digits.toList.drop 1
    let body := String.ofList (digits.toList.take 1) ++ (if rest.isEmpty then "" else "." ++ String.ofList rest)
    if 0 ≤ exponent then body ++ l.positiveMark ++ toString exponent else body ++ "e" ++ toString exponent

def writeFinite (l : Layout) (x : Double) : String :=
  let body := if x.isZero then "0.0" else (shortest x).write l
  if x.isNegative then "-" ++ body else body

end QueryBuilder.Number
