/-!
Lengths of time in nanoseconds, and their text: the largest unit with a whole part, and the exact
fraction of it.
-/

set_option autoImplicit false

namespace QueryBuilder

structure Duration where
  nanos : Nat
deriving DecidableEq, Repr, Inhabited

namespace Duration

def ofParts (seconds nanos : Nat) : Duration :=
  ⟨seconds * 1000000000 + nanos⟩

def ofMillis (n : Nat) : Duration :=
  ⟨n * 1000000⟩

-- The nanoseconds of a time rounded up to whole milliseconds.
def upToMillis (d : Duration) : Nat :=
  (d.nanos + 999999) / 1000000 * 1000000

def seconds (d : Duration) : Nat :=
  d.nanos / 1000000000

def subsecond (d : Duration) : Nat :=
  d.nanos % 1000000000

-- A point and the `width` digits of `n` without the zeros at their end; nothing when `n` is zero.
def writeFraction (width n : Nat) : String :=
  if n = 0 then ""
  else
    let digits := (toString (Nat.pow 10 width + n)).toList.drop 1
    "." ++ String.ofList (digits.reverse.dropWhile (· == '0')).reverse

def writeIn (d : Duration) (width : Nat) (unit : String) : String :=
  toString (d.nanos / Nat.pow 10 width) ++ writeFraction width (d.nanos % Nat.pow 10 width) ++ unit

def write (d : Duration) : String :=
  if 1000000000 ≤ d.nanos then d.writeIn 9 "s"
  else if 1000000 ≤ d.nanos then d.writeIn 6 "ms"
  else if 1000 ≤ d.nanos then d.writeIn 3 "µs"
  else d.writeIn 0 "ns"

end Duration

end QueryBuilder
